import Fips2Go.HttpChunks

/-!
# Writing chunked bodies

A chunked body as an encoder may write it: sizes in hexadecimal digits of either
case, with zeros in front, blanks around and an extension behind, a last chunk
of size zero, and a trailer.  `dechunk` recovers the chunks, and calls every such
body cut short that is cut before the end of its last size line.
-/

namespace Fips2Go.MeshHttp

open Machine Utf8Text Bytes

inductive Blank where
  | space
  | tab
  deriving DecidableEq

def Blank.octet : Blank → UInt8
  | .space => 32
  | .tab => 9

structure HexDigit where
  value : Fin 16
  upper : Bool
  deriving DecidableEq

def HexDigit.octet (digit : HexDigit) : UInt8 :=
  let value := digit.value.val
  UInt8.ofNat (if value < 10 then 48 + value else if digit.upper then 55 + value else 87 + value)

/-- The number that hexadecimal digits stand for. -/
def numeral (digits : List HexDigit) : Nat :=
  digits.foldl (fun value digit => value * 16 + digit.value.val) 0

abbrev Extension := { octets : Bytes // ¬ crlf <:+: octets }

/-- A line that declares a size. -/
structure SizeLine (size : Nat) where
  before : List Blank
  digits : List HexDigit
  after : List Blank
  extension : Option Extension
  nonempty : digits ≠ []
  declares : numeral digits = size

namespace SizeLine

variable {size : Nat}

/-- The octets up to the extension. -/
def front (line : SizeLine size) : Bytes :=
  line.before.map Blank.octet ++ line.digits.map HexDigit.octet ++ line.after.map Blank.octet

def octets (line : SizeLine size) : Bytes :=
  line.front ++ line.extension.elim [] fun extension => 59 :: extension.val

end SizeLine

structure Chunk where
  content : Bytes
  nonempty : content ≠ []
  line : SizeLine content.length

def Chunk.octets (chunk : Chunk) : Bytes :=
  chunk.line.octets ++ crlf ++ (chunk.content ++ crlf)

structure ChunkedBody where
  chunks : List Chunk
  last : SizeLine 0
  trailer : Bytes

namespace ChunkedBody

/-- The octets up to the end of the line that declares the size zero. -/
def chunkOctets (chunks : List Chunk) (last : SizeLine 0) : Bytes :=
  chunks.flatMap Chunk.octets ++ (last.octets ++ crlf)

def octets (body : ChunkedBody) : Bytes := chunkOctets body.chunks body.last ++ body.trailer

def content (body : ChunkedBody) : Bytes := body.chunks.flatMap Chunk.content

end ChunkedBody

/-! ### Size lines -/

theorem Blank.octet_spec (blank : Blank) : blank.octet < 0x80 ∧ blank.octet ≠ 13 ∧
    Char.ofNat blank.octet.toNat ≠ ';' ∧ isWhitespace (Char.ofNat blank.octet.toNat) = true := by
  cases blank <;> decide

theorem HexDigit.octet_spec (digit : HexDigit) : digit.octet < 0x80 ∧ digit.octet ≠ 13 ∧
    Char.ofNat digit.octet.toNat ≠ ';' ∧ isWhitespace (Char.ofNat digit.octet.toNat) = false ∧
    Char.ofNat digit.octet.toNat ≠ '+' ∧
    toDigit 16 (Char.ofNat digit.octet.toNat) = some digit.value.val := by
  obtain ⟨value, upper⟩ := digit
  revert value upper
  decide +kernel

namespace SizeLine

variable {size : Nat} (line : SizeLine size)

theorem front_spec : ∀ octet ∈ line.front,
    octet < 0x80 ∧ octet ≠ 13 ∧ Char.ofNat octet.toNat ≠ ';' := by
  intro octet member
  simp only [front, List.mem_append, List.mem_map] at member
  rcases member with (⟨blank, -, rfl⟩ | ⟨digit, -, rfl⟩) | ⟨blank, -, rfl⟩
  · obtain ⟨ascii, noReturn, noSemicolon, -⟩ := blank.octet_spec
    exact ⟨ascii, noReturn, noSemicolon⟩
  · obtain ⟨ascii, noReturn, noSemicolon, -⟩ := digit.octet_spec
    exact ⟨ascii, noReturn, noSemicolon⟩
  · obtain ⟨ascii, noReturn, noSemicolon, -⟩ := blank.octet_spec
    exact ⟨ascii, noReturn, noSemicolon⟩

/-- A size line is one line. -/
theorem unbroken : ¬ crlf <:+: line.octets := by
  have behind : ∀ {front rest : Bytes}, 13 ∉ front → crlf <:+: front ++ rest → crlf <:+: rest := by
    intro front rest solid
    induction front with
    | nil => exact id
    | cons octet front ih =>
        rw [List.mem_cons, not_or] at solid
        rw [List.cons_append, List.infix_cons_iff]
        rintro (here | inside)
        · exact absurd (List.cons_prefix_cons.mp here).1 solid.1
        · exact ih solid.2 inside
  intro broken
  have inside := behind (fun member => (line.front_spec _ member).2.1 rfl) broken
  cases extended : line.extension with
  | none =>
      rw [extended] at inside
      exact absurd (List.infix_nil.mp inside) (by decide)
  | some extension =>
      rw [extended] at inside
      exact extension.2 (behind (show 13 ∉ [59] by decide) inside)

/-- What is read of a size line in front of a semicolon. -/
theorem firstField_octets : firstField ';' (fromUtf8Lossy line.octets) =
    line.front.map fun octet => Char.ofNat octet.toNat := by
  have ascii : ∀ octet ∈ line.front, octet < 0x80 :=
    fun octet member => (line.front_spec octet member).1
  have plain : ∀ char ∈ line.front.map (fun octet => Char.ofNat octet.toNat),
      decide (char ≠ ';') = true := by
    simp only [List.forall_mem_map, decide_eq_true_eq]
    exact fun octet member => (line.front_spec octet member).2.2
  unfold octets firstField
  rw [fromUtf8Lossy_append ascii, List.takeWhile_append_of_pos plain]
  cases line.extension with
  | none => simp [fromUtf8Lossy, lossyAfter]
  | some extension =>
      have semicolon := fromUtf8Lossy_append
        (List.forall_mem_singleton.mpr (show (59 : UInt8) < 0x80 by decide)) extension.val
      rw [List.singleton_append] at semicolon
      simp [semicolon]

/-- Of the front of a size line the digits remain. -/
theorem trim_front : trim (line.front.map fun octet => Char.ofNat octet.toNat) =
    line.digits.map fun digit => Char.ofNat digit.octet.toNat := by
  have blank : ∀ blanks : List Blank, ∀ char ∈
      (blanks.map Blank.octet).map (fun octet => Char.ofNat octet.toNat),
      isWhitespace char = true := by
    simp only [List.forall_mem_map]
    exact fun _ blank _ => blank.octet_spec.2.2.2
  have solid : ∀ char ∈
      (line.digits.map HexDigit.octet).map (fun octet => Char.ofNat octet.toNat),
      isWhitespace char = false := by
    simp only [List.forall_mem_map]
    exact fun digit _ => digit.octet_spec.2.2.2.1
  rw [front, List.map_append, List.map_append, trim_append (blank _) (blank _) solid, List.map_map]
  rfl

theorem chunkSize_octets {target : Target} (fits : size < target.wordEnd) :
    chunkSize target line.octets = some size := by
  have value : (line.digits.map fun digit => digit.value.val).foldl
      (fun value digit => value * 16 + digit) 0 = size := by
    rw [List.foldl_map]
    exact line.declares
  have read : (line.digits.map fun digit => Char.ofNat digit.octet.toNat).map (toDigit 16) =
      (line.digits.map fun digit => digit.value.val).map some := by
    rw [List.map_map, List.map_map]
    exact List.map_congr_left fun digit _ => digit.octet_spec.2.2.2.2.2
  have unsigned : (line.digits.map fun digit => Char.ofNat digit.octet.toNat).head? ≠
      some '+' := by
    intro sign
    obtain ⟨digit, -, plus⟩ := List.mem_map.mp (List.mem_of_mem_head? sign)
    exact digit.octet_spec.2.2.2.2.1 plus
  have nonempty : line.digits.map (fun digit => Char.ofNat digit.octet.toNat) ≠ [] := by
    simpa using line.nonempty
  rw [← value] at fits
  rw [chunkSize, firstField_octets, trim_front,
    fromStrRadix_of_digits (by decide) nonempty unsigned read fits, value]

end SizeLine

/-! ### Bodies -/

/-- Before its line break a line has no end. -/
theorem unended_take {line : Bytes} (unbroken : ¬ crlf <:+: line) (rest : Bytes) {cut : Nat}
    (early : cut < line.length + 2) : ¬ crlf <:+: (line ++ crlf ++ rest).take cut := by
  intro broken
  obtain ⟨index, found⟩ := exists_windowPosition broken (by decide)
  have whole := windowPosition_append found ((line ++ crlf ++ rest).drop cut)
  rw [List.take_append_drop, List.append_assoc,
    show crlf ++ rest = 13 :: 10 :: rest from rfl,
    show crlf = [13, 10] from rfl, windowPosition_pair (by decide) unbroken,
    Option.some.injEq] at whole
  obtain ⟨before, after, parts, size, -⟩ := windowPosition_spec found
  have length := congrArg List.length parts
  simp only [crlf, List.length_take, List.length_append, List.length_cons,
    List.length_nil] at length
  omega

theorem chunkOctets_cons (chunk : Chunk) (chunks : List Chunk) (last : SizeLine 0)
    (trailer : Bytes) : ChunkedBody.chunkOctets (chunk :: chunks) last ++ trailer =
      chunk.line.octets ++ crlf ++
        (chunk.content ++ crlf ++ (ChunkedBody.chunkOctets chunks last ++ trailer)) := by
  simp [ChunkedBody.chunkOctets, Chunk.octets]

theorem length_chunkOctets_cons (chunk : Chunk) (chunks : List Chunk) (last : SizeLine 0) :
    (ChunkedBody.chunkOctets (chunk :: chunks) last).length =
      chunk.line.octets.length + 2 + (chunk.content.length + 2) +
        (ChunkedBody.chunkOctets chunks last).length := by
  have parts := congrArg List.length (chunkOctets_cons chunk chunks last [])
  simp only [List.append_nil, length_line] at parts
  omega

theorem decodes_chunkOctets {target : Target} (chunks : List Chunk) (last : SizeLine 0)
    (trailer : Bytes)
    (fits : (ChunkedBody.chunkOctets chunks last ++ trailer).length < target.wordEnd) :
    Decodes target (ChunkedBody.chunkOctets chunks last ++ trailer)
      (.ok (chunks.flatMap Chunk.content)) := by
  induction chunks with
  | nil =>
      have zero : chunkSize target last.octets = some 0 :=
        last.chunkSize_octets (Nat.zero_lt_of_lt fits)
      exact .last last.unbroken zero
  | cons chunk chunks ih =>
      rw [chunkOctets_cons] at fits ⊢
      simp only [List.length_append] at fits ih
      have sized : chunkSize target chunk.line.octets = some chunk.content.length :=
        chunk.line.chunkSize_octets (by omega)
      exact .chunk chunk.line.unbroken sized chunk.nonempty rfl (ih (by omega))

/-- Wherever the octets are cut before the end of the last size line, they are cut
short. -/
theorem decodes_take {target : Target} (chunks : List Chunk) (last : SizeLine 0)
    (trailer : Bytes)
    (fits : (ChunkedBody.chunkOctets chunks last ++ trailer).length < target.wordEnd) {cut : Nat}
    (early : cut < (ChunkedBody.chunkOctets chunks last).length) :
    Decodes target ((ChunkedBody.chunkOctets chunks last ++ trailer).take cut)
      (.error chunksCutShort) := by
  induction chunks generalizing cut with
  | nil =>
      have early : cut < last.octets.length + 2 := by
        simpa [ChunkedBody.chunkOctets, crlf] using early
      exact .unended (unended_take last.unbroken trailer early)
  | cons chunk chunks ih =>
      rw [chunkOctets_cons] at fits ⊢
      have ending : crlf.length = 2 := rfl
      rw [length_chunkOctets_cons] at early
      have sized : chunkSize target chunk.line.octets = some chunk.content.length := by
        apply chunk.line.chunkSize_octets
        simp only [List.length_append] at fits
        omega
      rcases Nat.lt_or_ge cut (chunk.line.octets.length + 2) with inLine | behindLine
      · exact .unended (unended_take chunk.line.unbroken _ inLine)
      obtain ⟨cut, rfl⟩ := Nat.exists_eq_add_of_le behindLine
      have line : (chunk.line.octets ++ crlf).length = chunk.line.octets.length + 2 := by
        rw [List.length_append, ending]
      rw [← line, List.take_length_add_append]
      rcases Nat.lt_or_ge cut (chunk.content.length + 2) with inChunk | behindChunk
      · refine .short chunk.line.unbroken sized (List.length_pos_of_ne_nil chunk.nonempty) ?_
        rw [List.length_take]
        omega
      obtain ⟨cut, rfl⟩ := Nat.exists_eq_add_of_le behindChunk
      have content : (chunk.content ++ crlf).length = chunk.content.length + 2 := by
        rw [List.length_append, ending]
      rw [← content, List.take_length_add_append]
      refine .chunk chunk.line.unbroken sized chunk.nonempty ending (ih ?_ (by omega))
      simp only [List.length_append] at fits ⊢
      omega

/-- Decoding recovers what was encoded, and no cut before the end of the last size
line is taken for a body. -/
theorem dechunk_inverts_encoding (target : Target) (body : ChunkedBody)
    (fits : body.octets.length < target.memory) :
    dechunk target body.octets = .ok (.ok body.content) ∧
      ∀ cut < (ChunkedBody.chunkOctets body.chunks body.last).length,
        dechunk target (body.octets.take cut) = .ok (.error chunksCutShort) := by
  have inWord : body.octets.length < target.wordEnd := by
    rw [target.wordEnd_eq]
    omega
  refine ⟨dechunk_of_decodes fits (decodes_chunkOctets _ _ _ inWord), ?_⟩
  intro cut early
  refine dechunk_of_decodes ?_ (decodes_take _ _ _ inWord early)
  exact (List.length_take_le' cut body.octets).trans_lt fits

/-- Two chunks, with every freedom in how their sizes are written. -/
private def twoChunks : ChunkedBody where
  chunks :=
    [⟨[13, 10, 48, 13, 10, 13, 10, 1, 2, 3, 4], by decide,
        ⟨[.space], [⟨0, false⟩, ⟨11, true⟩], [.tab], some ⟨[120, 61, 13], by decide⟩, by decide,
          by decide⟩⟩,
      ⟨[7], by decide, ⟨[], [⟨1, false⟩], [], none, by decide, by decide⟩⟩]
  last := ⟨[], [⟨0, false⟩, ⟨0, false⟩], [], none, by decide, by decide⟩
  trailer := [13, 10]

theorem chunks_with_line_breaks_are_read_back :
    dechunk ⟨.bits32, true⟩ twoChunks.octets =
        .ok (.ok [13, 10, 48, 13, 10, 13, 10, 1, 2, 3, 4, 7]) ∧
      dechunk ⟨.bits32, true⟩ (twoChunks.octets.take 19) = .ok (.error chunksCutShort) := by
  obtain ⟨whole, cut⟩ := dechunk_inverts_encoding ⟨.bits32, true⟩ twoChunks (by decide)
  exact ⟨whole, cut 19 (by decide)⟩

end Fips2Go.MeshHttp
