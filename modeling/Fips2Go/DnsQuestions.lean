import Fips2Go.DnsRouting
import Fips2Go.DnsTranslation
import Fips2Go.Utf8Text

/-!
# The questions that are built here

A question for a name is built in two places, by `aaaa_query` of
`shim/src/meshhttp.rs` and by `npub_query` of `shim/src/dns.rs`, and read by
the functions of the latter.  Both read back: the name in lower case, an end
that is the message's, and the type that was asked for.
-/

namespace Fips2Go.Dns

open Utf8Text (Text encode toAsciiLowercase)

/-- A minimal DNS query message: one AAAA/IN question, recursion desired. -/
def aaaaQuery (id : UInt16) (name : Text) : Bytes :=
  Bytes.toBe16 id ++ [0x01, 0x00, 0, 1, 0, 0, 0, 0, 0, 0] ++
    ((name.splitOn '.').filter (· ≠ [])).flatMap (fun label =>
      UInt8.ofNat (min (encode label).length 63) ::
        (encode label).take (min (encode label).length 63)) ++
    [0, 0, 28, 0, 1]

/-- QTYPE of the first question (0 when malformed). -/
def qtypeOf (message : Bytes) : UInt16 :=
  match ended : questionEnd message with
  | none => 0
  | some qend =>
      have bounds := questionEnd_bounds ended
      Bytes.be16 message[qend - 4] message[qend - 3]

/-- An ASCII name of dot-separated labels, within the lengths of the DNS. -/
structure Hostname (name : Text) : Prop where
  ascii : ∀ char ∈ name, char.toNat < 0x80
  labelSizes : ∀ label ∈ name.splitOn '.', 1 ≤ label.length ∧ label.length ≤ 63
  atMost : name.length ≤ 253

/-! ### Names spelled from labels -/

section Spelling

variable {label : Text} {labels : List Text}

theorem nameChar_octet {char : Char} (ascii : char.toNat < 0x80) :
    nameChar (UInt8.ofNat char.toNat) = char.toLower := by
  have same : Char.ofUInt8 (UInt8.ofNat char.toNat) = char := by
    apply Char.toNat_inj.mp
    have octet : (UInt8.ofNat char.toNat).toNat = char.toNat := by
      rw [UInt8.toNat_ofNat']
      omega
    exact octet
  rw [nameChar, same]

theorem map_nameChar_encode (ascii : ∀ char ∈ label, char.toNat < 0x80) :
    (encode label).map nameChar = toAsciiLowercase label := by
  rw [Utf8Text.encode_ascii ascii, List.map_map]
  exact List.map_congr_left fun char member => nameChar_octet (ascii char member)

/-- What is spelled from a name on is that name, and a dot before each label. -/
theorem foldl_appendLabel {name : List Char} (started : name ≠ [])
    (ascii : ∀ label ∈ labels, ∀ char ∈ label, char.toNat < 0x80) :
    (labels.map encode).foldl appendLabel name =
      name ++ toAsciiLowercase (labels.flatMap fun label => '.' :: label) := by
  induction labels generalizing name with
  | nil => simp [toAsciiLowercase]
  | cons label labels ih =>
      have spelled : appendLabel name (encode label) =
          name ++ toAsciiLowercase ('.' :: label) := by
        rw [appendLabel, if_neg started,
          map_nameChar_encode (ascii label List.mem_cons_self)]
        simp [toAsciiLowercase]
      rw [List.map_cons, List.foldl_cons, spelled, ih (by simp [started])
        fun other member => ascii other (List.mem_cons_of_mem label member)]
      simp [toAsciiLowercase]

theorem intercalate_dots (label : Text) (labels : List Text) :
    ['.'].intercalate (label :: labels) = label ++ labels.flatMap fun label => '.' :: label := by
  induction labels generalizing label with
  | nil => simp
  | cons next labels ih =>
      rw [List.intercalate_cons_cons, ih, List.flatMap_cons]
      simp

/-- Labels spell the name that they are parts of, in lower case. -/
theorem spelled_eq (ascii : ∀ label ∈ labels, ∀ char ∈ label, char.toNat < 0x80)
    (nonempty : ∀ label ∈ labels, label ≠ []) :
    (labels.map encode).foldl appendLabel [] = toAsciiLowercase (['.'].intercalate labels) := by
  cases labels with
  | nil => rfl
  | cons label labels =>
      have spelled : appendLabel [] (encode label) = toAsciiLowercase label := by
        rw [appendLabel, if_pos rfl, map_nameChar_encode (ascii label List.mem_cons_self)]
        rfl
      have started : toAsciiLowercase label ≠ [] := by
        simpa [toAsciiLowercase] using nonempty label List.mem_cons_self
      rw [List.map_cons, List.foldl_cons, spelled, foldl_appendLabel started
        fun other member => ascii other (List.mem_cons_of_mem label member), intercalate_dots]
      simp [toAsciiLowercase]

theorem utf8Len_lowercase {name : Text} (ascii : ∀ char ∈ name, char.toNat < 0x80) :
    utf8Len (toAsciiLowercase name) = name.length := by
  induction name with
  | nil => rfl
  | cons char name ih =>
      have small := ascii char List.mem_cons_self
      have one : char.toLower.utf8Size = 1 := by
        have limit : (0x80 : UInt8).toNat = 128 := rfl
        rw [← nameChar_octet small, utf8Size_nameChar, if_neg]
        rw [UInt8.le_iff_toNat_le, UInt8.toNat_ofNat', limit]
        omega
      have rest := ih fun other member => ascii other (List.mem_cons_of_mem char member)
      simp only [toAsciiLowercase] at rest
      rw [toAsciiLowercase, List.map_cons, utf8Len_cons, one, rest, List.length_cons]
      omega

/-- The loop of `parse_qname` reads every name of 254 bytes at most to its end. -/
theorem spell_of_short {name : List Char} {labels : List Bytes}
    (short : utf8Len (labels.foldl appendLabel name) ≤ 254) :
    spell name labels = some (labels.foldl appendLabel name) := by
  induction labels generalizing name with
  | nil => rfl
  | cons label labels ih =>
      have grows := utf8Len_le_foldl_appendLabel (appendLabel name label) labels
      have longer := le_labelBytes label
      rw [utf8Len_appendLabel] at grows
      rw [List.foldl_cons] at short
      rw [spell, if_neg (by omega), ih short, List.foldl_cons]

end Spelling

/-! ### Messages with one question -/

section Question

variable (question : Question) (after : Bytes)

/-- The name of a question on the wire is spelled from its labels. -/
theorem parseQname_bytes {front counts : Bytes} (four : front.length = 4)
    (six : counts.length = 6) :
    parseQname (front ++ [0, 1] ++ counts ++ (question.bytes ++ after)) =
      spell [] question.labels := by
  have twelve : (front ++ [0, 1] ++ counts).length = 12 := by simp [four, six]
  have loop (fuel : Nat) (enough : question.labels.length < fuel) :=
    qnameFrom_wireName (front ++ [0, 1] ++ counts) question.labels
      (Bytes.toBe16 question.qtype ++ Bytes.toBe16 question.qclass ++ after) []
      enough question.sizes
  have layout : front ++ [0, 1] ++ counts ++ (wireName question.labels ++
      (Bytes.toBe16 question.qtype ++ Bytes.toBe16 question.qclass ++ after)) =
      front ++ [0, 1] ++ counts ++ (question.bytes ++ after) := by
    simp [Question.bytes]
  rw [layout, twelve] at loop
  have fifth : (front ++ [0, 1] ++ counts ++ (question.bytes ++ after))[4]? = some 0 := by
    simp [← four]
  have sixth : (front ++ [0, 1] ++ counts ++ (question.bytes ++ after))[5]? = some 1 := by
    simp [show 5 = front.length + 1 by omega]
  have long : ¬ (front ++ [0, 1] ++ counts ++ (question.bytes ++ after)).length < 12 := by
    rw [List.length_append, twelve]
    omega
  have enough : question.labels.length <
      (front ++ [0, 1] ++ counts ++ (question.bytes ++ after)).length := by
    have few := length_le_wireLabels question.labels
    rw [List.length_append, twelve, List.length_append, Question.bytes, wireName,
      List.length_append, List.length_append]
    omega
  generalize front ++ [0, 1] ++ counts ++ (question.bytes ++ after) = message at *
  have high : message[4] = 0 := (List.getElem_eq_iff _).mpr fifth
  have low : message[5] = 1 := (List.getElem_eq_iff _).mpr sixth
  have counted : Bytes.be16 message[4] message[5] ≠ 0 := by
    rw [high, low]
    decide
  rw [parseQname, dif_neg long, if_neg counted, loop _ enough]

/-- The type of a question on the wire is read back. -/
theorem qtypeOf_bytes {header : Bytes} (twelve : header.length = 12) :
    qtypeOf (header ++ (question.bytes ++ after)) = question.qtype := by
  obtain ⟨high, low, octets, word⟩ := Bytes.exists_octets question.qtype
  have layout : header ++ (question.bytes ++ after) =
      (header ++ wireName question.labels) ++
        high :: low :: (Bytes.toBe16 question.qclass ++ after) := by
    simp [Question.bytes, octets]
  have position : 12 + question.bytes.length - 4 = (header ++ wireName question.labels).length := by
    simp [Question.bytes, twelve]
    omega
  unfold qtypeOf
  split
  next ended =>
    rw [questionEnd_bytes twelve question after] at ended
    cases ended
  next qend ended =>
    have bounds := questionEnd_bounds ended
    have last := (Option.some.inj ((questionEnd_bytes twelve question after).symm.trans ended)).symm
    subst last
    have first : (header ++ (question.bytes ++ after))[12 + question.bytes.length - 4]? =
        some high := by
      rw [position, layout]
      simp
    have second : (header ++ (question.bytes ++ after))[12 + question.bytes.length - 3]? =
        some low := by
      have next : 12 + question.bytes.length - 3 =
          (header ++ wireName question.labels).length + 1 := by omega
      rw [next, layout, List.getElem?_append_right (Nat.le_succ _)]
      simp
    dsimp only
    rw [(List.getElem_eq_iff _).mpr first, (List.getElem_eq_iff _).mpr second, word]

end Question

/-! ### The two messages -/

namespace Hostname

variable {name : Text}

theorem ascii_label (hostname : Hostname name) :
    ∀ label ∈ name.splitOn '.', ∀ char ∈ label, char.toNat < 0x80 := by
  intro label member char inside
  apply hostname.ascii
  have whole : ['.'].intercalate (name.splitOn '.') = name := List.intercalate_splitOn '.'
  rw [← whole]
  exact Utf8Text.mem_intercalate_of_mem inside member

theorem length_encode (hostname : Hostname name) :
    ∀ label ∈ name.splitOn '.', (encode label).length = label.length := by
  intro label member
  rw [Utf8Text.encode_ascii (hostname.ascii_label label member), List.length_map]

/-- The question that asks for the addresses of a name. -/
def question (hostname : Hostname name) : Question where
  labels := (name.splitOn '.').map encode
  qtype := typeAaaa
  qclass := 1
  sizes := by
    intro octets member
    obtain ⟨label, inside, rfl⟩ := List.mem_map.mp member
    rw [hostname.length_encode label inside]
    exact hostname.labelSizes label inside

theorem aaaaQuery_eq (hostname : Hostname name) (id : UInt16) :
    aaaaQuery id name =
      Bytes.toBe16 id ++ [0x01, 0x00] ++ [0, 1] ++ [0, 0, 0, 0, 0, 0] ++
        (hostname.question.bytes ++ []) := by
  have kept : (name.splitOn '.').filter (· ≠ []) = name.splitOn '.' := by
    refine List.filter_eq_self.mpr fun label member => ?_
    have nonempty : label ≠ [] := List.length_pos_iff.mp (hostname.labelSizes label member).1
    simpa using nonempty
  have whole : (name.splitOn '.').flatMap (fun label =>
      UInt8.ofNat (min (encode label).length 63) ::
        (encode label).take (min (encode label).length 63)) =
      wireLabels ((name.splitOn '.').map encode) := by
    rw [wireLabels, List.flatMap_map]
    refine List.flatMap_congr fun label member => ?_
    have atMost := (hostname.labelSizes label member).2
    rw [← hostname.length_encode label member] at atMost
    rw [Nat.min_eq_left atMost, List.take_length]
  have fields : Bytes.toBe16 typeAaaa ++ Bytes.toBe16 1 = [0, 28, 0, 1] := by decide
  have fields : hostname.question.bytes =
      wireLabels ((name.splitOn '.').map encode) ++ [0] ++ [0, 28, 0, 1] := by
    rw [Question.bytes, question, wireName, fields]
  rw [aaaaQuery, kept, whole, fields]
  simp

end Hostname

/-- `npub_query` asks the type and class of the query for the node's name,
whatever the query is. -/
theorem npubQuery_eq {query npub : Bytes} {qend : Nat} (ended : questionEnd query = some qend)
    (sizes : 1 ≤ npub.length ∧ npub.length ≤ 63) : ∃ question : Question,
    question.labels = [npub, fipsLabel] ∧
      npubQuery query npub = some
        (query.take 4 ++ [0, 1] ++ [0, 0, 0, 0, 0, 0] ++ (question.bytes ++ [])) := by
  obtain ⟨atLeast, within⟩ := questionEnd_bounds ended
  have four : ((query.drop (qend - 4)).take 4).length = 4 := by
    rw [List.length_take, List.length_drop]
    omega
  obtain ⟨t0, t1, c0, c1, fields⟩ : ∃ t0 t1 c0 c1,
      (query.drop (qend - 4)).take 4 = [t0, t1, c0, c1] := by
    rcases octets : (query.drop (qend - 4)).take 4 with _ | ⟨t0, _ | ⟨t1, _ | ⟨c0, _ | ⟨c1, rest⟩⟩⟩⟩
    · simp [octets] at four
    · simp [octets] at four
    · simp [octets] at four
    · simp [octets] at four
    · rw [octets] at four
      have last : rest = [] := by simpa using four
      exact ⟨t0, t1, c0, c1, by rw [last]⟩
  have named : ¬ (npub = [] ∨ npub.length > 63) := by
    rintro (rfl | long)
    · exact absurd sizes.1 (by decide)
    · omega
  refine ⟨{ labels := [npub, fipsLabel], qtype := Bytes.be16 t0 t1, qclass := Bytes.be16 c0 c1
            sizes := by simp [sizes, fipsLabel] }, rfl, ?_⟩
  unfold npubQuery
  simp only [ended, if_neg named, fields, Option.some.injEq]
  simp [Question.bytes, wireName, wireLabels, Bytes.toBe16_be16, fipsLabel]

/-- The questions read back.  A name asked for by `aaaa_query` is read in lower
case, its question ends with the message, and its type is AAAA; a query re-asked
for a node's name reads as that name below `fips`. -/
theorem questions_read_back :
    (∀ (id : UInt16) (name : Text), Hostname name →
      parseQname (aaaaQuery id name) = some (toAsciiLowercase name) ∧
        questionEnd (aaaaQuery id name) = some (aaaaQuery id name).length ∧
        qtypeOf (aaaaQuery id name) = 28) ∧
    (∀ (query : Bytes) (npub : Text), (questionEnd query).isSome → npub.all Char.isAlphanum →
      1 ≤ npub.length ∧ npub.length ≤ 63 →
      ∃ message, npubQuery query (encode npub) = some message ∧
        parseQname message = some (toAsciiLowercase npub ++ ".fips".toList) ∧
        questionEnd message = some message.length) := by
  constructor
  · intro id name hostname
    have header : (Bytes.toBe16 id ++ [0x01, 0x00] ++ [0, 1] ++ [0, 0, 0, 0, 0, 0]).length = 12 :=
      rfl
    rw [hostname.aaaaQuery_eq]
    refine ⟨?_, ?_, ?_⟩
    · have nonempty : ∀ label ∈ name.splitOn '.', label ≠ [] := fun label member =>
        List.length_pos_iff.mp (hostname.labelSizes label member).1
      have spelled := spelled_eq hostname.ascii_label nonempty
      rw [List.intercalate_splitOn] at spelled
      have short := utf8Len_lowercase hostname.ascii
      rw [← spelled] at short
      have atMost := hostname.atMost
      rw [parseQname_bytes hostname.question [] rfl rfl, ← spelled]
      exact spell_of_short (short.trans_le (atMost.trans (by decide)))
    · rw [questionEnd_bytes header, List.length_append, List.append_nil, header]
    · rw [qtypeOf_bytes hostname.question [] header]
      rfl
  · intro query npub defined alphanumeric sizes
    obtain ⟨qend, ended⟩ := Option.isSome_iff_exists.mp defined
    have fipsAlphanumeric : "fips".toList.all Char.isAlphanum = true := by decide
    have fipsAscii : ∀ char ∈ "fips".toList, char.toNat < 0x80 := fun char inside =>
      Utf8Text.ascii_of_isAlphanum (List.all_eq_true.mp fipsAlphanumeric char inside)
    have npubAscii : ∀ char ∈ npub, char.toNat < 0x80 := fun char inside =>
      Utf8Text.ascii_of_isAlphanum (List.all_eq_true.mp alphanumeric char inside)
    have octets : (encode npub).length = npub.length := by
      rw [Utf8Text.encode_ascii npubAscii, List.length_map]
    obtain ⟨question, labels, asked⟩ := npubQuery_eq ended (octets.symm ▸ sizes)
    have four : (query.take 4).length = 4 := by
      have bounds := questionEnd_bounds ended
      rw [List.length_take]
      omega
    have header : (query.take 4 ++ [0, 1] ++ [0, 0, 0, 0, 0, 0]).length = 12 := by
      rw [List.length_append, List.length_append, four]
      rfl
    refine ⟨_, asked, ?_, ?_⟩
    · have whole : ['.'].intercalate [npub, "fips".toList] = npub ++ ".fips".toList :=
        intercalate_dots npub ["fips".toList]
      have lower : toAsciiLowercase (npub ++ ".fips".toList) =
          toAsciiLowercase npub ++ ".fips".toList :=
        List.map_append
      have spelled : ([npub, "fips".toList].map encode).foldl appendLabel [] =
          toAsciiLowercase (['.'].intercalate [npub, "fips".toList]) := spelled_eq
        (List.forall_mem_cons.mpr ⟨npubAscii, List.forall_mem_singleton.mpr fipsAscii⟩)
        (List.forall_mem_cons.mpr ⟨List.length_pos_iff.mp sizes.1,
          List.forall_mem_singleton.mpr (by decide)⟩)
      have short : utf8Len (toAsciiLowercase (npub ++ ".fips".toList)) = npub.length + 5 := by
        rw [utf8Len_lowercase, List.length_append]
        · rfl
        · intro char inside
          rcases List.mem_append.mp inside with front | back
          · exact npubAscii char front
          · rcases List.mem_cons.mp back with rfl | back
            · decide
            · exact fipsAscii char back
      have labels : question.labels = [npub, "fips".toList].map encode := labels
      rw [whole] at spelled
      rw [parseQname_bytes question [] four rfl, labels, ← lower, ← spelled]
      apply spell_of_short
      rw [spelled, short]
      omega
    · rw [questionEnd_bytes header, List.length_append, List.append_nil, header]

/-- A name of two labels reads back, and so does the query re-asked for a node. -/
theorem home_fips_reads_back : ∃ message,
    npubQuery (aaaaQuery 7 "Home.Fips".toList) (encode "npub1x".toList) = some message ∧
      parseQname message = some "npub1x.fips".toList := by
  have hostname : Hostname "Home.Fips".toList := by
    have chars : "Home.Fips".toList.all (fun char => char.isAlphanum || char == '.') = true := by
      decide
    refine ⟨fun char inside => ?_, by decide, by decide⟩
    rcases Bool.or_eq_true_iff.mp (List.all_eq_true.mp chars char inside) with alphanumeric | dot
    · exact Utf8Text.ascii_of_isAlphanum alphanumeric
    · rw [beq_iff_eq.mp dot]
      decide
  obtain ⟨-, ended, -⟩ := questions_read_back.1 7 _ hostname
  obtain ⟨message, asked, named, -⟩ := questions_read_back.2 _ "npub1x".toList
    (Option.isSome_iff_exists.mpr ⟨_, ended⟩) (by decide) (by decide)
  exact ⟨message, asked, named⟩

end Fips2Go.Dns
