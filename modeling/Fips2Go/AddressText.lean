import Fips2Go.Ipv6Text

/-!
# Addresses read back

The reader of IP and socket addresses: octets in decimal without leading zeros,
segments of up to four hexadecimal digits, `::` once in place of zero segments,
and an IPv4 address as the last two segments.  What is displayed of an address
is read as that address.
-/

namespace AddressText

open Ipv6Text (Span decimal display extendSpans hexadecimal mappedIpv4 segments subslice zeroSpan)
open Utf8Text (Text addDigit fromStrRadix toDigit)

inductive IpAddr where
  | v4 (octets : FixedBytes 4)
  | v6 (octets : FixedBytes 16)
  deriving DecidableEq

/-- A socket address; an IPv4 address has no scope. -/
structure SocketAddr where
  ip : IpAddr
  scope : Nat
  port : Nat
  deriving DecidableEq

/-! ### Display -/

def displayIpv4 (octets : Bytes) : Text :=
  ['.'].intercalate (octets.map fun octet => decimal octet.toNat)

def IpAddr.display : IpAddr → Text
  | .v4 octets => displayIpv4 octets.1
  | .v6 octets => Ipv6Text.display octets

def SocketAddr.display (addr : SocketAddr) : Text :=
  match addr.ip with
  | .v4 octets => displayIpv4 octets.1 ++ ':' :: decimal addr.port
  | .v6 octets =>
      '[' :: Ipv6Text.display octets ++
        (if addr.scope = 0 then [] else '%' :: decimal addr.scope) ++
          ']' :: ':' :: decimal addr.port

/-! ### Reading -/

/-- What is read at the front of a text, and what is left of it. -/
abbrev Reader (α : Type) := Text → Option (α × Text)

def readGivenChar (char : Char) : Reader Unit
  | first :: rest => if first = char then some ((), rest) else none
  | [] => none

/-- `read_separator`: nothing separates the first from what is before it. -/
def readSeparator {α : Type} (separator : Char) (index : Nat) (inner : Reader α) : Reader α :=
  fun text =>
    if index = 0 then inner text
    else (readGivenChar separator text).bind fun (_, text) => inner text

def readNumber (radix bound : Nat) (maxDigits : Option Nat) (allowZeroPrefix : Bool) :
    Reader Nat := fun text =>
  let digits := text.takeWhile fun char => (toDigit radix char).isSome
  if maxDigits.any fun limit => limit < digits.length then none
  else if allowZeroPrefix = false ∧ digits.head? = some '0' ∧ 1 < digits.length then none
  else (fromStrRadix radix bound digits).map fun number => (number, text.drop digits.length)

def readOctet (index : Nat) : Reader UInt8 := fun text =>
  (readSeparator '.' index (readNumber 10 256 (some 3) false) text).map fun (octet, text) =>
    (UInt8.ofNat octet, text)

theorem length_ipv4 (a b c d : UInt8) : [a, b, c, d].length = 4 := rfl

def readIpv4Addr : Reader (FixedBytes 4) := fun text => do
  let (a, text) ← readOctet 0 text
  let (b, text) ← readOctet 1 text
  let (c, text) ← readOctet 2 text
  let (d, text) ← readOctet 3 text
  return (⟨[a, b, c, d], length_ipv4 a b c d⟩, text)

/-- `read_groups`, from a group on with so many left: the groups, whether the
last two are from an IPv4 address, and what is behind. -/
def readGroups : Nat → Nat → Text → (List UInt16 × Bool) × Text
  | _, 0, text => (([], false), text)
  | index, left + 1, text =>
      match if 0 < left then readSeparator ':' index readIpv4Addr text else none with
      | some (octets, text) => ((segments octets.1, true), text)
      | none =>
          match readSeparator ':' index (readNumber 16 65536 (some 4) true) text with
          | some (group, text) =>
              let ((groups, ipv4), text) := readGroups (index + 1) left text
              ((UInt16.ofNat group :: groups, ipv4), text)
          | none => (([], false), text)

/-- The octets of a full address of segments. -/
def ofSegments (segments : List UInt16) : Option (FixedBytes 16) :=
  let octets := segments.flatMap Bytes.toBe16
  if full : octets.length = 16 then some ⟨octets, full⟩ else none

def readIpv6Addr : Reader (FixedBytes 16) := fun text =>
  let ((head, headIpv4), behind) := readGroups 0 8 text
  if head.length = 8 then (ofSegments head).map fun addr => (addr, behind)
  else if headIpv4 then none
  else do
    let (_, text) ← readGivenChar ':' behind
    let (_, text) ← readGivenChar ':' text
    let ((tail, _), text) := readGroups 0 (8 - (head.length + 1)) text
    let addr ← ofSegments (head ++ List.replicate (8 - head.length - tail.length) 0 ++ tail)
    return (addr, text)

def readIpAddr : Reader IpAddr := fun text =>
  match readIpv4Addr text with
  | some (octets, text) => some (.v4 octets, text)
  | none => (readIpv6Addr text).map fun (octets, text) => (.v6 octets, text)

def readPort : Reader Nat := fun text => do
  let (_, text) ← readGivenChar ':' text
  readNumber 10 65536 none true text

def readScopeId : Reader Nat := fun text => do
  let (_, text) ← readGivenChar '%' text
  readNumber 10 (2 ^ 32) none true text

def readSocketAddrV4 : Reader SocketAddr := fun text => do
  let (octets, text) ← readIpv4Addr text
  let (port, text) ← readPort text
  return (⟨.v4 octets, 0, port⟩, text)

def readSocketAddrV6 : Reader SocketAddr := fun text => do
  let (_, text) ← readGivenChar '[' text
  let (octets, text) ← readIpv6Addr text
  let (scope, text) := (readScopeId text).getD (0, text)
  let (_, text) ← readGivenChar ']' text
  let (port, text) ← readPort text
  return (⟨.v6 octets, scope, port⟩, text)

def readSocketAddr : Reader SocketAddr := fun text =>
  (readSocketAddrV4 text).or (readSocketAddrV6 text)

/-- `parse_with`: the whole text. -/
def parseWith {α : Type} (inner : Reader α) (text : Text) : Option α :=
  match inner text with
  | some (value, []) => some value
  | _ => none

def parseIpAddr (text : Text) : Option IpAddr := parseWith readIpAddr text

def parseSocketAddr (text : Text) : Option SocketAddr := parseWith readSocketAddr text

example : parseSocketAddr "0.0.0.0:0".toList =
    some ⟨.v4 ⟨[0, 0, 0, 0], length_ipv4 0 0 0 0⟩, 0, 0⟩ := by decide +kernel

/-! ### Numerals -/

theorem toDigit_digitChar : ∀ radix ≤ 16, ∀ digit < radix,
    toDigit radix (Nat.digitChar digit) = some digit := by
  decide

/-- A numeral is read as its number. -/
theorem foldlM_toDigits {radix bound : Nat} (binary : 1 < radix) (small : radix ≤ 16)
    {number : Nat} (fits : number < bound) :
    (Nat.toDigits radix number).foldlM (addDigit radix bound) 0 = some number := by
  induction number using Nat.strongRecOn with
  | ind number ih =>
      by_cases single : number < radix
      · rw [Nat.toDigits_of_lt_base single, List.foldlM_cons, addDigit,
          toDigit_digitChar radix small number single]
        simp [fits]
      · have shorter : number / radix < number := Nat.div_lt_self (by omega) binary
        have last : number % radix < radix := Nat.mod_lt number (by omega)
        have whole : number / radix * radix + number % radix = number :=
          Nat.div_add_mod' number radix
        rw [Nat.toDigits_of_base_le binary (by omega), List.foldlM_append,
          ih (number / radix) shorter (by omega), Option.bind_eq_bind, Option.bind_some,
          List.foldlM_cons, addDigit,
          toDigit_digitChar radix small (number % radix) last]
        simp [whole, fits]

theorem isSome_toDigit_of_mem {radix : Nat} (binary : 1 < radix) (small : radix ≤ 16)
    {number : Nat} {char : Char} (member : char ∈ Nat.toDigits radix number) :
    (toDigit radix char).isSome = true := by
  induction number using Nat.strongRecOn with
  | ind number ih =>
      by_cases single : number < radix
      · rw [Nat.toDigits_of_lt_base single, List.mem_singleton] at member
        rw [member, toDigit_digitChar radix small number single]
        rfl
      · rw [Nat.toDigits_of_base_le binary (by omega)] at member
        rcases List.mem_append.mp member with front | last
        · exact ih (number / radix) (Nat.div_lt_self (by omega) binary) front
        · rw [List.mem_singleton] at last
          rw [last, toDigit_digitChar radix small _ (Nat.mod_lt number (by omega))]
          rfl

/-- A numeral has no leading zeros. -/
theorem head_toDigits {radix : Nat} (binary : 1 < radix) (small : radix ≤ 16) {number : Nat}
    (zero : (Nat.toDigits radix number).head? = some '0') : number = 0 := by
  induction number using Nat.strongRecOn with
  | ind number ih =>
      by_cases single : number < radix
      · rw [Nat.toDigits_of_lt_base single, List.head?_cons, Option.some.injEq] at zero
        have read := toDigit_digitChar radix small number single
        rw [zero] at read
        have known : toDigit radix '0' = some 0 := toDigit_digitChar radix small 0 (by omega)
        exact (Option.some.inj (known.symm.trans read)).symm
      · rw [Nat.toDigits_of_base_le binary (by omega),
          List.head?_append_of_ne_nil _ Nat.toDigits_ne_nil] at zero
        have none : number / radix = 0 :=
          ih (number / radix) (Nat.div_lt_self (by omega) binary) zero
        rcases Nat.div_eq_zero_iff.mp none with absurd | below
        · omega
        · exact absurd below single

theorem length_toDigits {radix : Nat} (binary : 1 < radix) (count : Nat) {number : Nat}
    (fits : number < radix ^ (count + 1)) : (Nat.toDigits radix number).length ≤ count + 1 := by
  induction count generalizing number with
  | zero =>
      rw [Nat.toDigits_of_lt_base (by simpa using fits)]
      exact Nat.le_refl 1
  | succ count ih =>
      by_cases single : number < radix
      · rw [Nat.toDigits_of_lt_base single, List.length_singleton]
        omega
      · rw [Nat.toDigits_of_base_le binary (by omega), List.length_append, List.length_singleton]
        have shorter : number / radix < radix ^ (count + 1) := by
          rw [Nat.div_lt_iff_lt_mul (by omega)]
          exact fits
        exact Nat.succ_le_succ (ih shorter)

/-- A text whose first character is no digit. -/
def EndsNumber (radix : Nat) (rest : Text) : Prop :=
  ∀ char ∈ rest.head?, toDigit radix char = none

theorem takeWhile_toDigits {radix : Nat} (binary : 1 < radix) (small : radix ≤ 16)
    (number : Nat) {rest : Text} (ends : EndsNumber radix rest) :
    (Nat.toDigits radix number ++ rest).takeWhile (fun char => (toDigit radix char).isSome) =
      Nat.toDigits radix number := by
  rw [List.takeWhile_append_of_pos fun char member => isSome_toDigit_of_mem binary small member]
  have none : rest.takeWhile (fun char => (toDigit radix char).isSome) = [] := by
    cases rest with
    | nil => rfl
    | cons char rest =>
        rw [List.takeWhile_cons_of_neg]
        rw [ends char rfl]
        exact Bool.false_ne_true
  rw [none, List.append_nil]

/-- A displayed number is read, and what is behind it is left. -/
theorem readNumber_toDigits {radix bound : Nat} (binary : 1 < radix) (small : radix ≤ 16)
    {maxDigits : Option Nat} {allowZeroPrefix : Bool} {number : Nat} {rest : Text}
    (fits : number < bound)
    (short : ∀ limit ∈ maxDigits, (Nat.toDigits radix number).length ≤ limit)
    (ends : EndsNumber radix rest) :
    readNumber radix bound maxDigits allowZeroPrefix (Nat.toDigits radix number ++ rest) =
      some (number, rest) := by
  have read : fromStrRadix radix bound (Nat.toDigits radix number) = some number := by
    have unsigned : (Nat.toDigits radix number).head? ≠ some '+' := by
      intro sign
      have digit := isSome_toDigit_of_mem binary small (List.mem_of_mem_head? sign)
      have known : ∀ radix ≤ 16, toDigit radix '+' = none := by decide
      rw [known radix small] at digit
      cases digit
    simp only [fromStrRadix, unsigned, if_false, Nat.toDigits_ne_nil]
    exact foldlM_toDigits binary small fits
  have allowed :
      (maxDigits.any fun limit => limit < (Nat.toDigits radix number).length) = false := by
    cases maxDigits with
    | none => rfl
    | some limit => simpa using short limit rfl
  have canonical : ¬(allowZeroPrefix = false ∧ (Nat.toDigits radix number).head? = some '0' ∧
      1 < (Nat.toDigits radix number).length) := by
    rintro ⟨-, zero, long⟩
    rw [head_toDigits binary small zero, Nat.toDigits_zero] at long
    exact absurd long (Nat.lt_irrefl 1)
  simp only [readNumber, takeWhile_toDigits binary small number ends]
  rw [if_neg (ne_true_of_eq_false allowed), if_neg canonical, read, Option.map_some, List.drop_left]

/-- Where no digit is, no number is read. -/
theorem readNumber_of_ends {radix bound : Nat} {maxDigits : Option Nat} {allowZeroPrefix : Bool}
    {text : Text} (ends : EndsNumber radix text) :
    readNumber radix bound maxDigits allowZeroPrefix text = none := by
  have none : text.takeWhile (fun char => (toDigit radix char).isSome) = [] := by
    cases text with
    | nil => rfl
    | cons char text =>
        rw [List.takeWhile_cons_of_neg]
        rw [ends char rfl]
        exact Bool.false_ne_true
  simp [readNumber, none, fromStrRadix]

@[simp] theorem endsNumber_nil (radix : Nat) : EndsNumber radix [] := by
  rintro char ⟨⟩

@[simp] theorem endsNumber_cons {radix : Nat} {char : Char} {rest : Text} :
    EndsNumber radix (char :: rest) ↔ toDigit radix char = none := by
  simp [EndsNumber]

/-! ### Read back -/

theorem endsNumber_ten {rest : Text} (ends : EndsNumber 16 rest) : EndsNumber 10 rest := by
  intro char first
  have none := ends char first
  unfold toDigit at none ⊢
  grind

theorem readNumber_suffix {radix bound : Nat} {maxDigits : Option Nat} {allowZeroPrefix : Bool}
    {text rest : Text} {number : Nat}
    (read : readNumber radix bound maxDigits allowZeroPrefix text = some (number, rest)) :
    rest <:+ text := by
  simp only [readNumber] at read
  split at read
  · cases read
  · split at read
    · cases read
    · obtain ⟨_, -, same⟩ := Option.map_eq_some_iff.mp read
      cases same
      exact List.drop_suffix _ _

/-- Without a dot there is no IPv4 address. -/
theorem readIpv4Addr_of_absent {text : Text} (absent : '.' ∉ text) :
    readIpv4Addr text = none := by
  unfold readIpv4Addr
  rw [Option.bind_eq_bind, Option.bind_eq_none_iff]
  rintro ⟨a, behind⟩ read
  obtain ⟨⟨octet, rest⟩, first, same⟩ := Option.map_eq_some_iff.mp read
  obtain rfl : rest = behind := congrArg Prod.snd same
  have plain : '.' ∉ rest := fun dot => absent ((readNumber_suffix first).subset dot)
  have unseparated : readOctet 1 rest = none := by
    cases rest with
    | nil => rfl
    | cons char rest =>
        have other : char ≠ '.' := fun same => plain (same ▸ List.mem_cons_self)
        simp [readOctet, readSeparator, readGivenChar, other]
  simp only [unseparated, Option.bind_none]

theorem readIpv4Addr_of_ends {text : Text} (ends : EndsNumber 10 text) :
    readIpv4Addr text = none := by
  simp [readIpv4Addr, readOctet, readSeparator, readNumber_of_ends ends]

theorem readNumber_octet (octet : UInt8) {rest : Text} (ends : EndsNumber 10 rest) :
    readNumber 10 256 (some 3) false (decimal octet.toNat ++ rest) = some (octet.toNat, rest) := by
  have bound := octet.toNat_lt
  refine readNumber_toDigits (by decide) (by decide) bound ?_ ends
  rintro limit ⟨⟩
  exact length_toDigits (by decide) 2 (by omega)

theorem readIpv4Addr_display (octets : FixedBytes 4) {rest : Text} (ends : EndsNumber 10 rest) :
    readIpv4Addr (displayIpv4 octets.1 ++ rest) = some (octets, rest) := by
  obtain ⟨octets, sized⟩ := octets
  obtain ⟨a, b, c, d, rfl⟩ : ∃ a b c d, octets = [a, b, c, d] := by
    match octets, sized with
    | [a, b, c, d], _ => exact ⟨a, b, c, d, rfl⟩
  have dotted (rest : Text) : EndsNumber 10 ('.' :: rest) := endsNumber_cons.mpr (by decide)
  have text : displayIpv4 [a, b, c, d] ++ rest = decimal a.toNat ++ ('.' :: (decimal b.toNat ++
      ('.' :: (decimal c.toNat ++ ('.' :: (decimal d.toNat ++ rest)))))) := by
    simp [displayIpv4, List.intercalate, List.intersperse]
  simp [text, readIpv4Addr, readOctet, readSeparator, readGivenChar, readNumber_octet, dotted, ends]

/-- What may be behind an IPv6 address: it neither goes on nor ends in IPv4. -/
structure Behind (rest : Text) : Prop where
  ends : EndsNumber 16 rest
  stops : ∀ tail, rest = ':' :: tail → EndsNumber 16 tail
  plain : '.' ∉ rest

theorem readNumber_segment (segment : UInt16) {rest : Text} (ends : EndsNumber 16 rest) :
    readNumber 16 65536 (some 4) true (hexadecimal segment.toNat ++ rest) =
      some (segment.toNat, rest) := by
  have bound := segment.toNat_lt
  refine readNumber_toDigits (by decide) (by decide) bound ?_ ends
  rintro limit ⟨⟩
  exact length_toDigits (by decide) 3 (by omega)

/-- Segments behind another one. -/
def following (segments : List UInt16) : Text :=
  segments.flatMap fun segment => ':' :: hexadecimal segment.toNat

theorem subslice_cons (segment : UInt16) (segments : List UInt16) :
    subslice (segment :: segments) = hexadecimal segment.toNat ++ following segments := by
  induction segments generalizing segment with
  | nil => simp [subslice, following, List.intercalate]
  | cons next segments ih =>
      have rest := ih next
      simp only [subslice, List.map_cons, List.intercalate_cons_cons] at rest ⊢
      rw [rest]
      simp [following]

theorem ends_following {segments : List UInt16} {rest : Text} (ends : EndsNumber 16 rest) :
    EndsNumber 16 (following segments ++ rest) := by
  cases segments with
  | nil => exact ends
  | cons segment segments => exact endsNumber_cons.mpr (by decide)

theorem not_mem_toDigits_dot {number : Nat} : '.' ∉ hexadecimal number := by
  intro dot
  have digit := isSome_toDigit_of_mem (by decide) (by decide) dot
  cases digit

theorem not_mem_following {segments : List UInt16} {rest : Text} (plain : '.' ∉ rest) :
    '.' ∉ following segments ++ rest := by
  simp [following, not_mem_toDigits_dot, plain]

theorem readGroups_following (segments : List UInt16) {rest : Text} (behind : Behind rest)
    (index : Nat) {left : Nat} (room : segments.length ≤ left) :
    readGroups (index + 1) left (following segments ++ rest) = ((segments, false), rest) := by
  induction segments generalizing index left with
  | nil =>
      cases left with
      | zero => rfl
      | succ left =>
          change readGroups (index + 1) (left + 1) rest = _
          have noIpv4 : readSeparator ':' (index + 1) readIpv4Addr rest = none := by
            cases rest with
            | nil => rfl
            | cons char rest =>
                have plain : '.' ∉ rest := fun dot => behind.plain (List.mem_cons_of_mem char dot)
                by_cases colon : char = ':'
                · simp [readSeparator, readGivenChar, colon, readIpv4Addr_of_absent plain]
                · simp [readSeparator, readGivenChar, colon]
          have noGroup : readSeparator ':' (index + 1) (readNumber 16 65536 (some 4) true) rest =
              none := by
            cases rest with
            | nil => rfl
            | cons char rest =>
                by_cases colon : char = ':'
                · have ends := behind.stops rest (by rw [colon])
                  simp [readSeparator, readGivenChar, colon, readNumber_of_ends ends]
                · simp [readSeparator, readGivenChar, colon]
          rw [readGroups, noIpv4, noGroup, ite_self]
  | cons segment segments ih =>
      cases left with
      | zero => cases room
      | succ left =>
          have text : following (segment :: segments) ++ rest =
              ':' :: (hexadecimal segment.toNat ++ (following segments ++ rest)) := by
            simp [following]
          have plain : '.' ∉ hexadecimal segment.toNat ++ (following segments ++ rest) := by
            rw [List.mem_append, not_or]
            exact ⟨not_mem_toDigits_dot, not_mem_following behind.plain⟩
          have noIpv4 : readSeparator ':' (index + 1) readIpv4Addr
              (':' :: (hexadecimal segment.toNat ++ (following segments ++ rest))) = none := by
            simp [readSeparator, readGivenChar, readIpv4Addr_of_absent plain]
          have group : readSeparator ':' (index + 1) (readNumber 16 65536 (some 4) true)
              (':' :: (hexadecimal segment.toNat ++ (following segments ++ rest))) =
                some (segment.toNat, following segments ++ rest) := by
            simp [readSeparator, readGivenChar,
              readNumber_segment segment (ends_following behind.ends)]
          rw [text, readGroups, noIpv4, group, ite_self]
          simp [ih (index + 1) (Nat.le_of_succ_le_succ room)]

/-- Displayed segments are read, up to what is behind them. -/
theorem readGroups_subslice (segments : List UInt16) (left : Nat) {rest : Text}
    (behind : Behind rest) (room : segments.length ≤ left) :
    readGroups 0 left (subslice segments ++ rest) = ((segments, false), rest) := by
  cases segments with
  | nil =>
      cases left with
      | zero => rfl
      | succ left =>
          change readGroups 0 (left + 1) rest = _
          simp [readGroups, readSeparator, readIpv4Addr_of_absent behind.plain,
            readNumber_of_ends behind.ends]
  | cons segment segments =>
      cases left with
      | zero => cases room
      | succ left =>
          have plain : '.' ∉ hexadecimal segment.toNat ++ (following segments ++ rest) := by
            rw [List.mem_append, not_or]
            exact ⟨not_mem_toDigits_dot, not_mem_following behind.plain⟩
          have later := readGroups_following segments behind 0
            (Nat.le_of_succ_le_succ room)
          rw [subslice_cons, List.append_assoc, readGroups]
          simp [readSeparator, readIpv4Addr_of_absent plain,
            readNumber_segment segment (ends_following behind.ends), later]

/-! ### The zero segments left out -/

/-- A span of zeros among these segments. -/
def IsZeroes (segments : List UInt16) (span : Span) : Prop :=
  (segments.drop span.start).take span.len = List.replicate span.len 0

/-- What holds of the longest span so far and the current one. -/
structure Spans (done : List UInt16) (spans : Span × Span) : Prop where
  longest : IsZeroes done spans.1
  current : IsZeroes done spans.2
  atEnd : spans.2.len ≠ 0 → spans.2.start + spans.2.len = done.length

theorem IsZeroes.append {done : List UInt16} {span : Span} (zeroes : IsZeroes done span)
    (more : List UInt16) : IsZeroes (done ++ more) span := by
  by_cases none : span.len = 0
  · simp [IsZeroes, none]
  · have whole : span.len ≤ (done.drop span.start).length := by
      have sized := congrArg List.length zeroes
      rw [List.length_take, List.length_replicate] at sized
      omega
    have inside : span.start ≤ done.length := by
      rw [List.length_drop] at whole
      omega
    rw [IsZeroes, List.drop_append_of_le_length inside, List.take_append_of_le_length whole]
    exact zeroes

theorem isZeroes_of_len {segments : List UInt16} {span : Span} (none : span.len = 0) :
    IsZeroes segments span := by
  simp [IsZeroes, none]

theorem Spans.extend {done : List UInt16} {spans : Span × Span} (holds : Spans done spans)
    (segment : UInt16) :
    Spans (done ++ [segment]) (extendSpans spans (segment, done.length)) := by
  by_cases zero : segment = 0
  · subst zero
    have current : IsZeroes (done ++ [0])
        { start := if spans.2.len = 0 then done.length else spans.2.start
          len := spans.2.len + 1 } := by
      by_cases first : spans.2.len = 0
      · simp [IsZeroes, first]
      · have place := holds.atEnd first
        have zeroes := holds.current
        have inside : spans.2.start ≤ done.length := by omega
        have all : done.drop spans.2.start = List.replicate spans.2.len 0 := by
          rw [← zeroes, List.take_of_length_le]
          rw [List.length_drop]
          omega
        simp only [IsZeroes, if_neg first]
        rw [List.drop_append_of_le_length inside, all, ← List.replicate_succ',
          List.take_of_length_le (by simp)]
    have place : (if spans.2.len = 0 then done.length else spans.2.start) + (spans.2.len + 1) =
        (done ++ [(0 : UInt16)]).length := by
      rw [List.length_append, List.length_singleton]
      by_cases first : spans.2.len = 0
      · rw [if_pos first, first]
      · have place := holds.atEnd first
        rw [if_neg first]
        omega
    simp only [extendSpans, if_true]
    refine ⟨?_, current, fun _ => place⟩
    split
    · exact current
    · exact holds.longest.append [0]
  · simp only [extendSpans, if_neg zero]
    exact ⟨holds.longest.append [segment], isZeroes_of_len rfl, fun some => absurd rfl some⟩

theorem Spans.foldl {done : List UInt16} {spans : Span × Span} (holds : Spans done spans)
    (rest : List UInt16) :
    Spans (done ++ rest) ((rest.zipIdx done.length).foldl extendSpans spans) := by
  induction rest generalizing done spans with
  | nil => simpa using holds
  | cons segment rest ih =>
      have later := ih (holds.extend segment)
      rw [List.length_append, List.length_singleton, List.append_assoc] at later
      exact later

/-- What the display leaves out are zeros. -/
theorem isZeroes_zeroSpan (segments : List UInt16) : IsZeroes segments (zeroSpan segments) := by
  have start : Spans [] (⟨0, 0⟩, ⟨0, 0⟩) :=
    ⟨isZeroes_of_len rfl, isZeroes_of_len rfl, fun some => absurd rfl some⟩
  exact (start.foldl segments).longest

theorem split_zeroSpan (segments : List UInt16) :
    segments = segments.take (zeroSpan segments).start ++
      List.replicate (zeroSpan segments).len 0 ++
        segments.drop ((zeroSpan segments).start + (zeroSpan segments).len) := by
  rw [← isZeroes_zeroSpan segments, List.append_assoc, ← List.drop_drop, List.take_append_drop,
    List.take_append_drop]

/-! ### IPv6 addresses -/

theorem flatMap_segments : ∀ octets : Bytes, octets.length % 2 = 0 →
    (segments octets).flatMap Bytes.toBe16 = octets
  | [], _ => rfl
  | [_], odd => by cases odd
  | high :: low :: octets, even => by
      have shorter : octets.length % 2 = 0 := by
        rw [List.length_cons, List.length_cons] at even
        omega
      have rest := flatMap_segments octets shorter
      rw [segments, List.flatMap_cons, Bytes.toBe16_be16, rest]
      rfl

theorem length_segments : ∀ octets : Bytes, (segments octets).length = octets.length / 2
  | [] => rfl
  | [_] => by simp [segments]
  | high :: low :: octets => by
      rw [segments, List.length_cons, length_segments octets, List.length_cons, List.length_cons]
      omega

theorem ofSegments_of_flatMap {parts : List UInt16} {address : FixedBytes 16}
    (octets : parts.flatMap Bytes.toBe16 = address.1) : ofSegments parts = some address := by
  rw [ofSegments]
  simp only [octets]
  rw [dif_pos address.2]

theorem readIpv6Addr_segments {address : FixedBytes 16} {rest : Text} (behind : Behind rest) :
    readIpv6Addr (subslice (segments address.1) ++ rest) = some (address, rest) := by
  have full : (segments address.1).length = 8 := by rw [length_segments, address.2]
  have read := readGroups_subslice (segments address.1) 8 behind full.le
  have all := ofSegments_of_flatMap (flatMap_segments address.1 (by rw [address.2]))
  simp [readIpv6Addr, read, full, all]

theorem behind_colons {rest : Text} (plain : '.' ∉ rest) : Behind (':' :: ':' :: rest) where
  ends := endsNumber_cons.mpr (by decide)
  stops := by
    rintro tail ⟨⟩
    exact endsNumber_cons.mpr (by decide)
  plain := by simpa using plain

theorem not_mem_subslice (segments : List UInt16) {rest : Text} (plain : '.' ∉ rest) :
    '.' ∉ subslice segments ++ rest := by
  cases segments with
  | nil => exact plain
  | cons segment segments =>
      rw [subslice_cons, List.append_assoc, List.mem_append, not_or]
      exact ⟨not_mem_toDigits_dot, not_mem_following plain⟩

/-- Segments on both sides of `::`. -/
theorem readIpv6Addr_colons {text behind rest : Text} {head tail : List UInt16} {ipv4 : Bool}
    {address : FixedBytes 16} (short : head.length ≠ 8)
    (front : readGroups 0 8 text = ((head, false), ':' :: ':' :: behind))
    (back : readGroups 0 (8 - (head.length + 1)) behind = ((tail, ipv4), rest))
    (all : ofSegments (head ++ List.replicate (8 - head.length - tail.length) 0 ++ tail) =
      some address) :
    readIpv6Addr text = some (address, rest) := by
  simp only [readIpv6Addr, front, if_neg short, Bool.false_eq_true, if_false, readGivenChar,
    if_true, Option.bind_eq_bind, Option.bind_some, back, all]
  rfl

/-- Segments around zeros that are left out. -/
theorem readIpv6Addr_compressed {address : FixedBytes 16} {head tail : List UInt16} {zeroes : Nat}
    (parts : segments address.1 = head ++ List.replicate zeroes 0 ++ tail) (left : 1 < zeroes)
    {rest : Text} (behind : Behind rest) :
    readIpv6Addr (subslice head ++ "::".toList ++ subslice tail ++ rest) =
      some (address, rest) := by
  have full : head.length + zeroes + tail.length = 8 := by
    have full : (segments address.1).length = 8 := by rw [length_segments, address.2]
    rwa [parts, List.length_append, List.length_append, List.length_replicate] at full
  have text : subslice head ++ "::".toList ++ subslice tail ++ rest =
      subslice head ++ (':' :: ':' :: (subslice tail ++ rest)) := by
    simp
  have front := readGroups_subslice head 8
    (behind_colons (not_mem_subslice tail behind.plain)) (by omega)
  have back := readGroups_subslice tail (8 - (head.length + 1)) behind (by omega)
  have short : head.length ≠ 8 := by omega
  have gap : 8 - head.length - tail.length = zeroes := by omega
  have all := ofSegments_of_flatMap (flatMap_segments address.1 (by rw [address.2]))
  rw [parts, ← gap] at all
  rw [text]
  exact readIpv6Addr_colons short front back all

/-- An address that maps an IPv4 one. -/
theorem readIpv6Addr_mapped {address : FixedBytes 16} {octets : FixedBytes 4}
    (mapped : address.1 = List.replicate 10 0 ++ [0xff, 0xff] ++ octets.1) {rest : Text}
    (behind : Behind rest) :
    readIpv6Addr ("::ffff:".toList ++ displayIpv4 octets.1 ++ rest) = some (address, rest) := by
  have text : "::ffff:".toList ++ displayIpv4 octets.1 ++ rest = ':' :: ':' ::
      (hexadecimal (0xffff : UInt16).toNat ++ (':' :: (displayIpv4 octets.1 ++ rest))) := by
    rw [show hexadecimal (0xffff : UInt16).toNat = "ffff".toList by decide]
    simp
  have colon (rest : Text) : EndsNumber 16 (':' :: rest) := endsNumber_cons.mpr (by decide)
  have front (rest : Text) : readGroups 0 8 (':' :: rest) = (([], false), ':' :: rest) := by
    simp [readGroups, readSeparator, readIpv4Addr_of_ends (endsNumber_ten (colon rest)),
      readNumber_of_ends (colon rest)]
  have noIpv4 : readIpv4Addr (hexadecimal (0xffff : UInt16).toNat ++
      (':' :: (displayIpv4 octets.1 ++ rest))) = none :=
    readIpv4Addr_of_ends (endsNumber_cons.mpr (by decide))
  have back : readGroups 0 7 (hexadecimal (0xffff : UInt16).toNat ++
      (':' :: (displayIpv4 octets.1 ++ rest))) =
        ((0xffff :: segments octets.1, true), rest) := by
    rw [readGroups]
    simp only [readSeparator, if_true, noIpv4, readNumber_segment _ (colon _)]
    simp [readGroups, readSeparator, readGivenChar,
      readIpv4Addr_display octets (endsNumber_ten behind.ends)]
  have two : (segments octets.1).length = 2 := by rw [length_segments, octets.2]
  have all : ofSegments ([] ++ List.replicate (8 - 0 - (0xffff :: segments octets.1).length) 0 ++
      0xffff :: segments octets.1) = some address := by
    refine ofSegments_of_flatMap ?_
    rw [List.length_cons, two, List.flatMap_append, List.flatMap_cons,
      flatMap_segments octets.1 (by rw [octets.2]), mapped]
    rfl
  rw [text]
  exact readIpv6Addr_colons (by decide) (front _) back all

theorem display_cases (address : FixedBytes 16) :
    (∃ octets : FixedBytes 4, address.1 = List.replicate 10 0 ++ [0xff, 0xff] ++ octets.1 ∧
        display address = "::ffff:".toList ++ displayIpv4 octets.1) ∨
      (∃ head tail zeroes, segments address.1 = head ++ List.replicate zeroes 0 ++ tail ∧
        1 < zeroes ∧ display address = subslice head ++ "::".toList ++ subslice tail) ∨
      display address = subslice (segments address.1) := by
  by_cases mapped : address.1.take 12 = List.replicate 10 0 ++ [0xff, 0xff]
  · have sized : (address.1.drop 12).length = 4 := by rw [List.length_drop, address.2]
    refine Or.inl ⟨⟨address.1.drop 12, sized⟩, ?_, ?_⟩
    · rw [← mapped, List.take_append_drop]
    · rw [display, mappedIpv4, if_pos mapped]
      rfl
  · rw [display, mappedIpv4, if_neg mapped]
    right
    by_cases long : 1 < (zeroSpan (segments address.1)).len
    · exact Or.inl ⟨_, _, _, split_zeroSpan (segments address.1), long, if_pos long⟩
    · exact Or.inr (if_neg long)

/-- A displayed IPv6 address is read. -/
theorem readIpv6Addr_display (address : FixedBytes 16) {rest : Text} (behind : Behind rest) :
    readIpv6Addr (display address ++ rest) = some (address, rest) := by
  obtain ⟨octets, mapped, text⟩ | ⟨head, tail, zeroes, parts, left, text⟩ | text :=
    display_cases address
  · rw [text]
    exact readIpv6Addr_mapped mapped behind
  · rw [text]
    exact readIpv6Addr_compressed parts left behind
  · rw [text]
    exact readIpv6Addr_segments behind

/-- A displayed IPv6 address is not read as an IPv4 one. -/
theorem readIpv4Addr_ipv6 (address : FixedBytes 16) : readIpv4Addr (display address) = none := by
  obtain ⟨octets, -, text⟩ | ⟨head, tail, zeroes, -, -, text⟩ | text := display_cases address
  · rw [text]
    exact readIpv4Addr_of_ends (endsNumber_cons.mpr (by decide))
  · refine readIpv4Addr_of_absent ?_
    have plain : '.' ∉ "::".toList ++ subslice tail := by
      have back := not_mem_subslice tail List.not_mem_nil
      rw [List.append_nil] at back
      simpa using back
    rw [text, List.append_assoc]
    exact not_mem_subslice head plain
  · refine readIpv4Addr_of_absent ?_
    have plain := not_mem_subslice (segments address.1) List.not_mem_nil
    rwa [List.append_nil, ← text] at plain

theorem behind_nil : Behind [] where
  ends := endsNumber_nil 16
  stops := by rintro tail ⟨⟩
  plain := List.not_mem_nil

/-! ### Whole texts -/

theorem parseIpAddr_display (addr : IpAddr) : parseIpAddr addr.display = some addr := by
  cases addr with
  | v4 octets =>
      have read := readIpv4Addr_display octets (endsNumber_nil 10)
      rw [List.append_nil] at read
      simp [parseIpAddr, parseWith, readIpAddr, IpAddr.display, read]
  | v6 octets =>
      have read := readIpv6Addr_display octets behind_nil
      rw [List.append_nil] at read
      simp [parseIpAddr, parseWith, readIpAddr, IpAddr.display, read, readIpv4Addr_ipv6]

theorem readPort_display {port : Nat} (fits : port < 65536) :
    readPort (':' :: decimal port) = some (port, []) := by
  have read : readNumber 10 65536 none true (Nat.toDigits 10 port ++ []) = some (port, []) :=
    readNumber_toDigits (by decide) (by decide) fits (by rintro limit ⟨⟩) (endsNumber_nil 10)
  rw [List.append_nil] at read
  simp [readPort, readGivenChar, decimal, read]

theorem behind_bracket {rest : Text} (plain : '.' ∉ rest) : Behind (']' :: rest) where
  ends := endsNumber_cons.mpr (by decide)
  stops := by rintro tail ⟨⟩
  plain := by simpa using plain

theorem not_mem_port (port : Nat) : '.' ∉ ':' :: decimal port := by
  have digits : '.' ∉ decimal port := by
    intro dot
    have digit := Ipv6Text.isDigit_of_mem_decimal dot
    cases digit
  simpa using digits

/-- A displayed socket address without a scope is read. -/
theorem parseSocketAddr_display (ip : IpAddr) {port : Nat} (fits : port < 65536) :
    parseSocketAddr (SocketAddr.display ⟨ip, 0, port⟩) = some ⟨ip, 0, port⟩ := by
  cases ip with
  | v4 octets =>
      have ends : EndsNumber 10 (':' :: decimal port) := endsNumber_cons.mpr (by decide)
      have read := readIpv4Addr_display octets ends
      simp [parseSocketAddr, parseWith, readSocketAddr, readSocketAddrV4, SocketAddr.display, read,
        readPort_display fits]
  | v6 octets =>
      have read := readIpv6Addr_display octets (behind_bracket (not_mem_port port))
      have noIpv4 : readSocketAddrV4 ('[' :: (display octets ++ ']' :: ':' :: decimal port)) =
          none := by
        rw [readSocketAddrV4, readIpv4Addr_of_ends (endsNumber_cons.mpr (by decide))]
        rfl
      simp [parseSocketAddr, parseWith, readSocketAddr, noIpv4, readSocketAddrV6, readGivenChar,
        SocketAddr.display, read, readScopeId, readPort_display fits]

theorem foldlM_addDigit_lt {radix bound : Nat} {digits : Text} (nonempty : digits ≠ [])
    {start number : Nat}
    (read : digits.foldlM (addDigit radix bound) start = some number) : number < bound := by
  induction digits generalizing start with
  | nil => exact absurd rfl nonempty
  | cons char digits ih =>
      rw [List.foldlM_cons] at read
      obtain ⟨next, added, rest⟩ := Option.bind_eq_some_iff.mp read
      by_cases last : digits = []
      · subst last
        cases rest
        obtain ⟨digit, -, fits⟩ := Option.bind_eq_some_iff.mp added
        obtain ⟨fits, same⟩ := Option.ite_none_right_eq_some.mp fits
        exact Option.some.inj same ▸ fits
      · exact ih last rest

theorem readNumber_lt {radix bound : Nat} {maxDigits : Option Nat} {allowZeroPrefix : Bool}
    {text rest : Text} {number : Nat}
    (read : readNumber radix bound maxDigits allowZeroPrefix text = some (number, rest)) :
    number < bound := by
  simp only [readNumber] at read
  split at read
  · cases read
  · split at read
    · cases read
    · obtain ⟨_, value, same⟩ := Option.map_eq_some_iff.mp read
      cases same
      unfold fromStrRadix at value
      dsimp only at value
      obtain ⟨nonempty, value⟩ := Option.ite_none_left_eq_some.mp value
      exact foldlM_addDigit_lt nonempty value

/-- The port that is read is one. -/
theorem port_of_parseSocketAddr {text : Text} {addr : SocketAddr}
    (parsed : parseSocketAddr text = some addr) : addr.port < 65536 := by
  unfold parseSocketAddr parseWith at parsed
  split at parsed
  next value read =>
    cases parsed
    have port {text : Text} {port : Nat} {rest : Text} (read : readPort text = some (port, rest)) :
        port < 65536 := by
      obtain ⟨⟨_, digits⟩, -, number⟩ := Option.bind_eq_some_iff.mp read
      exact readNumber_lt number
    rcases Option.or_eq_some_iff.mp read with read | ⟨-, read⟩
    · obtain ⟨⟨octets, behind⟩, -, read⟩ := Option.bind_eq_some_iff.mp read
      obtain ⟨⟨number, rest⟩, number?, same⟩ := Option.bind_eq_some_iff.mp read
      cases same
      exact port number?
    · obtain ⟨⟨_, front⟩, -, read⟩ := Option.bind_eq_some_iff.mp read
      obtain ⟨⟨octets, behind⟩, -, read⟩ := Option.bind_eq_some_iff.mp read
      obtain ⟨⟨_, last⟩, -, read⟩ := Option.bind_eq_some_iff.mp read
      obtain ⟨⟨number, rest⟩, number?, same⟩ := Option.bind_eq_some_iff.mp read
      cases same
      exact port number?
  next => cases parsed

end AddressText
