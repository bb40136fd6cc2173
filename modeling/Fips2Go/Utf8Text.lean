import Fips2Go.ByteStrings
import Mathlib.Data.List.DropRight
import Mathlib.Data.List.Infix
import Mathlib.Tactic.IntervalCases

/-!
# Texts in UTF-8

Texts are lists of characters.  This file has their octets, the strict and the
lossy reading of octets, and the operations of a Rust `str` that a line-based
protocol is read with.
-/

namespace Utf8Text

abbrev Text := List Char

/-- The octets of a text. -/
def encode (text : Text) : Bytes := text.flatMap String.utf8EncodeChar

/-- `str::from_utf8`. -/
def fromUtf8 (bytes : Bytes) : Option Text := bytes.toByteArray.utf8Decode?.map Array.toList

@[simp] theorem encode_nil : encode [] = [] := rfl

theorem encode_cons (char : Char) (text : Text) :
    encode (char :: text) = String.utf8EncodeChar char ++ encode text := rfl

@[simp] theorem encode_append (first second : Text) :
    encode (first ++ second) = encode first ++ encode second := by
  simp [encode]

theorem encode_eq_nil_iff {text : Text} : encode text = [] ↔ text = [] := by
  cases text with
  | nil => simp
  | cons char text =>
      have size := char.utf8Size_pos
      rw [← String.length_utf8EncodeChar, List.length_pos_iff] at size
      simp [encode_cons, size]

theorem fromUtf8_encode (text : Text) : fromUtf8 (encode text) = some text := by
  have whole : (encode text).toByteArray = text.utf8Encode := rfl
  rw [fromUtf8, whole, List.utf8Decode?_utf8Encode]
  rfl

/-- What is read as a text is the octets of that text. -/
theorem fromUtf8_eq_some_iff {bytes : Bytes} {text : Text} :
    fromUtf8 bytes = some text ↔ encode text = bytes := by
  constructor
  · intro read
    have valid : bytes.toByteArray.utf8Decode?.isSome = true := by
      rw [fromUtf8, Option.map_eq_some_iff] at read
      obtain ⟨chars, decoded, -⟩ := read
      rw [decoded, Option.isSome_some]
    obtain ⟨other, octets⟩ := ByteArray.isSome_utf8Decode?_iff.mp valid
    have same : bytes = encode other := by
      have lists := congrArg (fun array => array.data.toList) octets
      simpa [List.utf8Encode, encode] using lists
    rw [same, fromUtf8_encode, Option.some.injEq] at read
    rw [same, read]
  · rintro rfl
    exact fromUtf8_encode text

/-! ### The lossy reading -/

def isContinuation (octet : UInt8) : Bool := 0x80 ≤ octet ∧ octet ≤ 0xbf

/-- How many octets a character has that begins with this one; none begins with
an octet that has none. -/
def width (first : UInt8) : Nat :=
  if first ≤ 0x7f then 1
  else if 0xc2 ≤ first ∧ first ≤ 0xdf then 2
  else if 0xe0 ≤ first ∧ first ≤ 0xef then 3
  else if 0xf0 ≤ first ∧ first ≤ 0xf4 then 4
  else 0

/-- Whether the second octet can follow the first. -/
def follows (first second : UInt8) : Bool :=
  if first = 0xe0 then 0xa0 ≤ second ∧ second ≤ 0xbf
  else if first = 0xed then 0x80 ≤ second ∧ second ≤ 0x9f
  else if first = 0xf0 then 0x90 ≤ second ∧ second ≤ 0xbf
  else if first = 0xf4 then 0x80 ≤ second ∧ second ≤ 0x8f
  else isContinuation second

/-- The octets behind the first that continue its character. -/
def continuing (first : UInt8) : Bytes → Bytes
  | [] => []
  | second :: rest =>
      if 2 ≤ width first ∧ follows first second then
        second :: (rest.take (width first - 2)).takeWhile isContinuation
      else []

def assemble (first : UInt8) (more : Bytes) : Char :=
  Char.ofNat <| more.foldl (fun code octet => code * 64 + octet.toNat % 64)
    (if more = [] then first.toNat else first.toNat % 2 ^ (6 - more.length))

/-- The character at the front, or U+FFFD for the longest beginning of one that is
there, and how many octets it takes behind the first. -/
def front (first : UInt8) (rest : Bytes) : Char × Nat :=
  let more := continuing first rest
  (if more.length + 1 = width first then assemble first more else '\uFFFD', more.length)

/-- The reading of what follows the octets that are taken already. -/
def lossyAfter : Nat → Bytes → Text
  | _, [] => []
  | taken + 1, _ :: rest => lossyAfter taken rest
  | 0, first :: rest =>
      let (char, more) := front first rest
      char :: lossyAfter more rest

/-- `String::from_utf8_lossy`. -/
def fromUtf8Lossy (bytes : Bytes) : Text := lossyAfter 0 bytes

/-! ### Operations of a `str` -/

/-- `char::is_whitespace`. -/
def isWhitespace (char : Char) : Bool :=
  let code := char.toNat
  (0x09 ≤ code ∧ code ≤ 0x0d) ∨ code = 0x20 ∨ code = 0x85 ∨ code = 0xa0 ∨ code = 0x1680 ∨
    (0x2000 ≤ code ∧ code ≤ 0x200a) ∨ code = 0x2028 ∨ code = 0x2029 ∨ code = 0x202f ∨
    code = 0x205f ∨ code = 0x3000

def trim (text : Text) : Text := (text.dropWhile isWhitespace).rdropWhile isWhitespace

/-- `trim_end_matches`. -/
def trimEndMatches (char : Char) (text : Text) : Text := text.rdropWhile (· == char)

/-- `to_ascii_lowercase`. -/
def toAsciiLowercase (text : Text) : Text := text.map Char.toLower

/-- `eq_ignore_ascii_case`. -/
def eqIgnoreAsciiCase (first second : Text) : Bool :=
  toAsciiLowercase first = toAsciiLowercase second

/-- `split_once`. -/
def splitOnce (char : Char) (text : Text) : Option (Text × Text) :=
  if char ∈ text then
    some (text.takeWhile (· ≠ char), (text.dropWhile (· ≠ char)).tail)
  else none

/-- `rsplit_once`. -/
def rsplitOnce (char : Char) (text : Text) : Option (Text × Text) :=
  if char ∈ text then
    some ((text.rdropWhile (· ≠ char)).dropLast, text.rtakeWhile (· ≠ char))
  else none

/-- The first of the fields of `split`. -/
def firstField (char : Char) (text : Text) : Text := text.takeWhile (· ≠ char)

/-- `split_inclusive('\n')`. -/
def splitInclusive : Text → List Text
  | [] => []
  | char :: rest =>
      if char = '\n' then [char] :: splitInclusive rest
      else
        match splitInclusive rest with
        | [] => [[char]]
        | line :: more => (char :: line) :: more

/-- A line without the line break that ends it. -/
def stripLineBreak (line : Text) : Text :=
  match line.dropSuffix? ['\n'] with
  | none => line
  | some line => (line.dropSuffix? ['\r']).getD line

/-- `lines`. -/
def lines (text : Text) : List Text := (splitInclusive text).map stripLineBreak

/-- What is before and behind so many octets, if that is between two characters. -/
def splitAtOctet : Nat → Text → Option (Text × Text)
  | 0, text => some ([], text)
  | _ + 1, [] => none
  | offset + 1, char :: rest =>
      if char.utf8Size ≤ offset + 1 then
        (splitAtOctet (offset + 1 - char.utf8Size) rest).map fun (before, behind) =>
          (char :: before, behind)
      else none

/-- `get(first..last)`. -/
def getBetween (text : Text) (first last : Nat) : Option Text := do
  let (_, behind) ← splitAtOctet first text
  let (between, _) ← splitAtOctet (last - first) behind
  return between

/-- `char::to_digit`. -/
def toDigit (radix : Nat) (char : Char) : Option Nat :=
  let digit :=
    if '0' ≤ char ∧ char ≤ '9' then char.toNat - '0'.toNat
    else if 'a' ≤ char ∧ char ≤ 'z' then char.toNat - 'a'.toNat + 10
    else if 'A' ≤ char ∧ char ≤ 'Z' then char.toNat - 'A'.toNat + 10
    else radix
  if digit < radix then some digit else none

/-- One more digit of an unsigned number that has to stay below the bound. -/
def addDigit (radix bound value : Nat) (char : Char) : Option Nat := do
  let digit ← toDigit radix char
  if value * radix + digit < bound then some (value * radix + digit) else none

theorem mem_intercalate_of_mem {separator text : Text} {texts : List Text} {char : Char}
    (inside : char ∈ text) (member : text ∈ texts) : char ∈ separator.intercalate texts := by
  induction texts with
  | nil => simp at member
  | cons first texts ih =>
      cases texts with
      | nil => simpa [List.mem_singleton.mp member] using inside
      | cons next texts =>
          rw [List.intercalate_cons_cons]
          rcases List.mem_cons.mp member with rfl | later
          · exact List.mem_append_left _ (List.mem_append_left _ inside)
          · exact List.mem_append_right _ (ih later)

/-- `from_str_radix` of an unsigned type, and `parse` with radix 10. -/
def fromStrRadix (radix bound : Nat) (text : Text) : Option Nat :=
  let digits := if text.head? = some '+' then text.tail else text
  if digits = [] then none else digits.foldlM (addDigit radix bound) 0

/-! ### Numerals -/

theorem le_foldl_digits {radix : Nat} (positive : 0 < radix) (digits : List Nat) (value : Nat) :
    value ≤ digits.foldl (fun value digit => value * radix + digit) value := by
  induction digits generalizing value with
  | nil => exact Nat.le_refl _
  | cons digit digits ih =>
      have grown := Nat.le_mul_of_pos_right value positive
      exact (by omega : value ≤ value * radix + digit).trans (ih _)

/-- Digits whose value stays below the bound are added up. -/
theorem foldlM_addDigit {radix bound : Nat} (positive : 0 < radix) {text : Text}
    {digits : List Nat} (read : text.map (toDigit radix) = digits.map some) {value : Nat}
    (fits : digits.foldl (fun value digit => value * radix + digit) value < bound) :
    text.foldlM (addDigit radix bound) value =
      some (digits.foldl (fun value digit => value * radix + digit) value) := by
  induction text generalizing digits value with
  | nil =>
      obtain rfl := List.map_eq_nil_iff.mp read.symm
      rfl
  | cons char text ih =>
      cases digits with
      | nil => cases read
      | cons digit digits =>
          rw [List.map_cons, List.map_cons, List.cons.injEq] at read
          have below := (le_foldl_digits positive digits (value * radix + digit)).trans_lt fits
          have added : addDigit radix bound value char = some (value * radix + digit) := by
            simp [addDigit, read.1, below]
          rw [List.foldlM_cons, added]
          exact ih read.2 fits

theorem fromStrRadix_of_digits {radix bound : Nat} (positive : 0 < radix) {text : Text}
    {digits : List Nat} (nonempty : text ≠ []) (unsigned : text.head? ≠ some '+')
    (read : text.map (toDigit radix) = digits.map some)
    (fits : digits.foldl (fun value digit => value * radix + digit) 0 < bound) :
    fromStrRadix radix bound text =
      some (digits.foldl (fun value digit => value * radix + digit) 0) := by
  simp only [fromStrRadix, unsigned, nonempty, if_false]
  exact foldlM_addDigit positive read fits

/-! ### Trimming -/

/-- What is around a text without white space is trimmed. -/
theorem trim_append {before text after : Text} (blankBefore : ∀ char ∈ before, isWhitespace char)
    (blankAfter : ∀ char ∈ after, isWhitespace char)
    (solid : ∀ char ∈ text, isWhitespace char = false) :
    trim (before ++ text ++ after) = text := by
  have first : ∀ {front rest : Text}, (∀ char ∈ front, isWhitespace char) →
      (∀ char, rest.head? = some char → isWhitespace char = false) →
      (front ++ rest).dropWhile isWhitespace = rest := by
    intro front rest blank solid
    rw [List.dropWhile_append_of_pos blank]
    cases rest with
    | nil => rfl
    | cons char rest => exact List.dropWhile_cons_of_neg (by simp [solid char rfl])
  have last : (text ++ after).rdropWhile isWhitespace = text := by
    rw [List.rdropWhile, List.reverse_append, first (by simpa using blankAfter),
      List.reverse_reverse]
    intro char ends
    exact solid char (List.mem_reverse.mp (List.mem_of_mem_head? ends))
  cases text with
  | nil =>
      have blank : ∀ char ∈ before ++ [] ++ after, isWhitespace char := by
        intro char member
        simp only [List.append_nil, List.mem_append] at member
        exact member.elim (blankBefore char) (blankAfter char)
      rw [trim, List.dropWhile_eq_nil_iff.mpr blank]
      rfl
  | cons char text =>
      rw [trim, List.append_assoc, first blankBefore, last]
      rintro _ ⟨⟩
      exact solid char List.mem_cons_self

/-- A text is what remains of it and the characters that were trimmed. -/
theorem exists_trimmed (char : Char) (text : Text) :
    ∃ count, text = trimEndMatches char text ++ List.replicate count char := by
  have all : ∀ other ∈ text.rtakeWhile (· == char), other = char := by
    intro other member
    simpa using List.mem_rtakeWhile_imp member
  refine ⟨(text.rtakeWhile (· == char)).length, ?_⟩
  rw [← List.eq_replicate_of_mem all]
  exact List.rdropWhile_append_rtakeWhile.symm

/-- Only the characters behind a text are trimmed that ends with another one. -/
theorem trimEndMatches_append {char : Char} {text : Text} (ends : text.getLast? ≠ some char)
    (count : Nat) : trimEndMatches char (text ++ List.replicate count char) = text := by
  induction count with
  | zero =>
      rw [List.replicate_zero, List.append_nil, trimEndMatches, List.rdropWhile_eq_self_iff]
      intro nonempty last
      apply ends
      rw [List.getLast?_eq_some_getLast nonempty, beq_iff_eq.mp last]
  | succ count ih =>
      rw [List.replicate_succ', ← List.append_assoc, trimEndMatches,
        List.rdropWhile_concat_pos _ _ _ (by simp)]
      exact ih

/-- The last of the fields is what is behind the last separator. -/
theorem rsplitOnce_append {char : Char} {last : Text} (absent : char ∉ last) (first : Text) :
    rsplitOnce char (first ++ char :: last) = some (first, last) := by
  have kept : ∀ other ∈ last.reverse, decide (other ≠ char) = true := by
    intro other member
    refine decide_eq_true fun same => ?_
    exact absent (same ▸ List.mem_reverse.mp member)
  have behind : (first ++ char :: last).reverse = last.reverse ++ char :: first.reverse := by
    simp
  rw [rsplitOnce, if_pos (by simp), List.rdropWhile, List.rtakeWhile, behind,
    List.dropWhile_append_of_pos kept, List.takeWhile_append_of_pos kept,
    List.dropWhile_cons_of_neg (by simp), List.takeWhile_cons_of_neg (by simp)]
  simp

/-- A text up to a character that it does not have. -/
theorem takeWhile_ne_append {char : Char} {before behind : Text} (absent : char ∉ before)
    (bounded : behind = [] ∨ behind.head? = some char) :
    (before ++ behind).takeWhile (· ≠ char) = before ∧
      (before ++ behind).dropWhile (· ≠ char) = behind := by
  have kept : ∀ other ∈ before, decide (other ≠ char) = true := by
    intro other member
    exact decide_eq_true fun same => absent (same ▸ member)
  rw [List.takeWhile_append_of_pos kept, List.dropWhile_append_of_pos kept]
  cases behind with
  | nil => exact ⟨List.append_nil before, rfl⟩
  | cons other behind =>
      rcases bounded with none | ends
      · cases none
      · cases ends
        rw [List.takeWhile_cons_of_neg (by simp), List.dropWhile_cons_of_neg (by simp)]
        exact ⟨List.append_nil before, rfl⟩

/-! ### Classes of ASCII characters -/

theorem codes_of_isUpper {char : Char} (upper : char.isUpper = true) :
    65 ≤ char.toNat ∧ char.toNat ≤ 90 := of_decide_eq_true upper

theorem codes_of_isLower {char : Char} (lower : char.isLower = true) :
    97 ≤ char.toNat ∧ char.toNat ≤ 122 := by
  obtain ⟨least, most⟩ := Bool.and_eq_true_iff.mp lower
  exact ⟨of_decide_eq_true least, of_decide_eq_true most⟩

theorem codes_of_isDigit {char : Char} (digit : char.isDigit = true) :
    48 ≤ char.toNat ∧ char.toNat ≤ 57 := by
  obtain ⟨least, most⟩ := Bool.and_eq_true_iff.mp digit
  exact ⟨of_decide_eq_true least, of_decide_eq_true most⟩

theorem isAlphanum_iff {char : Char} : char.isAlphanum = true ↔
    (char.isUpper = true ∨ char.isLower = true) ∨ char.isDigit = true := by
  rw [← Bool.or_eq_true, ← Bool.or_eq_true]
  rfl

theorem codes_of_isAlphanum {char : Char} (alphanumeric : char.isAlphanum = true) :
    48 ≤ char.toNat ∧ char.toNat ≤ 122 := by
  rcases isAlphanum_iff.mp alphanumeric with (upper | lower) | digit
  · have codes := codes_of_isUpper upper
    omega
  · have codes := codes_of_isLower lower
    omega
  · have codes := codes_of_isDigit digit
    omega

theorem ascii_of_isAlphanum {char : Char} (alphanumeric : char.isAlphanum = true) :
    char.toNat < 0x80 :=
  Nat.lt_of_le_of_lt (codes_of_isAlphanum alphanumeric).2 (by decide)

theorem toLower_of_not_isUpper {char : Char} (other : char.isUpper = false) :
    char.toLower = char := dif_neg (of_decide_eq_false other)

theorem isUpper_toLower (char : Char) : char.toLower.isUpper = false := by
  cases upper : char.isUpper with
  | false => rw [toLower_of_not_isUpper upper, upper]
  | true =>
      have codes := codes_of_isUpper upper
      have lowered : char.toLower.toNat = char.toNat + 32 := by
        have same : char.toLower.val = char.val + ('a'.val - 'A'.val) :=
          congrArg Char.val (dif_pos (of_decide_eq_true upper))
        have distance : ('a'.val - 'A'.val).toNat = 32 := by decide
        change char.toLower.val.toNat = char.val.toNat + 32
        rw [same, UInt32.toNat_add, distance]
        exact Nat.mod_eq_of_lt (Nat.lt_of_le_of_lt (Nat.add_le_add_right codes.2 32) (by decide))
      by_contra still
      have again := codes_of_isUpper (Bool.not_eq_false _ ▸ still)
      omega

/-! ### Octets of ASCII characters -/

private theorem highOctet {code base : Nat} (least : 0x80 ≤ base) (fits : code + base < 0x100) :
    0x80 ≤ (UInt8.ofNat (code + base)).toNat := by
  rw [UInt8.toNat_ofNat']
  omega

/-- All octets of a character beyond ASCII are from 0x80 on. -/
theorem utf8EncodeChar_high {char : Char} (beyond : 0x80 ≤ char.toNat) :
    ∀ octet ∈ String.utf8EncodeChar char, 0x80 ≤ octet.toNat := by
  have wide : ¬ char.val.toNat ≤ 0x7f := Nat.not_le_of_lt beyond
  unfold String.utf8EncodeChar
  simp only [wide, if_false]
  split
  · simp only [List.forall_mem_cons]
    exact ⟨highOctet (by omega) (by omega), highOctet (by omega) (by omega), by simp⟩
  split
  · simp only [List.forall_mem_cons]
    exact ⟨highOctet (by omega) (by omega), highOctet (by omega) (by omega),
      highOctet (by omega) (by omega), by simp⟩
  · simp only [List.forall_mem_cons]
    exact ⟨highOctet (by omega) (by omega), highOctet (by omega) (by omega),
      highOctet (by omega) (by omega), highOctet (by omega) (by omega), by simp⟩

theorem utf8EncodeChar_ascii {char : Char} (ascii : char.toNat < 0x80) :
    String.utf8EncodeChar char = [UInt8.ofNat char.toNat] :=
  if_pos (Nat.le_of_lt_succ ascii)

/-- An ASCII text has an octet for each character. -/
theorem encode_ascii {text : Text} (ascii : ∀ char ∈ text, char.toNat < 0x80) :
    encode text = text.map fun char => UInt8.ofNat char.toNat := by
  induction text with
  | nil => rfl
  | cons char text ih =>
      rw [encode_cons, utf8EncodeChar_ascii (ascii char List.mem_cons_self),
        ih fun other member => ascii other (List.mem_cons_of_mem char member)]
      rfl

theorem encode_replicate {char : Char} (ascii : char.toNat < 0x80) (count : Nat) :
    encode (List.replicate count char) = List.replicate count (UInt8.ofNat char.toNat) := by
  induction count with
  | zero => rfl
  | succ count ih =>
      rw [List.replicate_succ, encode_cons, ih, utf8EncodeChar_ascii ascii]
      rfl

/-- An octet below 0x80 stands for its character. -/
theorem mem_encode_iff {char : Char} (ascii : char.toNat < 0x80) {text : Text} :
    UInt8.ofNat char.toNat ∈ encode text ↔ char ∈ text := by
  have octet : (UInt8.ofNat char.toNat).toNat = char.toNat := by
    rw [UInt8.toNat_ofNat']
    omega
  constructor
  · intro member
    obtain ⟨other, inside, member⟩ := List.mem_flatMap.mp member
    rcases Nat.lt_or_ge other.toNat 0x80 with low | high
    · rw [utf8EncodeChar_ascii low, List.mem_singleton] at member
      have same := congrArg UInt8.toNat member
      rw [octet, UInt8.toNat_ofNat', Nat.mod_eq_of_lt (by omega)] at same
      rwa [Char.toNat_inj.mp same]
    · have above := utf8EncodeChar_high high _ member
      omega
  · intro inside
    apply List.mem_flatMap.mpr
    exact ⟨char, inside, by rw [utf8EncodeChar_ascii ascii, List.mem_singleton]⟩

/-- Octets below 0x80 at the front are read as their characters. -/
theorem fromUtf8Lossy_append {octets : Bytes} (ascii : ∀ octet ∈ octets, octet < 0x80)
    (rest : Bytes) : fromUtf8Lossy (octets ++ rest) =
      octets.map (fun octet => Char.ofNat octet.toNat) ++ fromUtf8Lossy rest := by
  induction octets with
  | nil => rfl
  | cons octet octets ih =>
      have low := ascii octet List.mem_cons_self
      have single : width octet = 1 := if_pos (UInt8.le_iff_toNat_le.mpr (Nat.le_of_lt_succ
        (UInt8.lt_iff_toNat_lt.mp low)))
      have alone : ∀ more, front octet more = (Char.ofNat octet.toNat, 0) := by
        intro more
        have none : continuing octet more = [] := by
          cases more <;> simp [continuing, single]
        simp [front, none, single, assemble]
      have ih := ih fun other member => ascii other (List.mem_cons_of_mem octet member)
      rw [fromUtf8Lossy] at ih ⊢
      rw [List.cons_append, lossyAfter, alone]
      simp only [ih, List.map_cons, List.cons_append]

example : fromUtf8Lossy [0x41, 0xe2, 0x82, 0x41, 0xff] = ['A', '\uFFFD', 'A', '\uFFFD'] := by
  decide

end Utf8Text
