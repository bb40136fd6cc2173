import Fips2Go.ByteStrings
import Fips2Go.Utf8Text

/-!
# Addresses and numbers as text

How numbers and IPv6 addresses are displayed: segments in lower-case
hexadecimal, the first longest run of two or more zero segments left out, and
an address that maps an IPv4 one ending in that.  Nothing but digits, colons
and dots appears in such a text.
-/

namespace Ipv6Text

open Utf8Text (Text)

/-- A number in decimal digits. -/
def decimal (number : Nat) : Text := Nat.toDigits 10 number

/-- A number in lower-case hexadecimal digits. -/
def hexadecimal (number : Nat) : Text := Nat.toDigits 16 number

/-- Neighbouring segments of an address. -/
structure Span where
  start : Nat
  len : Nat

/-- The longest run of zero segments so far and the current one, one segment
further. -/
def extendSpans (spans : Span × Span) (entry : UInt16 × Nat) : Span × Span :=
  if entry.1 = 0 then
    let current : Span :=
      { start := if spans.2.len = 0 then entry.2 else spans.2.start
        len := spans.2.len + 1 }
    (if spans.1.len < current.len then current else spans.1, current)
  else (spans.1, ⟨0, 0⟩)

/-- The first longest run of zero segments. -/
def zeroSpan (segments : List UInt16) : Span :=
  (segments.zipIdx.foldl extendSpans (⟨0, 0⟩, ⟨0, 0⟩)).1

/-- Segments with colons between them. -/
def subslice (segments : List UInt16) : Text :=
  [':'].intercalate (segments.map fun segment => hexadecimal segment.toNat)

/-- The segments of an address, most significant first. -/
def segments : Bytes → List UInt16
  | high :: low :: rest => Bytes.be16 high low :: segments rest
  | _ => []

/-- The IPv4 address that an IPv6 address maps. -/
def mappedIpv4 (octets : Bytes) : Option Bytes :=
  if octets.take 12 = List.replicate 10 0 ++ [0xff, 0xff] then some (octets.drop 12) else none

/-- `Display` of an IPv6 address. -/
def display (address : FixedBytes 16) : Text :=
  match mappedIpv4 address.1 with
  | some octets =>
      "::ffff:".toList ++ ['.'].intercalate (octets.map fun octet => decimal octet.toNat)
  | none =>
      let segments := segments address.1
      let zeroes := zeroSpan segments
      if 1 < zeroes.len then
        subslice (segments.take zeroes.start) ++ "::".toList ++
          subslice (segments.drop (zeroes.start + zeroes.len))
      else subslice segments

/-- What an address or a number is written with. -/
def IsAddressChar (char : Char) : Prop :=
  char = ':' ∨ char = '.' ∨ ∃ digit, char = Nat.digitChar digit

private theorem mem_toDigitsCore {base fuel number : Nat} {digits : Text} {char : Char}
    (member : char ∈ Nat.toDigitsCore base fuel number digits) :
    char ∈ digits ∨ ∃ digit, char = Nat.digitChar digit := by
  induction fuel generalizing number digits with
  | zero => exact Or.inl member
  | succ fuel ih =>
      rw [Nat.toDigitsCore] at member
      split at member
      · rcases List.mem_cons.mp member with equal | later
        · exact Or.inr ⟨_, equal⟩
        · exact Or.inl later
      · rcases ih member with inside | digit
        · rcases List.mem_cons.mp inside with equal | later
          · exact Or.inr ⟨_, equal⟩
          · exact Or.inl later
        · exact Or.inr digit

theorem mem_toDigits {base number : Nat} {char : Char}
    (member : char ∈ Nat.toDigits base number) : IsAddressChar char := by
  rcases mem_toDigitsCore member with inside | digit
  · simp at inside
  · exact Or.inr (Or.inr digit)

private theorem mem_intercalate {separator : Char} {texts : List Text} {char : Char}
    (member : char ∈ [separator].intercalate texts) :
    char = separator ∨ ∃ text ∈ texts, char ∈ text := by
  induction texts with
  | nil => simp [List.intercalate] at member
  | cons text rest ih =>
      cases rest with
      | nil =>
          right
          exact ⟨text, List.mem_cons_self, by simpa [List.intercalate] using member⟩
      | cons next rest =>
          rw [List.intercalate_cons_cons, List.append_assoc] at member
          rcases List.mem_append.mp member with here | later
          · exact Or.inr ⟨text, List.mem_cons_self, here⟩
          · rcases List.mem_cons.mp later with equal | later
            · exact Or.inl equal
            · rcases ih later with equal | ⟨other, inside, here⟩
              · exact Or.inl equal
              · exact Or.inr ⟨other, List.mem_cons_of_mem text inside, here⟩

private theorem mem_subslice {segments : List UInt16} {char : Char}
    (member : char ∈ subslice segments) : IsAddressChar char := by
  rcases mem_intercalate member with equal | ⟨text, inside, here⟩
  · exact Or.inl equal
  · obtain ⟨segment, -, rfl⟩ := List.mem_map.mp inside
    exact mem_toDigits here

/-- A displayed address has only digits, colons and dots. -/
theorem mem_display {address : FixedBytes 16} {char : Char}
    (member : char ∈ display address) : IsAddressChar char := by
  unfold display at member
  split at member
  · rcases List.mem_append.mp member with front | back
    · have letters : "::ffff:".toList.all
          (fun letter => letter == ':' || letter == Nat.digitChar 15) = true := by decide
      rcases Bool.or_eq_true_iff.mp (List.all_eq_true.mp letters char front) with colon | digit
      · exact Or.inl (beq_iff_eq.mp colon)
      · exact Or.inr (Or.inr ⟨15, beq_iff_eq.mp digit⟩)
    · rcases mem_intercalate back with equal | ⟨text, inside, here⟩
      · exact Or.inr (Or.inl equal)
      · obtain ⟨octet, -, rfl⟩ := List.mem_map.mp inside
        exact mem_toDigits here
  · dsimp only at member
    split at member
    · rcases List.mem_append.mp member with front | back
      · rcases List.mem_append.mp front with front | colons
        · exact mem_subslice front
        · have colons : char ∈ [':', ':'] := colons
          exact Or.inl (by simpa using colons)
      · exact mem_subslice back
    · exact mem_subslice member

/-- Line ends are not among what an address or a number is written with. -/
theorem IsAddressChar.not_break {char : Char} (written : IsAddressChar char) :
    char ≠ '\r' ∧ char ≠ '\n' := by
  rcases written with rfl | rfl | ⟨digit, rfl⟩
  · decide
  · decide
  · have known : ∀ value < 16, Nat.digitChar value ≠ '\r' ∧ Nat.digitChar value ≠ '\n' := by
      decide
    rcases Nat.lt_or_ge digit 16 with small | large
    · exact known digit small
    · rw [Nat.digitChar_eq_star.mpr large]
      decide

example : display ⟨[0xfd, 1, 0, 0, 0, 0, 0, 0, 0, 0, 0, 0, 0, 0, 0, 1], rfl⟩ =
    "fd01::1".toList := by
  rfl

/-! ### Decimal numbers -/

theorem isDigit_of_mem_decimal {number : Nat} {char : Char} (member : char ∈ decimal number) :
    char.isDigit = true :=
  Nat.isDigit_of_mem_toDigits (by decide) (Nat.le_refl 10) member

theorem toDigit_of_isDigit {char : Char} (digit : char.isDigit = true) :
    Utf8Text.toDigit 10 char = some (char.toNat - '0'.toNat) := by
  have bounds : '0' ≤ char ∧ char ≤ '9' := Utf8Text.codes_of_isDigit digit
  have value : char.toNat ≤ 57 := bounds.2
  have small : char.toNat - '0'.toNat < 10 := by
    have zero : '0'.toNat = 48 := rfl
    omega
  rw [Utf8Text.toDigit, if_pos bounds]
  exact if_pos small

/-- A displayed number is parsed again where it fits. -/
theorem fromStrRadix_decimal {number bound : Nat} (fits : number < bound) :
    Utf8Text.fromStrRadix 10 bound (decimal number) = some number := by
  have value : ((decimal number).map fun char => char.toNat - '0'.toNat).foldl
      (fun value digit => value * 10 + digit) 0 = number := by
    rw [List.foldl_map]
    have sum : Nat.ofDigitChars 10 (decimal number) 0 = number :=
      Nat.ofDigitChars_toDigits (by decide) (Nat.le_refl 10)
    rw [Nat.ofDigitChars_eq_foldl] at sum
    simpa only [Nat.mul_comm 10] using sum
  have unsigned : (decimal number).head? ≠ some '+' := by
    intro sign
    have digit := isDigit_of_mem_decimal (List.mem_of_mem_head? sign)
    cases digit
  have read : (decimal number).map (Utf8Text.toDigit 10) =
      ((decimal number).map fun char => char.toNat - '0'.toNat).map some := by
    rw [List.map_map]
    exact List.map_congr_left fun char member => toDigit_of_isDigit (isDigit_of_mem_decimal member)
  have nonempty : decimal number ≠ [] := Nat.toDigits_ne_nil
  rw [Utf8Text.fromStrRadix_of_digits (by decide) nonempty unsigned read (value.symm ▸ fits),
    value]

end Ipv6Text
