import Mathlib.Data.List.Basic
import Mathlib.Order.Defs.LinearOrder

/-!
# Byte strings

Byte strings are lists of octets.  A slice of known size carries its length,
and can only be taken where the caller shows that it lies inside the string.
-/

abbrev Bytes := List UInt8

/-- An array of exactly `size` octets. -/
abbrev FixedBytes (size : Nat) := { bytes : Bytes // bytes.length = size }

/-- 16-bit words in numerical order. -/
instance linearOrderUInt16 : LinearOrder UInt16 where
  le_refl := UInt16.le_refl
  le_trans _ _ _ := UInt16.le_trans
  le_antisymm _ _ := UInt16.le_antisymm
  le_total := UInt16.le_total
  lt_iff_le_not_ge first second := by
    simp only [UInt16.lt_iff_toNat_lt, UInt16.le_iff_toNat_le]
    omega
  toDecidableLE := inferInstance
  toDecidableEq := inferInstance
  toDecidableLT := inferInstance

namespace Bytes

/-- The big-endian 16-bit word of two octets. -/
def be16 (high low : UInt8) : UInt16 :=
  UInt16.ofNat (high.toNat * 256 + low.toNat)

/-- The octets of a 16-bit word, most significant first. -/
def toBe16 (word : UInt16) : Bytes :=
  [UInt8.ofNat (word.toNat / 256), UInt8.ofNat (word.toNat % 256)]

/-- `size` octets from `start`. -/
def sliceAt (bytes : Bytes) (start size : Nat)
    (within : start + size ≤ bytes.length) : FixedBytes size :=
  ⟨(bytes.drop start).take size, by
    rw [List.length_take, List.length_drop]
    omega⟩

/-- `size` octets from `start`, if the string has that many. -/
def slice? (bytes : Bytes) (start size : Nat) : Option Bytes :=
  if start + size ≤ bytes.length then some ((bytes.drop start).take size) else none

@[simp] theorem length_toBe16 (word : UInt16) : (toBe16 word).length = 2 := rfl

theorem be16_toBe16 (word : UInt16) :
    be16 (UInt8.ofNat (word.toNat / 256)) (UInt8.ofNat (word.toNat % 256)) = word := by
  have bound := word.toNat_lt
  apply UInt16.toNat_inj.mp
  simp only [be16, UInt16.toNat_ofNat', UInt8.toNat_ofNat']
  omega

theorem toBe16_be16 (high low : UInt8) : toBe16 (be16 high low) = [high, low] := by
  have highBound := high.toNat_lt
  have lowBound := low.toNat_lt
  have word : (be16 high low).toNat = high.toNat * 256 + low.toNat := by
    simp only [be16, UInt16.toNat_ofNat']
    omega
  have quotient : (high.toNat * 256 + low.toNat) / 256 = high.toNat := by omega
  have remainder : (high.toNat * 256 + low.toNat) % 256 = low.toNat := by omega
  simp [toBe16, word, quotient, remainder]

theorem toBe16_injective {first second : UInt16} (same : toBe16 first = toBe16 second) :
    first = second := by
  have octets := same
  simp only [toBe16, List.cons.injEq, and_true] at octets
  rw [← be16_toBe16 first, octets.1, octets.2, be16_toBe16]

/-- A word by its two octets. -/
theorem exists_octets (word : UInt16) :
    ∃ high low, toBe16 word = [high, low] ∧ be16 high low = word :=
  ⟨_, _, rfl, be16_toBe16 word⟩

theorem sliceAt_val (bytes : Bytes) (start size : Nat)
    (within : start + size ≤ bytes.length) :
    (sliceAt bytes start size within).val = (bytes.drop start).take size := rfl

theorem slice?_bounds {bytes octets : Bytes} {start size : Nat}
    (taken : slice? bytes start size = some octets) :
    start + size ≤ bytes.length ∧ octets.length = size := by
  unfold slice? at taken
  split at taken
  next within =>
    rw [← Option.some.inj taken, List.length_take, List.length_drop]
    exact ⟨within, by omega⟩
  · cases taken

theorem slice?_two {bytes : Bytes} {index : Nat} (within : index + 2 ≤ bytes.length) :
    slice? bytes index 2 = some [bytes[index], bytes[index + 1]] := by
  rw [slice?, if_pos within, List.drop_eq_getElem_cons (by omega),
    List.drop_eq_getElem_cons (by omega)]
  rfl

theorem slice?_append (before slice after : Bytes) :
    slice? (before ++ slice ++ after) before.length slice.length = some slice := by
  simp [slice?]

end Bytes
