import Mathlib.Data.List.GetD
import Mathlib.Data.List.OfFn

/-!
# Regrouping bits

Words of one width as the string of their bits, the most significant first, and
back.  A string that was read in words of one width can be read in words of
another; whatever the widths, nothing is lost where the lengths agree.
-/

namespace BitGroups

variable {width : Nat}

def toBits (word : BitVec width) : List Bool :=
  List.ofFn fun place : Fin width => word.getMsbD place

def ofBits (bits : List Bool) : BitVec width :=
  (BitVec.ofBoolListBE bits).setWidth width

/-- The bits of words in turn. -/
def unpack (words : List (BitVec width)) : List Bool := words.flatMap toBits

/-- As many words from the front of a string of bits. -/
def pack : Nat → List Bool → List (BitVec width)
  | 0, _ => []
  | count + 1, bits => ofBits (bits.take width) :: pack count (bits.drop width)

@[simp]
theorem length_toBits (word : BitVec width) : (toBits word).length = width := List.length_ofFn

@[simp]
theorem length_pack (count : Nat) (bits : List Bool) :
    (pack count bits : List (BitVec width)).length = count := by
  induction count generalizing bits with
  | zero => rfl
  | succ count ih => rw [pack, List.length_cons, ih]

@[simp]
theorem length_unpack (words : List (BitVec width)) :
    (unpack words).length = width * words.length := by
  induction words with
  | nil => rfl
  | cons word words ih =>
      rw [unpack, List.flatMap_cons, List.length_append, length_toBits, List.length_cons,
        Nat.mul_succ, Nat.add_comm]
      exact congrArg (· + width) ih

theorem getMsbD_ofBits {bits : List Bool} (full : bits.length = width) (place : Nat) :
    (ofBits bits : BitVec width).getMsbD place = bits.getD place false := by
  subst full
  rw [ofBits, BitVec.setWidth_eq, BitVec.getMsbD_ofBoolListBE]

@[simp]
theorem ofBits_toBits (word : BitVec width) : ofBits (toBits word) = word := by
  apply BitVec.eq_of_getMsbD_eq
  intro place inWord
  rw [getMsbD_ofBits (length_toBits word),
    List.getD_eq_getElem _ _ (by simpa using inWord)]
  simp only [toBits, List.getElem_ofFn]

theorem toBits_ofBits {bits : List Bool} (full : bits.length = width) :
    toBits (ofBits bits : BitVec width) = bits := by
  apply List.ext_getElem
  · rw [length_toBits, full]
  · intro place inWord inBits
    simp only [toBits, List.getElem_ofFn, getMsbD_ofBits full]
    exact List.getD_eq_getElem _ _ inBits

theorem pack_unpack (words : List (BitVec width)) : pack words.length (unpack words) = words := by
  induction words with
  | nil => rfl
  | cons word words ih =>
      rw [unpack, List.flatMap_cons, List.length_cons, pack,
        List.take_left' (length_toBits word), List.drop_left' (length_toBits word), ofBits_toBits]
      exact congrArg (word :: ·) ih

theorem unpack_pack {count : Nat} {bits : List Bool} (full : bits.length = width * count) :
    unpack (pack count bits : List (BitVec width)) = bits := by
  induction count generalizing bits with
  | zero => exact (List.eq_nil_of_length_eq_zero full).symm
  | succ count ih =>
      rw [Nat.mul_succ] at full
      have front : (bits.take width).length = width := by
        rw [List.length_take]
        omega
      have behind : (bits.drop width).length = width * count := by
        rw [List.length_drop]
        omega
      rw [pack, unpack, List.flatMap_cons, toBits_ofBits front]
      change bits.take width ++ unpack (pack count (bits.drop width)) = bits
      rw [ih behind, List.take_append_drop]

end BitGroups
