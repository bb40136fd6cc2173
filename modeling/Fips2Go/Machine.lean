import Fips2Go.ByteStrings
import Mathlib.Tactic.IntervalCases

/-!
# Byte strings on a machine

Indexing, slicing and adding as a program does them on a machine with words of
32 or 64 bits.  What is out of range stops the program; a sum that does not fit
into a word stops it too where overflows are checked, and wraps where they are
not.
-/

namespace Machine

inductive Fault where
  | outOfRange
  | overflow
  | unending
  deriving DecidableEq, Repr

/-- A computation that a fault may stop. -/
abbrev Checked (α : Type) := Except Fault α

inductive WordSize where
  | bits32
  | bits64
  deriving DecidableEq, Repr

def WordSize.bits : WordSize → Nat
  | .bits32 => 32
  | .bits64 => 64

/-- `usize` of the target, and whether the build checks for overflows. -/
structure Target where
  wordSize : WordSize
  overflowChecks : Bool
  deriving DecidableEq, Repr

/-- The first number that is no `usize`. -/
def Target.wordEnd (target : Target) : Nat := 2 ^ target.wordSize.bits

/-- No object in memory has this many octets. -/
def Target.memory (target : Target) : Nat := 2 ^ (target.wordSize.bits - 1)

/-- A byte string in memory. -/
abbrev Slice (target : Target) := { bytes : Bytes // bytes.length < target.memory }

def octetAt (bytes : Bytes) (index : Nat) : Checked UInt8 :=
  match bytes[index]? with
  | some octet => .ok octet
  | none => .error .outOfRange

/-- The octets from `first` up to `last`, which is not among them. -/
def between (bytes : Bytes) (first last : Nat) : Checked Bytes :=
  if first ≤ last ∧ last ≤ bytes.length then .ok ((bytes.drop first).take (last - first))
  else .error .outOfRange

/-- A slice as an array of known size. -/
def fixed (size : Nat) (bytes : Bytes) : Checked (FixedBytes size) :=
  if sized : bytes.length = size then .ok ⟨bytes, sized⟩ else .error .outOfRange

/-- The sum of two words. -/
def Target.add (target : Target) (first second : Nat) : Checked Nat :=
  if first + second < target.wordEnd then .ok (first + second)
  else if target.overflowChecks then .error .overflow
  else .ok ((first + second) % target.wordEnd)

theorem Target.wordEnd_eq (target : Target) : target.wordEnd = 2 * target.memory := by
  unfold Target.wordEnd Target.memory
  cases target.wordSize <;> rfl

theorem Target.two_le_memory (target : Target) : 2 ≤ target.memory := by
  unfold Target.memory
  cases target.wordSize <;> decide

theorem Target.memory_large (target : Target) : 2147483648 ≤ target.memory := by
  unfold Target.memory
  cases target.wordSize <;> decide

theorem octetAt_of_lt {bytes : Bytes} {index : Nat} (within : index < bytes.length) :
    octetAt bytes index = .ok bytes[index] := by
  simp [octetAt, within]

theorem between_of_le {bytes : Bytes} {first last : Nat} (ordered : first ≤ last)
    (within : last ≤ bytes.length) :
    between bytes first last = .ok ((bytes.drop first).take (last - first)) :=
  if_pos ⟨ordered, within⟩

theorem between_zero {bytes : Bytes} {last : Nat} (within : last ≤ bytes.length) :
    between bytes 0 last = .ok (bytes.take last) := by
  rw [between_of_le (Nat.zero_le last) within, List.drop_zero, Nat.sub_zero]

theorem between_length {bytes : Bytes} {first : Nat} (within : first ≤ bytes.length) :
    between bytes first bytes.length = .ok (bytes.drop first) := by
  rw [between_of_le within (Nat.le_refl _), List.take_of_length_le]
  rw [List.length_drop]

theorem fixed_of_length {size : Nat} {bytes : Bytes} (sized : bytes.length = size) :
    fixed size bytes = .ok ⟨bytes, sized⟩ :=
  dif_pos sized

/-- A slice inside the string as an array. -/
theorem fixed_take {bytes : Bytes} {first size : Nat} (within : first + size ≤ bytes.length) :
    fixed size ((bytes.drop first).take size) = .ok (bytes.sliceAt first size within) :=
  fixed_of_length (bytes.sliceAt first size within).property

theorem octetAt_take {bytes : Bytes} {first size index : Nat} (inside : index < size)
    (within : first + size ≤ bytes.length) :
    octetAt ((bytes.drop first).take size) index = .ok bytes[first + index] := by
  have sized := (bytes.sliceAt first size within).property
  rw [Bytes.sliceAt_val] at sized
  rw [octetAt_of_lt (by omega), List.getElem_take, List.getElem_drop]

theorem Target.add_of_lt {target : Target} {first second : Nat}
    (fits : first + second < target.wordEnd) : target.add first second = .ok (first + second) :=
  if_pos fits

end Machine
