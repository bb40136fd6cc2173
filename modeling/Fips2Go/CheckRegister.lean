import Mathlib.Algebra.Group.Basic
import Mathlib.Data.List.GetD
import Mathlib.Data.List.Induction

/-!
# Check symbols of a feedback register

A register of symbols takes in one symbol at a time: the symbols move up one
place, the new one enters at the bottom, and what leaves at the top is fed back
into every place.  Such a register computes the remainder of a division by a
monic polynomial.  Feeding it is additive, so the symbols that take it to a
given content are determined by what as many zeros take it to.
-/

namespace CheckRegister

variable {Symbol : Type*} {size : Nat}

/-- A symbol enters at the bottom, and the one at the top leaves. -/
def push (symbol : Symbol) (register : Vector Symbol (size + 1)) : Vector Symbol (size + 1) :=
  Vector.ofFn fun place => if place.1 = 0 then symbol else register[place.1 - 1]

/-- The content of a register from the top down. -/
def toSymbols (register : Vector Symbol size) : List Symbol := register.toList.reverse

theorem length_toSymbols (register : Vector Symbol size) :
    (toSymbols register).length = size := by
  rw [toSymbols, List.length_reverse, Vector.length_toList]

variable [AddCommGroup Symbol]

/-- What a symbol that leaves the register adds to each place. -/
structure Feedback (Symbol : Type*) [AddCommGroup Symbol] (size : Nat) where
  toFun : Symbol → Vector Symbol (size + 1)
  map_zero : toFun 0 = 0
  map_add : ∀ a b, toFun (a + b) = toFun a + toFun b

theorem push_add (a b : Symbol) (c d : Vector Symbol (size + 1)) :
    push (a + b) (c + d) = push a c + push b d := by
  apply Vector.ext
  intro place inside
  rw [Vector.getElem_add, push, push, push, Vector.getElem_ofFn, Vector.getElem_ofFn,
    Vector.getElem_ofFn, Vector.getElem_add]
  split <;> rfl

variable (feedback : Feedback Symbol size)

def step (register : Vector Symbol (size + 1)) (symbol : Symbol) : Vector Symbol (size + 1) :=
  push symbol register + feedback.toFun register[size]

def feed (register : Vector Symbol (size + 1)) (symbols : List Symbol) : Vector Symbol (size + 1) :=
  symbols.foldl (step feedback) register

theorem feed_append (register : Vector Symbol (size + 1)) (first second : List Symbol) :
    feed feedback register (first ++ second) =
      feed feedback (feed feedback register first) second :=
  List.foldl_append

theorem feed_concat (register : Vector Symbol (size + 1)) (symbols : List Symbol)
    (symbol : Symbol) :
    feed feedback register (symbols ++ [symbol]) =
      step feedback (feed feedback register symbols) symbol :=
  feed_append feedback register symbols [symbol]

theorem step_add (a b : Symbol) (c d : Vector Symbol (size + 1)) :
    step feedback (c + d) (a + b) = step feedback c a + step feedback d b := by
  unfold step
  rw [push_add, Vector.getElem_add, feedback.map_add]
  apply Vector.ext
  intro place inside
  simp only [Vector.getElem_add]
  exact add_add_add_comm _ _ _ _

/-- What symbols do to a register is what zeros do to it and what the symbols do
to an empty one. -/
theorem feed_eq_add (register : Vector Symbol (size + 1)) (symbols : List Symbol) :
    feed feedback register symbols =
      feed feedback register (List.replicate symbols.length 0) + feed feedback 0 symbols := by
  induction symbols using List.reverseRecOn with
  | nil => exact (Vector.add_zero add_zero register).symm
  | append_singleton symbols symbol ih =>
      rw [List.length_append, List.length_singleton, List.replicate_succ', feed_concat,
        feed_concat, feed_concat, ih, ← step_add, zero_add]

/-- Until a symbol reaches the top an empty register holds what was fed to it. -/
theorem feed_zero (symbols : List Symbol) (fits : symbols.length ≤ size + 1) :
    feed feedback 0 symbols = Vector.ofFn fun place => symbols.reverse.getD place.1 0 := by
  induction symbols using List.reverseRecOn with
  | nil =>
      apply Vector.ext
      intro place inside
      simp [feed]
  | append_singleton symbols symbol ih =>
      rw [List.length_append, List.length_singleton] at fits
      have notYet : symbols.reverse.length ≤ size := by
        rw [List.length_reverse]
        omega
      have top : symbols.reverse.getD size 0 = 0 := List.getD_eq_default _ _ notYet
      rw [feed_concat, ih (by omega), List.reverse_append, step, Vector.getElem_ofFn, top,
        feedback.map_zero, Vector.add_zero add_zero]
      apply Vector.ext
      intro place inside
      rw [push, Vector.getElem_ofFn, Vector.getElem_ofFn, Vector.getElem_ofFn]
      cases place with
      | zero => rfl
      | succ place => exact if_neg (Nat.succ_ne_zero place)

/-- Exactly one choice of check symbols takes a register to a given content. -/
theorem feed_eq_iff {check : List Symbol} (full : check.length = size + 1)
    (register target : Vector Symbol (size + 1)) :
    feed feedback register check = target ↔
      check = toSymbols (target - feed feedback register (List.replicate (size + 1) 0)) := by
  rw [feed_eq_add, full, feed_zero feedback check (Nat.le_of_eq full)]
  generalize feed feedback register (List.replicate (size + 1) 0) = zeros
  constructor
  · rintro rfl
    rw [toSymbols, ← List.reverse_eq_iff]
    apply List.ext_getElem
    · rw [List.length_reverse, Vector.length_toList, full]
    · intro place inCheck inRegister
      rw [Vector.getElem_toList, Vector.getElem_sub, Vector.getElem_add, add_sub_cancel_left,
        Vector.getElem_ofFn, List.getD_eq_getElem _ _ inCheck]
  · rintro rfl
    apply Vector.ext
    intro place inside
    rw [toSymbols, List.reverse_reverse, Vector.getElem_add, Vector.getElem_ofFn,
      List.getD_eq_getElem _ _ (by simpa using inside), Vector.getElem_toList,
      Vector.getElem_sub, add_sub_cancel]

end CheckRegister
