import Fips2Go.ByteStrings
import Mathlib.Algebra.BigOperators.Group.List.Basic
import Mathlib.Data.List.Basic
import Mathlib.Data.List.Induction
import Mathlib.Tactic.IntervalCases

/-!
# Ones' complement sums

Sums of 16-bit words with end-around carry.  A sum is determined by its residue
modulo 65535 and by whether all the words are zero, so the carries may be put
off to the end, and the complement of a sum brings it to all ones.
-/

namespace OnesComplement

/-- The 16-bit words of a string, a last odd octet padded with zero. -/
def words : Bytes → List Nat
  | [] => []
  | [high] => [(Bytes.be16 high 0).toNat]
  | high :: low :: rest => (Bytes.be16 high low).toNat :: words rest

/-- Addition with the carry added in again. -/
def add (first second : Nat) : Nat :=
  if first + second > 0xffff then first + second - 0xffff else first + second

def sum (addends : List Nat) : Nat := addends.foldl add 0

/-- The carries of a wider sum, added to its low word. -/
def carry (total : Nat) : Nat := total % 0x10000 + total / 0x10000

theorem word_le {bytes : Bytes} {word : Nat} (member : word ∈ words bytes) : word ≤ 0xffff := by
  induction bytes using words.induct with
  | case1 => cases member
  | case2 high =>
      rw [words, List.mem_singleton] at member
      have bound := (Bytes.be16 high 0).toNat_lt
      omega
  | case3 high low rest ih =>
      rw [words, List.mem_cons] at member
      rcases member with rfl | later
      · have bound := (Bytes.be16 high low).toNat_lt
        omega
      · exact ih later

theorem length_words (bytes : Bytes) : (words bytes).length = (bytes.length + 1) / 2 := by
  induction bytes using words.induct with
  | case1 => rfl
  | case2 high => simp [words]
  | case3 high low rest ih =>
      simp only [words, List.length_cons, ih]
      omega

theorem words_append {front : Bytes} (even : front.length % 2 = 0) (back : Bytes) :
    words (front ++ back) = words front ++ words back := by
  induction front using words.induct with
  | case1 => rfl
  | case2 => simp at even
  | case3 high low rest ih =>
      simp only [List.length_cons] at even
      simp only [words, List.cons_append, ih (by omega)]

theorem sum_le_of_le {addends : List Nat} (small : ∀ word ∈ addends, word ≤ 0xffff) :
    addends.sum ≤ 0xffff * addends.length := by
  induction addends with
  | nil => exact Nat.le_refl 0
  | cons word addends ih =>
      have first := small word List.mem_cons_self
      have rest := ih fun other member => small other (List.mem_cons_of_mem word member)
      simp only [List.sum_cons, List.length_cons]
      omega

theorem sum_words_le (bytes : Bytes) :
    (words bytes).sum ≤ 0xffff * ((bytes.length + 1) / 2) := by
  rw [← length_words]
  exact sum_le_of_le fun _ => word_le

/-! ### Residues -/

theorem add_spec {first second : Nat} (firstLe : first ≤ 0xffff) (secondLe : second ≤ 0xffff) :
    add first second ≤ 0xffff ∧ add first second % 0xffff = (first + second) % 0xffff ∧
      (add first second = 0 ↔ first + second = 0) := by
  unfold add
  split <;> omega

/-- A sum in ones' complement has the residue of the sum, and is zero only where
that is. -/
theorem sum_spec {addends : List Nat} (small : ∀ word ∈ addends, word ≤ 0xffff) :
    sum addends ≤ 0xffff ∧ sum addends % 0xffff = addends.sum % 0xffff ∧
      (sum addends = 0 ↔ addends.sum = 0) := by
  induction addends using List.reverseRecOn with
  | nil => exact ⟨Nat.zero_le _, rfl, Iff.rfl⟩
  | append_singleton addends word ih =>
      obtain ⟨bound, residue, zero⟩ := ih fun other member => small other (by simp [member])
      obtain ⟨bound', residue', zero'⟩ := add_spec bound (small word (by simp))
      have last : sum (addends ++ [word]) = add (sum addends) word := by simp [sum]
      rw [last, List.sum_append, List.sum_singleton]
      refine ⟨bound', ?_, ?_⟩
      · rw [residue', Nat.add_mod, residue, ← Nat.add_mod]
      · rw [zero']
        omega

/-- The sum is all ones where the residue is zero and something is not. -/
theorem sum_eq_ones {addends : List Nat} (small : ∀ word ∈ addends, word ≤ 0xffff)
    (divides : addends.sum % 0xffff = 0) (nonzero : addends.sum ≠ 0) : sum addends = 0xffff := by
  obtain ⟨bound, residue, zero⟩ := sum_spec small
  have positive : sum addends ≠ 0 := fun none => nonzero (zero.mp none)
  omega

theorem carry_spec (total : Nat) :
    carry total % 0xffff = total % 0xffff ∧ (carry total = 0 ↔ total = 0) ∧
      (total > 0xffff → carry total < total) := by
  unfold carry
  omega

/-- A 32-bit sum is folded in two rounds. -/
theorem carry_carry_le {total : Nat} (fits : total < 2 ^ 32) : carry (carry total) ≤ 0xffff := by
  unfold carry
  omega

end OnesComplement
