import Mathlib.Data.List.Destutter
import Mathlib.Data.List.Sort
import Mathlib.Order.Basic
import Mathlib.Order.Defs.LinearOrder

/-!
# Sorting, deduplication and binary search

A list is sorted and stripped of consecutive repetitions once, and then
searched by halving.  The search finds exactly the members of the original
list.
-/

namespace SortedSearch

variable {α : Type*} [LinearOrder α]

/-- Sort, then drop every element equal to its predecessor. -/
def sortDedup (values : List α) : List α :=
  (values.insertionSort (· ≤ ·)).destutter (· ≠ ·)

/-- Halving search of the index range from `low` up to `high`. -/
def searchBetween (values : List α) (wanted : α) : Nat → Nat → Nat → Option Nat
  | 0, _, _ => none
  | fuel + 1, low, high =>
      if low < high then
        match values[(low + high) / 2]? with
        | none => none
        | some found =>
            if found = wanted then some ((low + high) / 2)
            else if found < wanted then
              searchBetween values wanted fuel ((low + high) / 2 + 1) high
            else searchBetween values wanted fuel low ((low + high) / 2)
      else none

/-- An index holding `wanted`, when there is one.  The range shrinks at every
step, so its length is enough fuel. -/
def binarySearch (values : List α) (wanted : α) : Option Nat :=
  searchBetween values wanted (values.length + 1) 0 values.length

theorem pairwise_sortDedup (values : List α) :
    (sortDedup values).Pairwise (· < ·) := by
  have sortedDedup : (sortDedup values).Pairwise (· ≤ ·) :=
    (List.pairwise_insertionSort (· ≤ ·) values).sublist (List.destutter_sublist _ _)
  have distinct : (sortDedup values).IsChain (· ≠ ·) :=
    List.isChain_destutter _ _
  have strict : (sortDedup values).IsChain (· < ·) := by
    refine List.isChain_iff_getElem.mpr fun index bound => ?_
    have below := List.pairwise_iff_getElem.mp sortedDedup index (index + 1)
      (by omega) (by omega) (by omega)
    exact lt_of_le_of_ne below (List.isChain_iff_getElem.mp distinct index bound)
  exact List.isChain_iff_pairwise.mp strict

theorem mem_sortDedup (values : List α) (value : α) :
    value ∈ sortDedup values ↔ value ∈ values := by
  rw [sortDedup, (List.pairwise_insertionSort (· ≤ ·) values).destutter_eq_dedup]
  simp

theorem searchBetween_sound {values : List α} {wanted : α} {fuel low high index : Nat}
    (found : searchBetween values wanted fuel low high = some index) :
    values[index]? = some wanted := by
  induction fuel generalizing low high with
  | zero => simp [searchBetween] at found
  | succ fuel ih =>
      simp only [searchBetween] at found
      split at found
      · split at found
        · simp at found
        next middle atMiddle =>
          split at found
          next equal =>
            simp only [Option.some.injEq] at found
            rw [← found, atMiddle, equal]
          next =>
            split at found <;> exact ih found
      · simp at found

theorem searchBetween_complete {values : List α} {wanted : α}
    (sorted : values.Pairwise (· < ·)) {fuel low high index : Nat}
    (enough : high - low < fuel) (highBound : high ≤ values.length)
    (lower : low ≤ index) (upper : index < high)
    (atIndex : values[index]? = some wanted) :
    (searchBetween values wanted fuel low high).isSome = true := by
  induction fuel generalizing low high with
  | zero => omega
  | succ fuel ih =>
      have middleBound : (low + high) / 2 < values.length := by omega
      have indexBound : index < values.length := by omega
      have wantedEq : values[index] = wanted := by
        simpa [List.getElem?_eq_getElem indexBound] using atIndex
      simp only [searchBetween, if_pos (show low < high by omega),
        List.getElem?_eq_getElem middleBound]
      split
      next => rfl
      next different =>
        have order (first second : Nat) (firstBound : first < values.length)
            (secondBound : second < values.length) (less : first < second) :
            values[first] < values[second] :=
          List.pairwise_iff_getElem.mp sorted first second firstBound secondBound less
        split
        next less =>
          have above : (low + high) / 2 < index := by
            rcases Nat.lt_trichotomy index ((low + high) / 2) with before | equal | after
            · have := order index ((low + high) / 2) indexBound middleBound before
              rw [wantedEq] at this
              exact absurd less (lt_asymm this)
            · subst equal
              exact absurd wantedEq different
            · exact after
          exact ih (by omega) highBound (by omega) upper
        next notLess =>
          have below : index < (low + high) / 2 := by
            rcases Nat.lt_trichotomy index ((low + high) / 2) with before | equal | after
            · exact before
            · subst equal
              exact absurd wantedEq different
            · have := order ((low + high) / 2) index middleBound indexBound after
              rw [wantedEq] at this
              exact absurd this notLess
          exact ih (by omega) (by omega) lower below

/-- On a strictly sorted list the search succeeds exactly on the members. -/
theorem isSome_binarySearch_iff {values : List α}
    (sorted : values.Pairwise (· < ·)) (wanted : α) :
    (binarySearch values wanted).isSome = true ↔ wanted ∈ values := by
  constructor
  · intro found
    obtain ⟨index, atIndex⟩ := Option.isSome_iff_exists.mp found
    exact List.mem_of_getElem? (searchBetween_sound atIndex)
  · intro member
    obtain ⟨index, atIndex⟩ := List.mem_iff_getElem?.mp member
    have bound : index < values.length := (List.getElem?_eq_some_iff.mp atIndex).1
    exact searchBetween_complete sorted (by omega) le_rfl (Nat.zero_le _) bound atIndex

end SortedSearch
