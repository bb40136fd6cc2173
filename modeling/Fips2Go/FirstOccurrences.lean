import Mathlib.Data.List.Basic
import Mathlib.Data.List.Nodup

/-!
# First occurrences

The distinct values of a list in the order of their first occurrences.  If the
list is ranked, so are they: what comes first precedes what first comes later.
-/

namespace FirstOccurrences

variable {α β : Type*} [DecidableEq α]

/-- The values that are not seen yet, each where it occurs first. -/
def firsts : List α → List α → List α
  | _, [] => []
  | seen, value :: values =>
      if value ∈ seen then firsts seen values else value :: firsts (value :: seen) values

theorem firsts_of_mem {seen : List α} {value : α} (known : value ∈ seen) (values : List α) :
    firsts seen (value :: values) = firsts seen values :=
  if_pos known

theorem firsts_of_not_mem {seen : List α} {value : α} (fresh : value ∉ seen)
    (values : List α) :
    firsts seen (value :: values) = value :: firsts (value :: seen) values :=
  if_neg fresh

theorem mem_firsts {seen values : List α} {value : α} :
    value ∈ firsts seen values ↔ value ∈ values ∧ value ∉ seen := by
  induction values generalizing seen with
  | nil => simp [firsts]
  | cons first values ih =>
      by_cases known : first ∈ seen
      · rw [firsts_of_mem known, ih, List.mem_cons]
        constructor
        · rintro ⟨later, fresh⟩
          exact ⟨Or.inr later, fresh⟩
        · rintro ⟨rfl | later, fresh⟩
          · exact absurd known fresh
          · exact ⟨later, fresh⟩
      · rw [firsts_of_not_mem known, List.mem_cons, ih, List.mem_cons, List.mem_cons, not_or]
        constructor
        · rintro (rfl | ⟨later, -, fresh⟩)
          · exact ⟨Or.inl rfl, known⟩
          · exact ⟨Or.inr later, fresh⟩
        · rintro ⟨here | later, fresh⟩
          · exact Or.inl here
          · by_cases same : value = first
            · exact Or.inl same
            · exact Or.inr ⟨later, same, fresh⟩

theorem nodup_firsts (seen values : List α) : (firsts seen values).Nodup := by
  induction values generalizing seen with
  | nil => exact List.nodup_nil
  | cons first values ih =>
      by_cases known : first ∈ seen
      · rw [firsts_of_mem known]
        exact ih seen
      · rw [firsts_of_not_mem known]
        refine List.nodup_cons.mpr ⟨?_, ih _⟩
        rw [mem_firsts]
        exact fun both => both.2 List.mem_cons_self

/-- First occurrences are in an order that every first occurrence is in with
what first occurs behind it. -/
theorem pairwise_firsts (key : β → α) {before : α → α → Prop} {seen : List α} {items : List β}
    (ranked : ∀ early item late, items = early ++ item :: late →
      key item ∉ seen → key item ∉ early.map key →
      ∀ other ∈ late, key other ∉ seen → key other ∉ early.map key → key other ≠ key item →
        before (key item) (key other)) :
    (firsts seen (items.map key)).Pairwise before := by
  induction items generalizing seen with
  | nil => exact List.Pairwise.nil
  | cons first items ih =>
      rw [List.map_cons]
      by_cases known : key first ∈ seen
      · rw [firsts_of_mem known]
        apply ih
        intro early item late split fresh unseen other behind freshOther unseenOther different
        have apart {item : β} (fresh : key item ∉ seen) (unseen : key item ∉ early.map key) :
            key item ∉ (first :: early).map key := by
          rw [List.map_cons, List.mem_cons, not_or]
          exact ⟨fun same => fresh (same ▸ known), unseen⟩
        exact ranked (first :: early) item late (by rw [split, List.cons_append]) fresh
          (apart fresh unseen) other behind freshOther (apart freshOther unseenOther) different
      · rw [firsts_of_not_mem known]
        refine List.pairwise_cons.mpr ⟨?_, ?_⟩
        · intro value member
          obtain ⟨later, fresh⟩ := mem_firsts.mp member
          rw [List.mem_cons, not_or] at fresh
          obtain ⟨other, behind, rfl⟩ := List.mem_map.mp later
          exact ranked [] first items rfl known (by simp) other behind fresh.2 (by simp) fresh.1
        · apply ih
          intro early item late split fresh unseen other behind freshOther unseenOther different
          rw [List.mem_cons, not_or] at fresh freshOther
          refine ranked (first :: early) item late (by rw [split, List.cons_append]) fresh.2 ?_
            other behind freshOther.2 ?_ different
          · rw [List.map_cons, List.mem_cons, not_or]
            exact ⟨fresh.1, unseen⟩
          · rw [List.map_cons, List.mem_cons, not_or]
            exact ⟨freshOther.1, unseenOther⟩

end FirstOccurrences
