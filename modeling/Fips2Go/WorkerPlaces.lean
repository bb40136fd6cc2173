import Mathlib.Data.List.Basic

/-!
# Workers and what they hold

Workers stand at places, a new one at the end of the list.  Some places hold a
share of a counter, and some own an item that no other worker owns.  This file
says what the move of one worker does to the number of shares, to the owners and
to a condition that every place satisfies.
-/

namespace WorkerPlaces

variable {Place Item : Type*} {places : List Place} {worker : Nat} {before after : Place}

theorem lt_of_found (found : places[worker]? = some before) : worker < places.length :=
  (List.getElem?_eq_some_iff.mp found).1

/-! ### Shares of a counter -/

section Shares

variable {holds : Place → Bool}

theorem shares_append (place : Place) :
    (places ++ [place]).countP holds = places.countP holds + (if holds place then 1 else 0) := by
  rw [List.countP_append, List.countP_cons, List.countP_nil, Nat.zero_add]

theorem shares_move (found : places[worker]? = some before) :
    (places.set worker after).countP holds + (if holds before then 1 else 0) =
      places.countP holds + (if holds after then 1 else 0) := by
  obtain ⟨within, rfl⟩ := List.getElem?_eq_some_iff.mp found
  rw [List.countP_set within]
  have share : (if holds places[worker] then 1 else 0) ≤ places.countP holds := by
    by_cases held : holds places[worker] = true
    · rw [if_pos held]
      exact List.countP_pos_iff.mpr ⟨_, List.getElem_mem within, held⟩
    · rw [if_neg held]
      exact Nat.zero_le _
  omega

/-- A worker that neither takes nor gives back a share. -/
theorem shares_stay (found : places[worker]? = some before) (same : holds after = holds before) :
    (places.set worker after).countP holds = places.countP holds := by
  have moved : (places.set worker after).countP holds + (if holds before then 1 else 0) =
      places.countP holds + (if holds after then 1 else 0) := shares_move found
  rw [same] at moved
  omega

theorem shares_giveBack (found : places[worker]? = some before) (held : holds before = true)
    (left : holds after = false) :
    (places.set worker after).countP holds + 1 = places.countP holds := by
  have moved : (places.set worker after).countP holds + (if holds before then 1 else 0) =
      places.countP holds + (if holds after then 1 else 0) := shares_move found
  rw [held, left] at moved
  exact moved

end Shares

/-! ### A condition on every place -/

theorem forall_append {condition : Place → Prop} (all : ∀ place ∈ places, condition place)
    {place : Place} (new : condition place) : ∀ other ∈ places ++ [place], condition other := by
  intro other member
  rcases List.mem_append.mp member with old | last
  · exact all other old
  · exact List.mem_singleton.mp last ▸ new

theorem forall_set {condition : Place → Prop} (all : ∀ place ∈ places, condition place)
    (new : condition after) : ∀ place ∈ places.set worker after, condition place := by
  intro other member
  rcases List.mem_or_eq_of_mem_set member with old | rfl
  · exact all other old
  · exact new

/-! ### Items -/

section Items

variable {item : Place → Option Item}

/-- No item has two owners. -/
def Sole (item : Place → Option Item) (places : List Place) : Prop :=
  ∀ (first second : Nat) (owned : Item), places[first]?.bind item = some owned →
    places[second]?.bind item = some owned → first = second

theorem Sole.nil : Sole item [] := by
  intro first second owned owns
  simp at owns

theorem Sole.append (sole : Sole item places) {place : Place} (none : item place = none) :
    Sole item (places ++ [place]) := by
  have old : ∀ (index : Nat) (owned : Item), (places ++ [place])[index]?.bind item = some owned →
      places[index]?.bind item = some owned := by
    intro index owned owns
    by_cases within : index < places.length
    · rwa [List.getElem?_append_left within] at owns
    · rw [List.getElem?_append_right (Nat.le_of_not_lt within)] at owns
      rcases Nat.eq_zero_or_pos (index - places.length) with zero | positive
      · rw [zero] at owns
        simp [none] at owns
      · rw [List.getElem?_eq_none (Nat.succ_le_of_lt positive)] at owns
        simp at owns
  exact fun first second owned owns owns' => sole first second owned (old _ _ owns) (old _ _ owns')

/-- A worker moves with what it owned, or without it, or takes what nobody owned. -/
theorem Sole.set (sole : Sole item places) (found : places[worker]? = some before)
    (kept : ∀ owned, item after = some owned →
      item before = some owned ∨ ∀ place ∈ places, item place ≠ some owned) :
    Sole item (places.set worker after) := by
  have others : ∀ (index : Nat) (owned : Item),
      (places.set worker after)[index]?.bind item = some owned →
      (index = worker ∧ item after = some owned) ∨
        (index ≠ worker ∧ places[index]?.bind item = some owned) := by
    intro index owned owns
    by_cases same : index = worker
    · subst same
      rw [List.getElem?_set_self (lt_of_found found)] at owns
      exact .inl ⟨rfl, owns⟩
    · rw [List.getElem?_set_ne (Ne.symm same)] at owns
      exact .inr ⟨same, owns⟩
  have excluded : ∀ (index : Nat) (owned : Item), index ≠ worker →
      places[index]?.bind item = some owned → item after ≠ some owned := by
    intro index owned distinct owns takes
    rcases kept owned takes with had | nobody
    · exact distinct (sole index worker owned owns (by rw [found]; exact had))
    · obtain ⟨place, stands, holds⟩ := Option.bind_eq_some_iff.mp owns
      exact nobody place (List.mem_of_getElem? stands) holds
  intro first second owned owns owns'
  rcases others first owned owns with ⟨rfl, takes⟩ | ⟨distinct, had⟩
  · rcases others second owned owns' with ⟨rfl, _⟩ | ⟨distinct', had'⟩
    · rfl
    · exact absurd takes (excluded second owned distinct' had')
  · rcases others second owned owns' with ⟨rfl, takes'⟩ | ⟨distinct', had'⟩
    · exact absurd takes' (excluded first owned distinct had)
    · exact sole first second owned had had'

end Items

end WorkerPlaces
