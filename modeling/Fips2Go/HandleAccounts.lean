import Mathlib.Logic.Function.Basic

/-!
# Handles that are given back once

Handles are numbered as they are made, and it is counted how often each was
given back.  The accounts balance where the handles that are out are those that
somebody owns, and no other was given back twice.
-/

namespace HandleAccounts

/-- `next` is the number of the next handle. -/
structure Balanced (returned : Nat → Nat) (next : Nat) (owned : Nat → Prop) : Prop where
  made : ∀ handle, owned handle → handle < next
  out : ∀ handle, owned handle → returned handle = 0
  once : ∀ handle, returned handle ≤ 1
  kept : ∀ handle < next, returned handle = 0 → owned handle
  unmade : ∀ handle, next ≤ handle → returned handle = 0

namespace Balanced

variable {returned returned' : Nat → Nat} {next : Nat} {owned owned' : Nat → Prop}

theorem initial : Balanced (fun _ => 0) 0 fun _ => False where
  made _ isOwned := isOwned.elim
  out _ isOwned := isOwned.elim
  once _ := Nat.zero_le 1
  kept handle less := absurd less (Nat.not_lt_zero handle)
  unmade _ _ := rfl

theorem owned_iff (balanced : Balanced returned next owned) (handle : Nat) :
    owned handle ↔ handle < next ∧ returned handle = 0 :=
  ⟨fun isOwned => ⟨balanced.made handle isOwned, balanced.out handle isOwned⟩,
    fun isOut => balanced.kept handle isOut.1 isOut.2⟩

/-- The handles change hands only. -/
theorem congr (balanced : Balanced returned next owned)
    (same : ∀ handle, owned' handle ↔ owned handle) : Balanced returned next owned' := by
  have same : owned' = owned := funext fun handle => propext (same handle)
  rwa [same]

theorem acquire (balanced : Balanced returned next owned)
    (more : ∀ handle, owned' handle ↔ handle = next ∨ owned handle) :
    Balanced returned (next + 1) owned' where
  made handle isOwned := by
    rcases (more handle).mp isOwned with rfl | before
    · exact Nat.lt_succ_self _
    · exact Nat.lt_succ_of_lt (balanced.made handle before)
  out handle isOwned := by
    rcases (more handle).mp isOwned with rfl | before
    · exact balanced.unmade _ (Nat.le_refl _)
    · exact balanced.out handle before
  once := balanced.once
  kept handle less isOut := by
    rcases Nat.lt_succ_iff_lt_or_eq.mp less with less | same
    · exact (more handle).mpr (.inr (balanced.kept handle less isOut))
    · exact (more handle).mpr (.inl same)
  unmade handle atLeast := balanced.unmade handle (Nat.le_of_succ_le atLeast)

theorem giveBack (balanced : Balanced returned next owned) {gone : Nat} (isOwned : owned gone)
    (others : ∀ handle, owned' handle ↔ owned handle ∧ handle ≠ gone)
    (back : returned' gone = returned gone + 1)
    (unchanged : ∀ handle, handle ≠ gone → returned' handle = returned handle) :
    Balanced returned' next owned' where
  made handle still := balanced.made handle ((others handle).mp still).1
  out handle still := by
    obtain ⟨before, other⟩ := (others handle).mp still
    rw [unchanged handle other, balanced.out handle before]
  once handle := by
    by_cases same : handle = gone
    · have one : returned' gone = 1 := by rw [back, balanced.out gone isOwned]
      exact same ▸ Nat.le_of_eq one
    · rw [unchanged handle same]
      exact balanced.once handle
  kept handle less isOut := by
    by_cases same : handle = gone
    · rw [same, back] at isOut
      cases isOut
    · rw [unchanged handle same] at isOut
      exact (others handle).mpr ⟨balanced.kept handle less isOut, same⟩
  unmade handle atLeast := by
    have other : handle ≠ gone := by
      rintro rfl
      exact Nat.not_lt.mpr atLeast (balanced.made handle isOwned)
    rw [unchanged handle other]
    exact balanced.unmade handle atLeast

end Balanced

end HandleAccounts
