import Fips2Go.ExclusiveSlot

/-!
# What a lock protects

Some locations own a lock, and the lock protects a resource.  While it is free,
the resource is as a condition at rest says; while a thread owns it, the
resource fits the location of that thread.  This file shows that the moves of
threads and the changes from outside keep this, each from what it does to the
resource.
-/

namespace LockInvariant

open ExclusiveSlot

variable {Thread Location Resource : Type*}

/-- `fits` relates the owner's location to the resource, and `rest` holds of a
resource that nobody owns. -/
structure Protected (owns : Location → Prop) (fits : Location → Resource → Prop)
    (rest : Resource → Prop) (taken : Bool) (place : Thread → Location)
    (resource : Resource) : Prop where
  exclusive : Exclusive owns taken place
  held : ∀ thread, owns (place thread) → fits (place thread) resource
  free : taken = false → rest resource

namespace Protected

variable {owns : Location → Prop} {fits : Location → Resource → Prop} {rest : Resource → Prop}
  {taken : Bool} {place : Thread → Location} {resource next : Resource}

theorem initial (nobody : ∀ thread, ¬ owns (place thread)) (resting : rest resource) :
    Protected owns fits rest false place resource where
  exclusive := Exclusive.initial nobody
  held thread owner := absurd owner (nobody thread)
  free _ := resting

/-- A change that no owner has made. -/
theorem outside (protect : Protected owns fits rest taken place resource)
    (kept : ∀ location, fits location resource → fits location next)
    (resting : rest resource → rest next) :
    Protected owns fits rest taken place next where
  exclusive := protect.exclusive
  held thread owner := kept _ (protect.held thread owner)
  free notTaken := resting (protect.free notTaken)

theorem taken_of_owns (protect : Protected owns fits rest taken place resource)
    {thread : Thread} (owner : owns (place thread)) : taken = true :=
  protect.exclusive.taken_iff.mpr ⟨thread, owner⟩

variable [DecidableEq Thread] {thread : Thread} {location : Location}

/-- The owner changes the resource on its way to another location. -/
theorem move (protect : Protected owns fits rest taken place resource)
    (owner : owns (place thread)) (still : owns location) (changed : fits location next) :
    Protected owns fits rest taken (Function.update place thread location) next where
  exclusive := protect.exclusive.move (iff_of_true still owner)
  held other holds := by
    by_cases own : other = thread
    · subst own
      rwa [Function.update_self]
    · rw [Function.update_of_ne own] at holds
      exact absurd (protect.exclusive.unique other thread holds owner) own
  free notTaken := by
    rw [protect.taken_of_owns owner] at notTaken
    cases notTaken

/-- Another thread moves about. -/
theorem pass (protect : Protected owns fits rest taken place resource)
    (outsider : ¬ owns (place thread)) (still : ¬ owns location) :
    Protected owns fits rest taken (Function.update place thread location) resource where
  exclusive := protect.exclusive.move (iff_of_false still outsider)
  held other holds := by
    by_cases own : other = thread
    · subst own
      rw [Function.update_self] at holds
      exact absurd holds still
    · rw [Function.update_of_ne own] at holds ⊢
      exact protect.held other holds
  free := protect.free

theorem acquire (protect : Protected owns fits rest false place resource)
    (owner : owns location) (changed : fits location resource) :
    Protected owns fits rest true (Function.update place thread location) resource where
  exclusive := protect.exclusive.acquire owner
  held other holds := by
    by_cases own : other = thread
    · subst own
      rwa [Function.update_self]
    · rw [Function.update_of_ne own] at holds
      exact absurd holds protect.exclusive.free
  free notTaken := by cases notTaken

theorem release (protect : Protected owns fits rest taken place resource)
    (owner : owns (place thread)) (left : ¬ owns location) (resting : rest resource) :
    Protected owns fits rest false (Function.update place thread location) resource where
  exclusive := protect.exclusive.release owner left
  held other holds := by
    have exclusive := protect.exclusive.release owner left
    exact absurd holds exclusive.free
  free _ := resting

end Protected

end LockInvariant
