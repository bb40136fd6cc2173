import Mathlib.Logic.Function.Basic

/-!
# A slot that one thread holds at a time

Threads stand at control locations, and some locations own a slot whose flag
tells whether it is taken.  This file states that the flag is right and that no
two threads own the slot, and shows that moves keep both: moves that do not
touch the slot, its acquisition and release, and handing it to another thread.
Then the same of a flag that parties of any kind claim and hand on.
-/

namespace ExclusiveSlot

variable {Thread Location : Type*}

/-- The flag tells whether some thread owns the slot, and only one does. -/
structure Exclusive (owns : Location → Prop) (taken : Bool) (place : Thread → Location) :
    Prop where
  taken_iff : taken = true ↔ ∃ thread, owns (place thread)
  unique : ∀ first second, owns (place first) → owns (place second) → first = second

namespace Exclusive

variable {owns : Location → Prop} {taken : Bool} {place : Thread → Location}
  {thread : Thread} {location : Location}

theorem initial (nobody : ∀ thread, ¬ owns (place thread)) : Exclusive owns false place where
  taken_iff := by simp [nobody]
  unique first _ owner := absurd owner (nobody first)

theorem free (exclusive : Exclusive owns false place) : ¬ owns (place thread) := fun owner =>
  Bool.false_ne_true (exclusive.taken_iff.mpr ⟨thread, owner⟩)

variable [DecidableEq Thread]

/-- Who owns the slot after one thread has moved. -/
theorem owns_update (owns : Location → Prop) (thread other : Thread) (location : Location) :
    owns (Function.update place thread location other) ↔
      (other = thread ∧ owns location) ∨ (other ≠ thread ∧ owns (place other)) := by
  by_cases same : other = thread
  · subst same
    simp
  · simp [same]

/-- A thread that neither takes nor gives up the slot. -/
theorem move (exclusive : Exclusive owns taken place)
    (same : owns location ↔ owns (place thread)) :
    Exclusive owns taken (Function.update place thread location) := by
  have unchanged (other : Thread) :
      owns (Function.update place thread location other) ↔ owns (place other) := by
    rw [owns_update owns, same]
    by_cases own : other = thread
    · simp [own]
    · simp [own]
  constructor
  · simpa only [unchanged] using exclusive.taken_iff
  · simpa only [unchanged] using exclusive.unique

theorem acquire (exclusive : Exclusive owns false place) (owner : owns location) :
    Exclusive owns true (Function.update place thread location) where
  taken_iff := ⟨fun _ => ⟨thread, by simpa using owner⟩, fun _ => rfl⟩
  unique first second firstOwner secondOwner := by
    rw [owns_update owns] at firstOwner secondOwner
    rcases firstOwner with ⟨first, _⟩ | ⟨_, first⟩
    · rcases secondOwner with ⟨second, _⟩ | ⟨_, second⟩
      · rw [first, second]
      · exact absurd second exclusive.free
    · exact absurd first exclusive.free

theorem release (exclusive : Exclusive owns taken place) (owner : owns (place thread))
    (left : ¬ owns location) :
    Exclusive owns false (Function.update place thread location) := by
  refine initial fun other remains => ?_
  rcases (owns_update owns thread other location).mp remains with ⟨_, still⟩ | ⟨distinct, still⟩
  · exact left still
  · exact distinct (exclusive.unique other thread still owner)

/-- The owner gives the slot to another thread without freeing it. -/
theorem handOver (exclusive : Exclusive owns taken place) (owner : owns (place thread))
    (left : ¬ owns location) {heir : Thread} {inherited : Location}
    (inherits : owns inherited) :
    Exclusive owns taken
      (Function.update (Function.update place thread location) heir inherited) := by
  have held : taken = true := exclusive.taken_iff.mpr ⟨thread, owner⟩
  rw [held]
  exact (exclusive.release owner left).acquire inherits

end Exclusive

/-! ### A flag claimed by one party at a time -/

variable {Party : Type*}

/-- Whoever holds the flag has set it, and nobody else holds it; the flag itself may
outlive its holder. -/
structure SoleHolder (holds : Party → Prop) (flag : Bool) : Prop where
  set : ∀ party, holds party → flag = true
  alone : ∀ party other, holds party → holds other → party = other

namespace SoleHolder

variable {holds after : Party → Prop} {flag : Bool}

theorem mono (sole : SoleHolder holds flag) (fewer : ∀ party, after party → holds party) :
    SoleHolder after flag where
  set party holding := sole.set party (fewer party holding)
  alone party other holding othersToo :=
    sole.alone party other (fewer party holding) (fewer other othersToo)

/-- The flag is set by the one party that holds it from then on. -/
theorem claim (sole : SoleHolder holds false) (claimant : Party)
    (joins : ∀ party, after party → party = claimant ∨ holds party) : SoleHolder after true where
  set _ _ := rfl
  alone := by
    have only (party : Party) (holding : after party) : party = claimant := by
      rcases joins party holding with own | held
      · exact own
      · cases sole.set party held
    exact fun party other holding othersToo =>
      (only party holding).trans (only other othersToo).symm

/-- The flag is handed on. -/
theorem pass (sole : SoleHolder holds flag) {giver : Party} (held : holds giver)
    (taker : Party) (moves : ∀ party, after party → party = taker ∨ holds party ∧ party ≠ giver) :
    SoleHolder after flag where
  set _ _ := sole.set giver held
  alone := by
    have only (party : Party) (holding : after party) : party = taker := by
      rcases moves party holding with own | ⟨held', other⟩
      · exact own
      · exact absurd (sole.alone party giver held' held) other
    exact fun party other holding othersToo =>
      (only party holding).trans (only other othersToo).symm

/-- Whoever holds the flag clears it. -/
theorem release (sole : SoleHolder holds flag) {giver : Party} (held : holds giver)
    (leaves : ∀ party, after party → holds party ∧ party ≠ giver) (party : Party) :
    ¬after party := by
  intro holding
  obtain ⟨held', other⟩ := leaves party holding
  exact other (sole.alone party giver held' held)

end SoleHolder

end ExclusiveSlot
