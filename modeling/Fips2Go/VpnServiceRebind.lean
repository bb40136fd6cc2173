import Fips2Go.ExclusiveSlot
import Fips2Go.GuardedRuns
import Mathlib.Data.List.Basic

/-!
# Queued rebinds

`rebindNode` of `FipsVpnService.kt` with the worker that it starts, for any
number of callers.  A thread stands at one of the locations below; a step is
one access to a flag, the start or the end of a pass, or the start of a worker.
Settling is a pause, which any schedule may hold at that place.  Requests and
passes are logged as they happen.
-/

namespace Fips2Go.VpnService.Rebind

open GuardedRuns ExclusiveSlot

abbrev Thread := Nat

/-- Where a thread stands.  A thread that is `outside` is neither in
`rebindNode` nor a worker. -/
inductive Location where
  | outside
  /-- In `rebindNode`: before setting `rebindRequested`, before trying for
  `rebinding`, and before starting the worker. -/
  | request
  | acquire
  | launch
  /-- In the worker's loop, up to the release of `rebinding`. -/
  | look
  | clear
  | begin
  | pass
  | release
  /-- In the worker, after that release. -/
  | lookAgain
  | reacquire
  deriving DecidableEq

inductive Event where
  | request (thread : Thread)
  | start (thread : Thread)
  deriving DecidableEq

structure State where
  rebindRequested : Bool
  rebinding : Bool
  place : Thread → Location
  log : List Event

/-- A thread calls `rebindNode`, a thread moves on, or a thread that is about
to starts `worker`. -/
inductive Move where
  | call (thread : Thread)
  | go (thread : Thread)
  | launch (thread worker : Thread)
  deriving DecidableEq

def State.put (state : State) (thread : Thread) (location : Location) : State :=
  { state with place := Function.update state.place thread location }

/-- `rebinding.compareAndSet(false, true)`, and where its two answers lead. -/
def State.compareAndSet (state : State) (thread : Thread) (won lost : Location) : State :=
  if state.rebinding then state.put thread lost
  else { state with rebinding := true }.put thread won

def State.go (state : State) (thread : Thread) : Option State :=
  match state.place thread with
  | .outside | .launch => none
  | .request =>
      some ({ state with
        rebindRequested := true
        log := state.log ++ [Event.request thread] }.put thread .acquire)
  | .acquire => some (state.compareAndSet thread .launch .outside)
  | .look => some (state.put thread (if state.rebindRequested then .clear else .release))
  | .clear => some ({ state with rebindRequested := false }.put thread .begin)
  | .begin => some ({ state with log := state.log ++ [Event.start thread] }.put thread .pass)
  | .pass => some (state.put thread .look)
  | .release => some ({ state with rebinding := false }.put thread .lookAgain)
  | .lookAgain =>
      some (state.put thread (if state.rebindRequested then .reacquire else .outside))
  | .reacquire => some (state.compareAndSet thread .look .outside)

def step (state : State) : Move → Option State
  | .call thread =>
      if state.place thread = .outside then some (state.put thread .request) else none
  | .go thread => state.go thread
  | .launch thread worker =>
      if state.place thread = .launch ∧ state.place worker = .outside then
        some ((state.put thread .outside).put worker .look)
      else none

def initial : State where
  rebindRequested := false
  rebinding := false
  place := fun _ => .outside
  log := []

/-- Between acquiring and releasing the worker's slot. -/
def Location.Holds : Location → Prop
  | .launch | .look | .clear | .begin | .pass | .release => True
  | _ => False

instance : DecidablePred Location.Holds
  | .launch | .look | .clear | .begin | .pass | .release => isTrue trivial
  | .outside | .request | .acquire | .lookAgain | .reacquire => isFalse id

/-- Holding the slot, or still to look whether there is work to take it for. -/
def Location.Attends : Location → Prop
  | .outside | .request => False
  | _ => True

/-- Every request was followed by a pass that started after it. -/
def Served (log : List Event) : Prop :=
  ∀ before thread after, log = before ++ Event.request thread :: after →
    ∃ worker, Event.start worker ∈ after

/-- No caller is in `rebindNode` and no worker is alive. -/
def State.Quiescent (state : State) : Prop := ∀ thread, state.place thread = .outside

/-! ### What every step keeps -/

theorem Served.nil : Served [] := by
  intro before thread after split
  cases before <;> cases split

theorem Served.snoc_start (log : List Event) (worker : Thread) :
    Served (log ++ [Event.start worker]) := by
  intro before thread after split
  rcases List.eq_nil_or_concat after with rfl | ⟨earlier, last, rfl⟩
  · have ends := List.append_inj_right' split rfl
    cases ends
  · rw [List.concat_eq_append, ← List.cons_append, ← List.append_assoc] at split
    have ends := List.append_inj_right' split rfl
    rw [List.cons.injEq] at ends
    exact ⟨worker, by simp [ends.1]⟩

/-- Requests that no pass has picked up are still asked for, or the pass that
picked them up is about to start; and somebody attends to what is asked for. -/
structure Invariant (state : State) : Prop where
  slot : Exclusive Location.Holds state.rebinding state.place
  attended : state.rebindRequested = true → ∃ thread, (state.place thread).Attends
  served : state.rebindRequested = false → (∀ thread, state.place thread ≠ .begin) →
    Served state.log

@[simp] theorem State.put_place (state : State) (thread : Thread) (location : Location) :
    (state.put thread location).place = Function.update state.place thread location := rfl

@[simp] theorem State.put_requested (state : State) (thread : Thread) (location : Location) :
    (state.put thread location).rebindRequested = state.rebindRequested := rfl

@[simp] theorem State.put_rebinding (state : State) (thread : Thread) (location : Location) :
    (state.put thread location).rebinding = state.rebinding := rfl

@[simp] theorem State.put_log (state : State) (thread : Thread) (location : Location) :
    (state.put thread location).log = state.log := rfl

theorem Location.Holds.attends {location : Location} (holds : location.Holds) :
    location.Attends := by
  cases location <;> trivial

namespace Invariant

variable {state next : State}

theorem initial : Invariant initial where
  slot := Exclusive.initial fun _ => id
  attended requested := by cases requested
  served _ _ := Served.nil

section Put

variable {thread : Thread} {location : Location}

/-- A move to another location, with the flags and the log as they are. -/
theorem put (invariant : Invariant state)
    (slot : Exclusive Location.Holds state.rebinding
      (Function.update state.place thread location))
    (attended : state.rebindRequested = true →
      location.Attends ∨ ∃ other ≠ thread, (state.place other).Attends)
    (before : state.place thread ≠ .begin) : Invariant (state.put thread location) where
  slot := slot
  attended requested := by
    rcases attended requested with attends | ⟨other, distinct, attends⟩
    · exact ⟨thread, by simpa using attends⟩
    · exact ⟨other, by simpa [distinct] using attends⟩
  served idle none := by
    refine invariant.served idle fun other begins => ?_
    by_cases own : other = thread
    · exact before (own ▸ begins)
    · exact none other (by simpa [own] using begins)

/-- A move between locations that both hold the slot or both do not. -/
theorem keep (invariant : Invariant state)
    (same : location.Holds ↔ (state.place thread).Holds)
    (attended : state.rebindRequested = true →
      location.Attends ∨ ∃ other ≠ thread, (state.place other).Attends)
    (before : state.place thread ≠ .begin) : Invariant (state.put thread location) :=
  invariant.put (invariant.slot.move same) attended before

/-- Either flag answer of `compareAndSet` leaves somebody to attend: the loser
leaves because another thread holds the slot. -/
theorem compareAndSet (invariant : Invariant state) {won : Location} (owner : won.Holds)
    (outsider : ¬ (state.place thread).Holds) :
    Invariant (state.compareAndSet thread won .outside) := by
  have before : state.place thread ≠ .begin := by
    intro begins
    rw [begins] at outsider
    exact outsider trivial
  unfold State.compareAndSet
  cases taken : state.rebinding with
  | true =>
      refine invariant.keep (iff_of_false id outsider) (fun _ => .inr ?_) before
      obtain ⟨holder, holds⟩ := invariant.slot.taken_iff.mp taken
      refine ⟨holder, ?_, holds.attends⟩
      rintro rfl
      exact outsider holds
  | false =>
      have slot := invariant.slot
      rw [taken] at slot
      constructor
      · exact slot.acquire owner
      · exact fun _ => ⟨thread, by simpa using owner.attends⟩
      · intro idle none
        refine invariant.served idle fun other begins => ?_
        by_cases own : other = thread
        · exact before (own ▸ begins)
        · exact none other (by simpa [own] using begins)

end Put

theorem go (invariant : Invariant state) {thread : Thread}
    (stepTo : state.go thread = some next) : Invariant next := by
  unfold State.go at stepTo
  cases location : state.place thread with
  | outside => simp [location] at stepTo
  | launch => simp [location] at stepTo
  | request =>
      simp only [location, Option.some.injEq] at stepTo
      subst stepTo
      refine ⟨invariant.slot.move (by rw [location]; exact Iff.rfl), fun _ => ⟨thread, ?_⟩, ?_⟩
      · simp [Location.Attends]
      · intro idle
        cases idle
  | acquire =>
      simp only [location, Option.some.injEq] at stepTo
      subst stepTo
      exact invariant.compareAndSet trivial (by rw [location]; exact id)
  | look =>
      simp only [location, Option.some.injEq] at stepTo
      subst stepTo
      refine invariant.keep ?_ ?_ (by simp [location])
      · rw [location]
        split <;> exact Iff.rfl
      · intro requested
        simp [requested, Location.Attends]
  | clear =>
      simp only [location, Option.some.injEq] at stepTo
      subst stepTo
      refine ⟨invariant.slot.move (by rw [location]; exact Iff.rfl), ?_, ?_⟩
      · intro requested
        cases requested
      · intro _ none
        exact absurd (by simp) (none thread)
  | begin =>
      simp only [location, Option.some.injEq] at stepTo
      subst stepTo
      refine ⟨invariant.slot.move (by rw [location]; exact Iff.rfl), fun _ => ⟨thread, ?_⟩, ?_⟩
      · simp [Location.Attends]
      · exact fun _ _ => Served.snoc_start state.log thread
  | pass =>
      simp only [location, Option.some.injEq] at stepTo
      subst stepTo
      exact invariant.keep (by rw [location]; exact Iff.rfl) (fun _ => .inl trivial)
        (by simp [location])
  | release =>
      simp only [location, Option.some.injEq] at stepTo
      subst stepTo
      refine ⟨?_, fun _ => ⟨thread, ?_⟩, ?_⟩
      · exact invariant.slot.release (by rw [location]; trivial) id
      · simp [Location.Attends]
      · intro idle none
        refine invariant.served idle fun other begins => ?_
        by_cases own : other = thread
        · rw [own, location] at begins
          cases begins
        · exact none other (by simpa [own] using begins)
  | lookAgain =>
      simp only [location, Option.some.injEq] at stepTo
      subst stepTo
      refine invariant.keep ?_ ?_ (by simp [location])
      · rw [location]
        split <;> exact Iff.rfl
      · intro requested
        simp [requested, Location.Attends]
  | reacquire =>
      simp only [location, Option.some.injEq] at stepTo
      subst stepTo
      exact invariant.compareAndSet trivial (by rw [location]; exact id)

theorem launch (invariant : Invariant state) {thread worker : Thread}
    (launches : state.place thread = .launch) (unborn : state.place worker = .outside) :
    Invariant ((state.put thread .outside).put worker .look) := by
  have distinct : worker ≠ thread := by
    rintro rfl
    rw [launches] at unborn
    cases unborn
  refine ⟨invariant.slot.handOver (by rw [launches]; trivial) id trivial,
    fun _ => ⟨worker, ?_⟩, ?_⟩
  · simp [Location.Attends]
  · intro idle none
    refine invariant.served idle fun other begins => ?_
    by_cases own : other = thread
    · rw [own, launches] at begins
      cases begins
    · by_cases hired : other = worker
      · rw [hired, unborn] at begins
        cases begins
      · exact none other (by simpa [own, hired] using begins)

theorem step (invariant : Invariant state) {move : Move}
    (stepTo : Rebind.step state move = some next) : Invariant next := by
  cases move with
  | call thread =>
      simp only [Rebind.step] at stepTo
      split at stepTo
      next outside =>
        rw [Option.some.injEq] at stepTo
        subst stepTo
        refine invariant.keep (by rw [outside]; exact Iff.rfl) ?_ (by simp [outside])
        intro requested
        obtain ⟨other, attends⟩ := invariant.attended requested
        refine .inr ⟨other, ?_, attends⟩
        rintro rfl
        rw [outside] at attends
        exact attends
      next => cases stepTo
  | go thread => exact invariant.go stepTo
  | launch thread worker =>
      simp only [Rebind.step] at stepTo
      split at stepTo
      next ready =>
        rw [Option.some.injEq] at stepTo
        subst stepTo
        exact invariant.launch ready.1 ready.2
      next => cases stepTo

theorem run {moves : List Move} (run : Run Rebind.step anyStep Rebind.initial moves state) :
    Invariant state :=
  run.invariant initial fun _ _ _ invariant _ stepTo => invariant.step stepTo

end Invariant

/-- One worker at a time, hence one pass at a time; and when everybody has
left, nothing is asked for and every request had a pass of its own or a later
one's. -/
structure Coalesced (state : State) : Prop where
  oneWorker : ∀ first second, (state.place first).Holds → (state.place second).Holds →
    first = second
  onePass : ∀ first second, state.place first = .pass → state.place second = .pass →
    first = second
  settled : state.Quiescent → state.rebindRequested = false ∧ Served state.log

theorem Invariant.coalesced {state : State} (invariant : Invariant state) :
    Coalesced state where
  oneWorker := invariant.slot.unique
  onePass first second firstPass secondPass :=
    invariant.slot.unique first second (by rw [firstPass]; trivial) (by rw [secondPass]; trivial)
  settled quiescent := by
    have idle : state.rebindRequested = false := by
      by_contra requested
      obtain ⟨thread, attends⟩ := invariant.attended (by simpa using requested)
      rw [quiescent thread] at attends
      exact attends
    refine ⟨idle, invariant.served idle fun thread begins => ?_⟩
    rw [quiescent thread] at begins
    cases begins

/-- In every interleaving of any number of callers and of the workers that
they start, requests are coalesced and none is lost. -/
theorem requests_are_coalesced {moves : List Move} {state : State}
    (run : Run step anyStep initial moves state) : Coalesced state :=
  (Invariant.run run).coalesced

/-- The second caller asks while the first has the slot, again while the worker
is in its pass, and a third time while the worker releases the slot. -/
private def burst : List Move :=
  [.call 0, .go 0, .go 0, .call 1, .go 1, .go 1, .launch 0 2, .go 2, .go 2, .go 2,
    .call 1, .go 1, .go 1, .go 2, .go 2, .go 2, .go 2, .go 2, .go 2,
    .call 1, .go 1, .go 2, .go 2, .go 1, .go 2, .launch 1 3, .go 3, .go 3, .go 3, .go 3,
    .go 3, .go 3, .go 3]

theorem burst_is_coalesced : ∃ state, Run step anyStep initial burst state ∧ Coalesced state ∧
    [0, 1, 2, 3].map state.place = List.replicate 4 .outside ∧
    state.log = [.request 0, .request 1, .start 2, .request 1, .start 2, .request 1,
      .start 3] := by
  have passed : (execute step anyStep initial burst).any (fun state => decide
      ([0, 1, 2, 3].map state.place = List.replicate 4 .outside ∧
        state.log = [.request 0, .request 1, .start 2, .request 1, .start 2, .request 1,
          .start 3])) = true := by
    decide +kernel
  obtain ⟨state, run, left, log⟩ := exists_run_of_execute _ passed
  exact ⟨state, run, requests_are_coalesced run, left, log⟩

end Fips2Go.VpnService.Rebind
