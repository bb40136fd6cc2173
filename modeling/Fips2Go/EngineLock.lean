import Fips2Go.EngineLifecycle
import Fips2Go.LockInvariant

/-!
# What the holder of the lifecycle lock does alone

Only the thread between taking `LIFECYCLE` and giving it back changes `ENGINE`
or makes and closes anything.  A condition that relates its place to what it
changes is kept by every step if it is kept by the statements under the lock,
by what node threads, readers and writers do, and where the lock is taken and
given back.
-/

namespace Fips2Go.Lifecycle

open LockInvariant

/-- Between taking `LIFECYCLE` and giving it back. -/
def Control.Holds : Control → Prop
  | .idle | .wants _ | .unrebind | .reading => False
  | _ => True

instance : DecidablePred Control.Holds
  | .idle | .wants _ | .unrebind | .reading => isFalse id
  | .rebind _ | .start .. | .io .. | .stop .. | .swap .. | .leave .. | .panicked => isTrue trivial

theorem of_withEngine {state next : State} {after : Option State}
    (stepTo : state.withEngine after = some next) : after = some next := by
  unfold State.withEngine at stepTo
  split at stepTo
  · cases stepTo
  · exact stepTo

theorem holds_of_location {state : State} {thread : Thread} {control : Control}
    (location : state.control thread = control) (holds : control.Holds) :
    (state.control thread).Holds :=
  location ▸ holds

/-- What has to be shown of the statements under the lock: something follows
from each of them. -/
structure Bodies (forwards : String → Bool) (state next : State) (thread : Thread) (ok : Bool)
    (claim : Prop) : Prop where
  rebind : ∀ config, state.control thread = .rebind config →
    rebindStep state thread config = some next → claim
  start : ∀ config pc rebinds, state.control thread = .start config pc rebinds →
    startStep state thread ok forwards config rebinds pc = some next → claim
  io : ∀ pc fd user, state.control thread = .io pc fd user →
    ioStep state thread ok fd user pc = some next → claim
  stop : ∀ pc restart, state.control thread = .stop pc restart →
    stopStep state thread ok restart pc = some next → claim
  swap : ∀ pc config, state.control thread = .swap pc config →
    swapStep state thread ok config pc = some next → claim

/-- `LIFECYCLE` protects what is shared. -/
def Guarded (fits : Control → Shared → Prop) (rest : Shared → Prop) (state : State) : Prop :=
  Protected Control.Holds fits rest state.lifecycle state.control state.shared

namespace Guarded

variable {fits : Control → Shared → Prop} {rest : Shared → Prop} {state next : State}
  {thread : Thread}

/-- The holder goes on. -/
theorem go (guarded : Guarded fits rest state) (holds : (state.control thread).Holds)
    {shared : Shared} {control : Control} {starting engineLock : Bool}
    (stepTo : some ({ state with starting, engineLock }.go thread shared control) = some next)
    (changed : fits control shared) (still : control.Holds) : Guarded fits rest next := by
  rw [Option.some.injEq] at stepTo
  subst stepTo
  exact guarded.move holds still changed

/-- A thread moves about outside of the lock. -/
theorem pass (guarded : Guarded fits rest state) (outsider : ¬ (state.control thread).Holds)
    {control : Control} {rebinding engineLock : Bool}
    (stepTo : { state with rebinding, engineLock }.next thread control = some next)
    (still : ¬ control.Holds) : Guarded fits rest next := by
  simp only [State.next, Option.some.injEq] at stepTo
  subst stepTo
  exact Protected.pass guarded outsider still

theorem enter (guarded : Guarded fits rest state) {call : Call}
    (enters : rest state.shared → fits call.entered state.shared)
    (stepTo : (if state.lifecycle then none
      else { state with lifecycle := true }.next thread call.entered) = some next) :
    Guarded fits rest next := by
  unfold Guarded at guarded
  cases taken : state.lifecycle with
  | true => simp [taken] at stepTo
  | false =>
      simp only [taken, Bool.false_eq_true, if_false, State.next, Option.some.injEq] at stepTo
      subst stepTo
      rw [taken] at guarded
      refine guarded.acquire ?_ (enters (guarded.free rfl))
      cases call <;> trivial

theorem leave (guarded : Guarded fits rest state) {outcome : Outcome} {rebinds : Bool}
    (leaves : fits (.leave outcome rebinds) state.shared → rest state.shared)
    (location : state.control thread = .leave outcome rebinds)
    (stepTo : { state with lifecycle := false }.next thread
      (if rebinds then .unrebind else .idle) = some next) : Guarded fits rest next := by
  have holds := holds_of_location location trivial
  have held := guarded.held thread holds
  rw [location] at held
  simp only [State.next, Option.some.injEq] at stepTo
  subst stepTo
  refine Protected.release guarded holds ?_ (leaves held)
  cases rebinds <;> exact id

theorem callStep (guarded : Guarded fits rest state) {call : Call}
    (stepTo : Lifecycle.callStep state thread call = some next) : Guarded fits rest next := by
  unfold Lifecycle.callStep at stepTo
  by_cases idle : state.control thread = .idle
  · have outsider : ¬ (state.control thread).Holds := by
      rw [idle]
      exact id
    rw [if_neg (not_not.mpr idle)] at stepTo
    cases call with
    | start config => exact guarded.pass outsider stepTo id
    | stop => exact guarded.pass outsider stepTo id
    | networkChanged config =>
        simp only at stepTo
        split at stepTo
        · rw [Option.some.injEq] at stepTo
          rwa [← stepTo]
        · exact guarded.pass outsider stepTo id
  · simp [idle] at stepTo

theorem readStep (guarded : Guarded fits rest state)
    (stepTo : Lifecycle.readStep state thread = some next) : Guarded fits rest next := by
  unfold Lifecycle.readStep at stepTo
  split at stepTo
  next idle =>
    refine guarded.pass ?_ stepTo id
    rw [idle.1]
    exact id
  next => cases stepTo

theorem callerStep (guarded : Guarded fits rest state) {forwards : String → Bool} {ok : Bool}
    (enters : ∀ call : Call, rest state.shared → fits call.entered state.shared)
    (leaves : ∀ outcome rebinds, fits (.leave outcome rebinds) state.shared → rest state.shared)
    (bodies : Bodies forwards state next thread ok (Guarded fits rest next))
    (stepTo : Lifecycle.callerStep state thread ok forwards = some next) :
    Guarded fits rest next := by
  unfold Lifecycle.callerStep at stepTo
  cases location : state.control thread with
  | idle => simp [location] at stepTo
  | panicked => simp [location] at stepTo
  | wants call =>
      simp only [location] at stepTo
      exact guarded.enter (enters call) stepTo
  | leave outcome rebinds =>
      simp only [location] at stepTo
      exact guarded.leave (leaves outcome rebinds) location stepTo
  | unrebind =>
      simp only [location] at stepTo
      exact guarded.pass (by rw [location]; exact id) stepTo id
  | reading =>
      simp only [location] at stepTo
      exact guarded.pass (by rw [location]; exact id) stepTo id
  | rebind config =>
      simp only [location] at stepTo
      exact bodies.rebind config location stepTo
  | start config pc rebinds =>
      simp only [location] at stepTo
      exact bodies.start config pc rebinds location stepTo
  | io pc fd user =>
      simp only [location] at stepTo
      exact bodies.io pc fd user location stepTo
  | stop pc restart =>
      simp only [location] at stepTo
      exact bodies.stop pc restart location stepTo
  | swap pc config =>
      simp only [location] at stepTo
      exact bodies.swap pc config location stepTo

/-- A step keeps what the lock protects, if its parts under the lock and what
happens without it do. -/
theorem step (guarded : Guarded fits rest state) {forwards : String → Bool} {label : Label}
    (enters : ∀ call : Call, rest state.shared → fits call.entered state.shared)
    (leaves : ∀ outcome rebinds, fits (.leave outcome rebinds) state.shared → rest state.shared)
    (bodies : ∀ thread ok, label = .move thread ok →
      Bodies forwards state next thread ok (Guarded fits rest next))
    (node : ∀ node move value, label = .node node move →
      (state.shared.nodes node).step move = some value →
      (∀ control, fits control state.shared → fits control (state.shared.setNode node value)) ∧
        (rest state.shared → rest (state.shared.setNode node value)))
    (io : ∀ io value,
      (∀ control, fits control state.shared → fits control (state.shared.setIo io value)) ∧
        (rest state.shared → rest (state.shared.setIo io value)))
    (stepTo : Lifecycle.step forwards state label = some next) : Guarded fits rest next := by
  cases label with
  | call thread call => exact guarded.callStep stepTo
  | read thread => exact guarded.readStep stepTo
  | move thread ok =>
      exact guarded.callerStep enters leaves (bodies thread ok rfl) stepTo
  | node number move =>
      obtain ⟨value, moved, rfl⟩ := Option.map_eq_some_iff.mp stepTo
      obtain ⟨held, free⟩ := node number move value rfl moved
      exact guarded.outside held free
  | readerStops number =>
      simp only [Lifecycle.step, Option.some.injEq] at stepTo
      subst stepTo
      exact guarded.outside (io number _).1 (io number _).2
  | writerStops number =>
      simp only [Lifecycle.step, Option.some.injEq] at stepTo
      subst stepTo
      exact guarded.outside (io number _).1 (io number _).2

end Guarded

end Fips2Go.Lifecycle
