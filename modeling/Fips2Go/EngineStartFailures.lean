import Fips2Go.EngineAccounts

/-!
# What a failed start leaves behind

`start_inner` stops and joins its node thread where the node does not come up
and where the descriptor cannot be dup'd.  On the other error paths the thread
is told to stop by the drop of `stop_tx` and is detached: it may still run when
the next start is let in.
-/

namespace Fips2Go.Lifecycle

open GuardedRuns LockInvariant

/-- The steps behind the spawn of the node thread whose error path does not
join it. -/
def Failure.abandonsNode : Failure → Bool
  | .timeout | .forwarder | .wakeFd | .reader | .writer | .bridge => true
  | _ => false

/-- Nothing of a failed start is left: the slot is empty, its descriptor was
closed once with no reader or writer on it, and its node thread has ended. -/
structure LeavesNothing (shared : Shared) (made : Made) : Prop where
  slot : shared.engine = none
  closed : ∀ fd, made.fd = some fd → shared.closes fd = 1
  unread : ∀ fd, made.fd = some fd → ∀ io, (shared.ios io).fd = fd →
    (shared.ios io).runs = false
  ended : ∀ node, made.node = some node → ¬ shared.Alive node

/-- A start that does not abandon its node has joined it, and made no
descriptor. -/
def Outcome.Unwound (shared : Shared) : Outcome → Prop
  | .failed failure made => shared.engine = none ∧ (failure.abandonsNode = false →
      made.fd = none ∧ ∀ node, made.node = some node → ¬ shared.Alive node)
  | _ => True

/-- A start fills the slot only at its end, and its error paths are those of
the step that has failed. -/
def Control.Unwinds : Control → Shared → Prop
  | .start _ .check _, _ => True
  | .start _ (.join _ failure) _, shared =>
      shared.engine = none ∧ failure.abandonsNode = false
  | .start _ (.closeFailed _ _ failure) _, shared | .start _ (.abandon _ _ failure) _, shared =>
      shared.engine = none ∧ failure.abandonsNode = true
  | .start _ (.unflag outcome) _, shared | .leave outcome _, shared => outcome.Unwound shared
  | .start .., shared | .io _ _ (.start ..), shared => shared.engine = none
  | _, _ => True

def Unwinding (state : State) : Prop := Guarded Control.Unwinds (fun _ => True) state

namespace Unwinding

variable {state next : State} {thread : Thread}

theorem initial : Unwinding initial := Protected.initial (fun _ => id) trivial

theorem unwinds (unwinding : Unwinding state) {control : Control}
    (location : state.control thread = control) (holds : control.Holds) :
    control.Unwinds state.shared := by
  subst location
  exact unwinding.held thread holds

theorem startStep (unwinding : Unwinding state) {forwards : String → Bool} {config : String}
    {pc : StartPc} {rebinds : Bool}
    (location : state.control thread = .start config pc rebinds) {ok : Bool}
    (stepTo : Lifecycle.startStep state thread ok forwards config rebinds pc = some next) :
    Unwinding next := by
  have holds := holds_of_location location trivial
  have unwinds := unwinding.unwinds location trivial
  cases pc with
  | check =>
      have stepTo := of_withEngine stepTo
      cases found : state.shared.engine with
      | some engine =>
          rw [found] at stepTo
          exact Guarded.go unwinding holds stepTo trivial trivial
      | none =>
          rw [found] at stepTo
          exact Guarded.go unwinding holds stepTo found trivial
  | flag =>
      simp only [Lifecycle.startStep] at stepTo
      split at stepTo
      · exact Guarded.go unwinding holds stepTo trivial trivial
      · exact Guarded.go unwinding holds stepTo unwinds trivial
  | configure =>
      cases ok with
      | true => exact Guarded.go unwinding holds stepTo unwinds trivial
      | false => exact Guarded.go unwinding holds stepTo ⟨unwinds, fun _ => ⟨rfl, by simp⟩⟩ trivial
  | spawnNode =>
      cases ok with
      | true =>
          exact Guarded.go unwinding holds stepTo unwinds trivial
      | false => exact Guarded.go unwinding holds stepTo ⟨unwinds, fun _ => ⟨rfl, by simp⟩⟩ trivial
  | await node =>
      simp only [Lifecycle.startStep] at stepTo
      split at stepTo
      · exact Guarded.go unwinding holds stepTo unwinds trivial
      · exact Guarded.go unwinding holds stepTo ⟨unwinds, rfl⟩ trivial
      · split at stepTo
        · exact Guarded.go unwinding holds stepTo ⟨unwinds, rfl⟩ trivial
        · split at stepTo
          · cases stepTo
          · exact Guarded.go unwinding holds stepTo ⟨unwinds, rfl⟩ trivial
  | dup node =>
      cases ok with
      | true =>
          exact Guarded.go unwinding holds stepTo unwinds trivial
      | false => exact Guarded.go unwinding holds stepTo unwinds trivial
  | tell node =>
      exact Guarded.go unwinding holds stepTo ⟨unwinds, rfl⟩ trivial
  | join node failure =>
      obtain ⟨ended, stepTo⟩ := Option.ite_none_right_eq_some.mp stepTo
      refine Guarded.go unwinding holds stepTo ⟨unwinds.1, fun _ => ⟨rfl, ?_⟩⟩ trivial
      rintro _ ⟨⟩ alive
      rw [Shared.Alive, Shared.join, Shared.nodes_setNode_self] at alive
      exact alive ended
  | forwarder node fd =>
      simp only [Lifecycle.startStep] at stepTo
      split at stepTo
      · exact Guarded.go unwinding holds stepTo unwinds trivial
      · split at stepTo
        · exact Guarded.go unwinding holds stepTo unwinds trivial
        · exact Guarded.go unwinding holds stepTo ⟨unwinds, rfl⟩ trivial
  | bridge node fd forwarder io =>
      cases ok with
      | true => exact Guarded.go unwinding holds stepTo unwinds trivial
      | false => exact Guarded.go unwinding holds stepTo ⟨unwinds, rfl⟩ trivial
  | install node fd forwarder io =>
      have stepTo := of_withEngine stepTo
      exact Guarded.go unwinding holds stepTo trivial trivial
  | closeFailed node fd failure =>
      exact Guarded.go unwinding holds stepTo unwinds trivial
  | abandon node fd failure =>
      refine Guarded.go unwinding holds stepTo ⟨unwinds.1, fun joins => ?_⟩ trivial
      exact absurd (joins.symm.trans unwinds.2) (by decide)
  | unflag outcome => exact Guarded.go unwinding holds stepTo unwinds trivial

theorem ioStep (unwinding : Unwinding state) {pc : IoPc} {fd : Nat} {user : IoUser}
    (location : state.control thread = .io pc fd user) {ok : Bool}
    (stepTo : Lifecycle.ioStep state thread ok fd user pc = some next) : Unwinding next := by
  have holds := holds_of_location location trivial
  have empty := unwinding.unwinds location trivial
  have failed (failure : Failure) (abandons : failure.abandonsNode = true) :
      (user.failed fd failure).Unwinds state.shared ∧ (user.failed fd failure).Holds := by
    cases user with
    | start config rebinds node forwarder =>
        exact ⟨⟨by cases pc <;> exact empty, abandons⟩, trivial⟩
    | swap config => exact ⟨trivial, trivial⟩
  have going (after : IoPc) {shared : Shared} (same : shared.engine = state.shared.engine) :
      (Control.io after fd user).Unwinds shared := by
    cases user with
    | start config rebinds node forwarder => exact same.trans (by cases pc <;> exact empty)
    | swap config => trivial
  cases pc with
  | wake =>
      cases ok with
      | true => exact Guarded.go unwinding holds stepTo (going .reader rfl) trivial
      | false =>
          obtain ⟨unwinds, still⟩ := failed .wakeFd rfl
          exact Guarded.go unwinding holds stepTo unwinds still
  | reader =>
      cases ok with
      | true => exact Guarded.go unwinding holds stepTo (going (.writer _) rfl) trivial
      | false =>
          obtain ⟨unwinds, still⟩ := failed .reader rfl
          exact Guarded.go unwinding holds stepTo unwinds still
  | writer io =>
      cases ok with
      | true =>
          cases user with
          | start config rebinds node forwarder =>
              exact Guarded.go unwinding holds stepTo empty trivial
          | swap config => exact Guarded.go unwinding holds stepTo trivial trivial
      | false => exact Guarded.go unwinding holds stepTo (going (.retire io) rfl) trivial
  | retire io =>
      simp only [Lifecycle.ioStep] at stepTo
      split at stepTo
      · cases stepTo
      · obtain ⟨unwinds, still⟩ := failed .writer rfl
        exact Guarded.go unwinding holds stepTo unwinds still

theorem unwinds_stopped (restart : Option String) (shared : Shared) :
    (stopped restart).Unwinds shared ∧ (stopped restart).Holds := by
  cases restart <;> exact ⟨trivial, trivial⟩

theorem stopStep (unwinding : Unwinding state) {pc : StopPc} {restart : Option String}
    (location : state.control thread = .stop pc restart) {ok : Bool}
    (stepTo : Lifecycle.stopStep state thread ok restart pc = some next) : Unwinding next := by
  have holds := holds_of_location location trivial
  have ends (shared : Shared) := unwinds_stopped restart shared
  cases pc with
  | take =>
      have stepTo := of_withEngine stepTo
      split at stepTo
      · exact Guarded.go unwinding holds stepTo (ends _).1 (ends state.shared).2
      · exact Guarded.go unwinding holds stepTo trivial trivial
  | tell engine => exact Guarded.go unwinding holds stepTo trivial trivial
  | joinPump engine =>
      simp only [Lifecycle.stopStep] at stepTo
      split at stepTo
      · exact Guarded.go unwinding holds stepTo trivial trivial
      · split at stepTo
        · cases stepTo
        · exact Guarded.go unwinding holds stepTo trivial trivial
  | joinForwarder engine => exact Guarded.go unwinding holds stepTo trivial trivial
  | joinNode engine =>
      obtain ⟨-, stepTo⟩ := Option.ite_none_right_eq_some.mp stepTo
      exact Guarded.go unwinding holds stepTo trivial trivial
  | close engine => exact Guarded.go unwinding holds stepTo (ends _).1 (ends state.shared).2

theorem swapStep (unwinding : Unwinding state) {pc : SwapPc} {config : String}
    (location : state.control thread = .swap pc config) {ok : Bool}
    (stepTo : Lifecycle.swapStep state thread ok config pc = some next) : Unwinding next := by
  have holds := holds_of_location location trivial
  cases pc with
  | dup =>
      cases ok with
      | true => exact Guarded.go unwinding holds stepTo trivial trivial
      | false => exact Guarded.go unwinding holds stepTo trivial trivial
  | takePump fd =>
      have stepTo := of_withEngine stepTo
      split at stepTo
      · exact Guarded.go unwinding holds stepTo trivial trivial
      · exact Guarded.go unwinding holds stepTo trivial trivial
  | stopOld fd pump =>
      simp only [Lifecycle.swapStep] at stepTo
      split at stepTo
      · exact Guarded.go unwinding holds stepTo trivial trivial
      · split at stepTo
        · exact Guarded.go unwinding holds stepTo trivial trivial
        · split at stepTo
          · cases stepTo
          · exact Guarded.go unwinding holds stepTo trivial trivial
  | putBack fd io swapped =>
      have stepTo := of_withEngine stepTo
      split at stepTo
      · exact Guarded.go unwinding holds stepTo trivial trivial
      · cases swapped with
        | true => exact Guarded.go unwinding holds stepTo trivial trivial
        | false => exact Guarded.go unwinding holds stepTo trivial trivial
  | replace fd =>
      simp only [Lifecycle.swapStep] at stepTo
      split at stepTo
      · cases stepTo
      · exact Guarded.go unwinding holds stepTo trivial trivial
  | closeOld old => exact Guarded.go unwinding holds stepTo trivial trivial
  | unlock => exact Guarded.go unwinding holds stepTo trivial trivial
  | closeNew fd => exact Guarded.go unwinding holds stepTo trivial trivial
  | giveUp => exact Guarded.go unwinding holds stepTo trivial trivial

theorem rebindStep (unwinding : Unwinding state) {config : Option String}
    (location : state.control thread = .rebind config)
    (stepTo : Lifecycle.rebindStep state thread config = some next) : Unwinding next := by
  have holds := holds_of_location location trivial
  have stepTo := of_withEngine stepTo
  split at stepTo
  · exact Guarded.go unwinding holds stepTo trivial trivial
  · simp only at stepTo
    split at stepTo
    · exact Guarded.go unwinding holds stepTo trivial trivial
    · exact Guarded.go unwinding holds stepTo trivial trivial

theorem bodies (unwinding : Unwinding state) {forwards : String → Bool} {ok : Bool} :
    Bodies forwards state next thread ok (Unwinding next) where
  rebind _ location := unwinding.rebindStep location
  start _ _ _ location := unwinding.startStep location
  io _ _ _ location := unwinding.ioStep location
  stop _ _ location := unwinding.stopStep location
  swap _ _ location := unwinding.swapStep location

/-- The slot stays as it is, and what has ended does not come back. -/
theorem unwinds_of_ended {shared changed : Shared} (same : changed.engine = shared.engine)
    (ended : ∀ node, ¬ shared.Alive node → ¬ changed.Alive node) (control : Control)
    (unwinds : control.Unwinds shared) : control.Unwinds changed := by
  have unwound (outcome : Outcome) (before : outcome.Unwound shared) :
      outcome.Unwound changed := by
    cases outcome with
    | failed failure made =>
        refine ⟨same.trans before.1, fun joins => ?_⟩
        obtain ⟨undup, gone⟩ := before.2 joins
        exact ⟨undup, fun node isMade => ended node (gone node isMade)⟩
    | _ => trivial
  cases control with
  | start config pc rebinds =>
      cases pc with
      | check => trivial
      | join node failure => exact ⟨same.trans unwinds.1, unwinds.2⟩
      | closeFailed node fd failure => exact ⟨same.trans unwinds.1, unwinds.2⟩
      | abandon node fd failure => exact ⟨same.trans unwinds.1, unwinds.2⟩
      | unflag outcome => exact unwound outcome unwinds
      | _ => exact same.trans unwinds
  | io pc fd user =>
      cases user with
      | start config rebinds node forwarder => cases pc <;> exact same.trans unwinds
      | swap config => trivial
  | leave outcome rebinds => exact unwound outcome unwinds
  | _ => trivial

theorem step (unwinding : Unwinding state) {forwards : String → Bool} {label : Label}
    (stepTo : Lifecycle.step forwards state label = some next) : Unwinding next := by
  refine Guarded.step unwinding ?_ (fun _ _ _ => trivial) ?_ ?_ ?_ stepTo
  · intro call _
    cases call <;> trivial
  · intro thread ok _
    exact unwinding.bodies
  · rintro node move value rfl moved
    refine ⟨unwinds_of_ended rfl fun other ended => ?_, fun _ => trivial⟩
    by_cases own : other = node
    · rw [own, Shared.Alive, not_not] at ended
      exact absurd ended (Node.running_of_step moved)
    · rwa [Shared.Alive, Shared.nodes_setNode_of_ne own]
  · intro io value
    exact ⟨unwinds_of_ended rfl fun _ ended => ended, fun _ => trivial⟩

theorem run {forwards : String → Bool} {labels : List Label} {final : State}
    (run : Run (Lifecycle.step forwards) anyStep Lifecycle.initial labels final) :
    Unwinding final :=
  run.invariant initial fun _ _ _ unwinding _ stepTo => unwinding.step stepTo

end Unwinding

/-- A start that does not abandon its node leaves nothing. -/
theorem leavesNothing_of_joins {forwards : String → Bool} {labels : List Label} {final : State}
    (run : Run (step forwards) anyStep initial labels final) {thread : Thread}
    {failure : Failure} {made : Made} {rebinds : Bool}
    (returns : final.control thread = .leave (.failed failure made) rebinds)
    (joins : failure.abandonsNode = false) : LeavesNothing final.shared made := by
  have unwinding : Unwinding final := Unwinding.run run
  obtain ⟨empty, unwound⟩ := unwinding.unwinds returns trivial
  obtain ⟨undup, ended⟩ := unwound joins
  refine ⟨empty, ?_, ?_, ended⟩
  · intro fd isMade
    cases undup.symm.trans isMade
  · intro fd isMade
    cases undup.symm.trans isMade

/-! ### Starts that abandon their node -/

private def advance (count : Nat) : List Label := List.replicate count (.move 0 true)

/-- From the failing step of a start to its return. -/
private def failing : Failure → List Label
  | .timeout => .move 0 false :: advance 2
  | .writer => .move 0 false :: .readerStops 0 :: advance 4
  | _ => .move 0 false :: advance 3

/-- A start whose node comes up, if it does not time out, up to the step that
fails and then to its return. -/
private def failsAt (failure : Failure) : List Label :=
  let passed := match failure with
    | .timeout => []
    | .forwarder => .node 0 .starts :: advance 2
    | .wakeFd => .node 0 .starts :: advance 3
    | .reader => .node 0 .starts :: advance 4
    | .writer => .node 0 .starts :: advance 5
    | _ => .node 0 .starts :: advance 6
  .call 0 (.start "a") :: (advance 5 ++ (passed ++ failing failure))

private def madeAt : Failure → Made
  | .timeout => ⟨some 0, none⟩
  | _ => ⟨some 0, some 0⟩

private theorem exists_abandoned {failure : Failure} (abandons : failure.abandonsNode = true) :
    ∃ final, Run (step fun _ => true) anyStep initial (failsAt failure) final ∧
      final.control 0 = .leave (.failed failure (madeAt failure)) false ∧
      final.shared.Alive 0 := by
  have passed : (execute (step fun _ => true) anyStep initial (failsAt failure)).any
      (fun final => decide (
        final.control 0 = .leave (.failed failure (madeAt failure)) false ∧
          final.shared.Alive 0)) = true := by
    cases failure with
    | timeout => decide +kernel
    | forwarder => decide +kernel
    | wakeFd => decide +kernel
    | reader => decide +kernel
    | writer => decide +kernel
    | bridge => decide +kernel
    | _ => cases abandons
  exact exists_run_of_execute _ passed

/-- A start that fails at a given step leaves nothing behind, in any run, if
and only if the error path of that step joins the node thread. -/
theorem leavesNothing_iff_joins (failure : Failure) :
    (∀ (forwards : String → Bool) (labels : List Label) (final : State) (thread : Thread)
      (made : Made) (rebinds : Bool), Run (step forwards) anyStep initial labels final →
      final.control thread = .leave (.failed failure made) rebinds →
      LeavesNothing final.shared made) ↔ failure.abandonsNode = false := by
  constructor
  · intro always
    by_contra joins
    rw [Bool.not_eq_false] at joins
    obtain ⟨final, run, returns, alive⟩ := exists_abandoned joins
    have left := always _ _ _ _ _ _ run returns
    refine left.ended 0 ?_ alive
    cases failure <;> rfl
  · intro joins forwards labels final thread made rebinds run returns
    exact leavesNothing_of_joins run returns joins

/-- The bridge thread cannot be spawned: the reader and the writer go on with a
descriptor that was closed, and the node with its responder. -/
theorem failed_bridge_leaves_threads : ∃ final,
    Run (step fun _ => false) anyStep initial (failsAt .bridge) final ∧
      final.control 0 = .leave (.failed .bridge ⟨some 0, some 0⟩) false ∧
      final.shared.closes 0 = 1 ∧ final.shared.ios 0 = ⟨0, true, true⟩ ∧
      final.shared.nodes 0 = ⟨.serving, some true, true, false⟩ ∧
      ¬ LeavesNothing final.shared ⟨some 0, some 0⟩ := by
  have passed : (execute (step fun _ => false) anyStep initial (failsAt .bridge)).any
      (fun final => decide (
        final.control 0 = .leave (.failed .bridge ⟨some 0, some 0⟩) false ∧
        final.shared.closes 0 = 1 ∧ final.shared.ios 0 = ⟨0, true, true⟩ ∧
        final.shared.nodes 0 = ⟨.serving, some true, true, false⟩)) = true := by decide +kernel
  obtain ⟨final, run, returns, closed, threads, serving⟩ := exists_run_of_execute _ passed
  refine ⟨final, run, returns, closed, threads, serving, fun left => left.ended 0 rfl ?_⟩
  rw [Shared.Alive, serving]
  decide

end Fips2Go.Lifecycle
