import Mathlib.Data.List.Basic

/-!
# Guarded runs of labelled step functions

A concurrent program is presented by a partial step function: a label names
the thread that moves together with whatever the environment decides, and
the step is undefined when that thread cannot move.  A guard restricts a run
to the steps that satisfy a condition on the state before the step.  This
file provides the run relation, its executable counterpart, and the
induction rules every safety proof is an instance of.
-/

namespace GuardedRuns

variable {State Label : Type*}

/-- `Run step guard start labels final`: the labels, taken in order, lead
from `start` to `final`, and the guard holds before each of them. -/
inductive Run (step : State → Label → Option State)
    (guard : State → Label → Prop) (start : State) :
    List Label → State → Prop
  | nil : Run step guard start [] start
  | snoc {labels : List Label} {current next : State} {label : Label}
      (run : Run step guard start labels current)
      (allowed : guard current label)
      (stepTo : step current label = some next) :
      Run step guard start (labels ++ [label]) next

/-- The guard that admits every step. -/
def anyStep : State → Label → Prop := fun _ _ => True

instance : DecidableRel (anyStep : State → Label → Prop) :=
  fun _ _ => inferInstanceAs (Decidable True)

namespace Run

variable {step : State → Label → Option State}
  {guard : State → Label → Prop} {start final : State} {labels : List Label}

/-- A predicate that holds at the start and survives every guarded step holds
at the end of every run. -/
theorem invariant {holds : State → Prop} (initially : holds start)
    (preserved : ∀ current label next, holds current → guard current label →
      step current label = some next → holds next)
    (run : Run step guard start labels final) : holds final := by
  induction run with
  | nil => exact initially
  | snoc run allowed stepTo ih => exact preserved _ _ _ ih allowed stepTo

/-- The same rule for a predicate that also speaks about the labels taken. -/
theorem traceInvariant {holds : List Label → State → Prop}
    (initially : holds [] start)
    (preserved : ∀ taken current label next, holds taken current →
      guard current label → step current label = some next →
      holds (taken ++ [label]) next)
    (run : Run step guard start labels final) : holds labels final := by
  induction run with
  | nil => exact initially
  | snoc run allowed stepTo ih => exact preserved _ _ _ _ ih allowed stepTo

/-- A run under a guard is one under every guard that the first implies. -/
theorem weaken {other : State → Label → Prop}
    (weaker : ∀ state label, guard state label → other state label)
    (run : Run step guard start labels final) : Run step other start labels final := by
  induction run with
  | nil => exact .nil
  | snoc run allowed stepTo ih => exact ih.snoc (weaker _ _ allowed) stepTo

/-- Runs compose when the second one starts where the first one ended. -/
theorem append {middle : State} {taken : List Label}
    (earlier : Run step guard start taken middle)
    (later : Run step guard middle labels final) :
    Run step guard start (taken ++ labels) final := by
  induction later with
  | nil => simpa using earlier
  | snoc run allowed stepTo ih =>
      rw [← List.append_assoc]
      exact ih.snoc allowed stepTo

end Run

/-- Take the labels in order, stopping at the first step that is undefined or
that the guard refuses. -/
def execute (step : State → Label → Option State)
    (guard : State → Label → Prop) [DecidableRel guard] :
    State → List Label → Option State
  | state, [] => some state
  | state, label :: labels =>
      if guard state label then
        match step state label with
        | some next => execute step guard next labels
        | none => none
      else none

theorem run_append_of_execute {step : State → Label → Option State}
    {guard : State → Label → Prop} [DecidableRel guard]
    {start middle final : State} {taken labels : List Label}
    (run : Run step guard start taken middle)
    (executed : execute step guard middle labels = some final) :
    Run step guard start (taken ++ labels) final := by
  induction labels generalizing taken middle with
  | nil =>
      simp only [execute, Option.some.injEq] at executed
      subst executed
      simpa using run
  | cons label labels ih =>
      simp only [execute] at executed
      split at executed
      next allowed =>
        split at executed
        next next stepTo =>
          simpa using ih (run.snoc allowed stepTo) executed
        next => simp at executed
      next => simp at executed

/-- Every successful execution is a guarded run. -/
theorem run_of_execute {step : State → Label → Option State}
    {guard : State → Label → Prop} [DecidableRel guard]
    {start final : State} {labels : List Label}
    (executed : execute step guard start labels = some final) :
    Run step guard start labels final := by
  simpa using run_append_of_execute Run.nil executed

/-- Evaluate a schedule to obtain a run whose last state passes a test. -/
theorem exists_run_of_execute {step : State → Label → Option State}
    {guard : State → Label → Prop} [DecidableRel guard]
    {start : State} {labels : List Label} (holds : State → Prop) [DecidablePred holds]
    (passed : (execute step guard start labels).any
      (fun final => decide (holds final)) = true) :
    ∃ final, Run step guard start labels final ∧ holds final := by
  cases executed : execute step guard start labels with
  | none => simp [executed] at passed
  | some final =>
      have holdsFinal : holds final := by simpa [executed] using passed
      exact ⟨final, run_of_execute executed, holdsFinal⟩

end GuardedRuns
