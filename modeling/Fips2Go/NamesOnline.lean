import Fips2Go.GuardedRuns
import Mathlib.Data.List.Basic

/-!
# Where the Internet-validated flag lives

`names_online` stores its answer in a static and applies it to the resolver of
the running engine; a start builds a resolver, reads the static into it and
installs the engine later.  The two places are guarded by different locks, so
each of the four steps is taken separately here, by any number of concurrent
calls, while `LIFECYCLE` lets one start, restart or stop through at a time.
-/

namespace Fips2Go.NamesOnline

open GuardedRuns

def txtTimeoutOnline : Nat := 1500

def txtTimeoutUnvalidated : Nat := 500

def timeoutFor (validated : Bool) : Nat :=
  if validated then txtTimeoutOnline else txtTimeoutUnvalidated

/-- The library's TXT source as far as the resolver uses it: the wait it
starts with, and what asking for another wait leaves behind (`none` when it is
refused). -/
structure TxtVerifier where
  defaultTimeout : Nat
  setTimeout : Nat → Nat → Option Nat

/-- A new wait is taken over as asked for. -/
def TxtVerifier.Accepting (verifier : TxtVerifier) : Prop :=
  ∀ timeout want, verifier.setTimeout timeout want = some want

structure Names where
  txtTimeout : Nat
  deriving DecidableEq, Repr

def Names.setInternetValidated (verifier : TxtVerifier) (names : Names)
    (validated : Bool) : Names :=
  let want := timeoutFor validated
  if names.txtTimeout = want then names
  else
    match verifier.setTimeout names.txtTimeout want with
    | some timeout => { names with txtTimeout := timeout }
    | none => names

structure Engine where
  names : Option Names
  deriving DecidableEq, Repr

/-- What the holder of `LIFECYCLE` is doing. -/
inductive Lifecycle where
  | free
  | starting
  | built (engine : Engine)
  deriving DecidableEq, Repr

/-- `calls` lists the `names_online` calls between their store and their
apply, each by the value it carries. -/
structure Shim where
  internetValidated : Bool
  engine : Option Engine
  lifecycle : Lifecycle
  calls : List Bool
  deriving DecidableEq, Repr

inductive Move where
  | store (validated : Bool)
  | apply (call : Nat)
  | start
  | restart
  | readValidated (namesOn : Bool)
  | install
  | abandon
  | stop
  deriving DecidableEq, Repr

def initial : Shim where
  internetValidated := true
  engine := none
  lifecycle := .free
  calls := []

section Steps

variable (verifier : TxtVerifier)

/-- The second half of `names_online`. -/
def applyTo (validated : Bool) (engine : Engine) : Engine :=
  { engine with
    names := engine.names.map fun names => names.setInternetValidated verifier validated }

/-- The resolver set-up in `start_inner`; `namesOn` tells whether the config
asks for a resolver and `Names::start` succeeds. -/
def buildEngine (namesOn : Bool) (internetValidated : Bool) : Engine where
  names :=
    if namesOn then
      some (Names.setInternetValidated verifier
        { txtTimeout := verifier.defaultTimeout } internetValidated)
    else none

def step (shim : Shim) : Move → Option Shim
  | .store validated =>
      some { shim with
        internetValidated := validated
        calls := shim.calls ++ [validated] }
  | .apply call =>
      match shim.calls[call]? with
      | some validated =>
          some { shim with
            engine := shim.engine.map (applyTo verifier validated)
            calls := shim.calls.eraseIdx call }
      | none => none
  | .start =>
      if shim.lifecycle = .free ∧ shim.engine = none then
        some { shim with lifecycle := .starting }
      else none
  | .restart =>
      -- `network_changed` with a changed config: `stop_locked`, then
      -- `start_locked`, under one hold of the lock.
      if shim.lifecycle = .free ∧ shim.engine ≠ none then
        some { shim with engine := none, lifecycle := .starting }
      else none
  | .readValidated namesOn =>
      if shim.lifecycle = .starting then
        some { shim with
          lifecycle := .built (buildEngine verifier namesOn shim.internetValidated) }
      else none
  | .install =>
      match shim.lifecycle with
      | .built engine => some { shim with engine := some engine, lifecycle := .free }
      | _ => none
  | .abandon =>
      if shim.lifecycle = .free then none else some { shim with lifecycle := .free }
  | .stop =>
      if shim.lifecycle = .free then some { shim with engine := none } else none

end Steps

/-- The resolver of the installed engine. -/
def Shim.resolver (shim : Shim) : Option Names :=
  shim.engine.bind Engine.names

/-- The resolver of an engine that is built but not installed. -/
def Shim.upcoming (shim : Shim) : Option Names :=
  match shim.lifecycle with
  | .built engine => engine.names
  | _ => none

/-- The resolver, if any, waits as the stored value asks, or the call that
stored this value has still to apply it. -/
def Shim.FreshFor (shim : Shim) (resolver : Option Names) : Prop :=
  (∀ names ∈ resolver, names.txtTimeout = timeoutFor shim.internetValidated) ∨
    shim.internetValidated ∈ shim.calls

/-- The guard under which no stale value has the last word: an apply to a
resolver happens while the call that stored the present value has not returned,
and so does the install of a resolver built from another value. -/
def FreshComesLast (shim : Shim) : Move → Prop
  | .apply _ => shim.resolver = none ∨ shim.internetValidated ∈ shim.calls
  | .install => shim.FreshFor shim.upcoming
  | _ => True

/-- The value of the last `names_online` call to store one; the static starts
out true. -/
def lastStored (moves : List Move) : Bool :=
  moves.foldl
    (fun last move =>
      match move with
      | .store validated => validated
      | _ => last)
    true

/-- With every call returned, the installed resolver waits as the last call
asked. -/
def FlagKept (moves : List Move) (shim : Shim) : Prop :=
  shim.calls = [] → ∀ names ∈ shim.resolver,
    names.txtTimeout = timeoutFor (lastStored moves)

instance (shim : Shim) (resolver : Option Names) : Decidable (shim.FreshFor resolver) :=
  inferInstanceAs (Decidable (_ ∨ _))

instance : DecidableRel FreshComesLast
  | shim, .apply _ => inferInstanceAs (Decidable (shim.resolver = none ∨ _))
  | shim, .install => inferInstanceAs (Decidable (shim.FreshFor shim.upcoming))
  | _, .store _ | _, .start | _, .restart | _, .readValidated _ | _, .abandon
  | _, .stop => inferInstanceAs (Decidable True)

instance (moves : List Move) : DecidablePred (FlagKept moves) := fun shim =>
  inferInstanceAs (Decidable (shim.calls = [] → _))

theorem timeoutFor_injective {first second : Bool}
    (same : timeoutFor first = timeoutFor second) : first = second := by
  revert first second
  decide

@[simp]
theorem lastStored_append (moves : List Move) (move : Move) :
    lastStored (moves ++ [move]) =
      match move with
      | .store validated => validated
      | _ => lastStored moves := by
  simp only [lastStored, List.foldl_append, List.foldl_cons, List.foldl_nil]

variable {verifier : TxtVerifier}

theorem txtTimeout_setInternetValidated (accepting : verifier.Accepting) (names : Names)
    (validated : Bool) :
    (names.setInternetValidated verifier validated).txtTimeout = timeoutFor validated := by
  unfold Names.setInternetValidated
  by_cases same : names.txtTimeout = timeoutFor validated
  · simp [same]
  · simp [same, accepting names.txtTimeout (timeoutFor validated)]

theorem resolver_map_applyTo (engine : Option Engine) (validated : Bool) :
    (engine.map (applyTo verifier validated)).bind Engine.names =
      (engine.bind Engine.names).map
        (fun names => names.setInternetValidated verifier validated) := by
  cases engine with
  | none => rfl
  | some engine => rfl

/-- What one step changes: a store sets the static and joins the calls under
way, an apply leaves them, and every other step only moves engines about. -/
theorem step_cases {shim next : Shim} {move : Move}
    (stepTo : step verifier shim move = some next) :
    (∃ validated, move = .store validated ∧
      next = { shim with
        internetValidated := validated
        calls := shim.calls ++ [validated] }) ∨
    (∃ call validated, move = .apply call ∧ shim.calls[call]? = some validated ∧
      next = { shim with
        engine := shim.engine.map (applyTo verifier validated)
        calls := shim.calls.eraseIdx call }) ∨
    (move = .install ∧ next.internetValidated = shim.internetValidated ∧
      next.calls = shim.calls ∧ next.resolver = shim.upcoming) ∨
    (FreshComesLast shim move ∧ (∀ validated, move ≠ .store validated) ∧
      next.internetValidated = shim.internetValidated ∧ next.calls = shim.calls ∧
      (next.resolver = none ∨ next.resolver = shim.resolver)) := by
  cases move with
  | store validated =>
      simp only [step, Option.some.injEq] at stepTo
      exact Or.inl ⟨validated, rfl, stepTo.symm⟩
  | apply call =>
      simp only [step] at stepTo
      cases found : shim.calls[call]? with
      | none => simp [found] at stepTo
      | some validated =>
          simp only [found, Option.some.injEq] at stepTo
          exact Or.inr (Or.inl ⟨call, validated, rfl, found, stepTo.symm⟩)
  | start =>
      simp only [step, Option.ite_none_right_eq_some, Option.some.injEq] at stepTo
      obtain ⟨_, rfl⟩ := stepTo
      exact Or.inr (Or.inr (Or.inr ⟨trivial, nofun, rfl, rfl, Or.inr rfl⟩))
  | restart =>
      simp only [step, Option.ite_none_right_eq_some, Option.some.injEq] at stepTo
      obtain ⟨_, rfl⟩ := stepTo
      exact Or.inr (Or.inr (Or.inr ⟨trivial, nofun, rfl, rfl, Or.inl rfl⟩))
  | readValidated namesOn =>
      simp only [step, Option.ite_none_right_eq_some, Option.some.injEq] at stepTo
      obtain ⟨_, rfl⟩ := stepTo
      exact Or.inr (Or.inr (Or.inr ⟨trivial, nofun, rfl, rfl, Or.inr rfl⟩))
  | install =>
      simp only [step] at stepTo
      split at stepTo
      next engine built =>
        simp only [Option.some.injEq] at stepTo
        obtain rfl := stepTo
        have installed : shim.upcoming = engine.names := by
          simp [Shim.upcoming, built]
        exact Or.inr (Or.inr (Or.inl ⟨rfl, rfl, rfl, installed.symm⟩))
      next => cases stepTo
  | abandon =>
      simp only [step, Option.ite_none_left_eq_some, Option.some.injEq] at stepTo
      obtain ⟨_, rfl⟩ := stepTo
      exact Or.inr (Or.inr (Or.inr ⟨trivial, nofun, rfl, rfl, Or.inr rfl⟩))
  | stop =>
      simp only [step, Option.ite_none_right_eq_some, Option.some.injEq] at stepTo
      obtain ⟨_, rfl⟩ := stepTo
      exact Or.inr (Or.inr (Or.inr ⟨trivial, nofun, rfl, rfl, Or.inl rfl⟩))

/-- The static always holds what the last call stored. -/
theorem internetValidated_eq_lastStored {guard : Shim → Move → Prop}
    {moves : List Move} {final : Shim}
    (run : Run (step verifier) guard initial moves final) :
    final.internetValidated = lastStored moves := by
  apply run.traceInvariant
  · rfl
  · intro taken current move next holds _ stepTo
    rcases step_cases stepTo with ⟨validated, rfl, rfl⟩ | ⟨call, validated, rfl, _, rfl⟩ |
      ⟨rfl, kept, _⟩ | ⟨_, notStore, kept, _⟩
    · simp
    · simpa using holds
    · simpa [kept] using holds
    · rw [kept, holds, lastStored_append]
      cases move with
      | store validated => exact absurd rfl (notStore validated)
      | _ => rfl

/-- One guarded step keeps the installed resolver fresh. -/
theorem freshFor_step (accepting : verifier.Accepting) {shim next : Shim} {move : Move}
    (fresh : shim.FreshFor shim.resolver) (allowed : FreshComesLast shim move)
    (stepTo : step verifier shim move = some next) : next.FreshFor next.resolver := by
  rcases step_cases stepTo with ⟨validated, rfl, rfl⟩ | ⟨call, validated, rfl, found, rfl⟩ |
    ⟨rfl, kept, sameCalls, installed⟩ | ⟨_, _, kept, sameCalls, resolver⟩
  · exact Or.inr (by simp)
  · by_cases current : validated = shim.internetValidated
    · left
      intro names installed
      simp only [Shim.resolver, resolver_map_applyTo, Option.mem_def,
        Option.map_eq_some_iff] at installed
      obtain ⟨before, _, rfl⟩ := installed
      rw [txtTimeout_setInternetValidated accepting, current]
    · rcases allowed with noResolver | pending
      · left
        intro names installed
        simp only [Shim.resolver] at noResolver
        simp [Shim.resolver, resolver_map_applyTo, noResolver] at installed
      · right
        obtain ⟨other, atOther⟩ := List.mem_iff_getElem?.mp pending
        apply List.mem_eraseIdx_iff_getElem?.mpr
        refine ⟨other, ?_, atOther⟩
        rintro rfl
        rw [found, Option.some.injEq] at atOther
        exact current atOther
  · unfold Shim.FreshFor
    rw [kept, sameCalls, installed]
    exact allowed
  · unfold Shim.FreshFor
    rw [kept, sameCalls]
    rcases resolver with gone | same
    · left
      simp [gone]
    · rw [same]
      exact fresh

theorem flagKept_of_guarded (accepting : verifier.Accepting) {moves : List Move}
    {final : Shim} (run : Run (step verifier) FreshComesLast initial moves final) :
    FlagKept moves final := by
  intro returned names installed
  have fresh : final.FreshFor final.resolver := by
    apply run.invariant
    · left
      intro names installed
      cases installed
    · intro current move next fresh allowed stepTo
      exact freshFor_step accepting fresh allowed stepTo
  rw [← internetValidated_eq_lastStored run]
  rcases fresh with waits | pending
  · exact waits names installed
  · simp [returned] at pending

/-- A state no remaining call can mend: the resolver waits as a stale value
asked, and every call under way carries a stale value too. -/
def Stale (shim : Shim) : Prop :=
  (∃ names, shim.resolver = some names ∧
      names.txtTimeout ≠ timeoutFor shim.internetValidated) ∧
    shim.internetValidated ∉ shim.calls

theorem stale_apply (accepting : verifier.Accepting) {shim : Shim} {call : Nat}
    {validated : Bool} (found : shim.calls[call]? = some validated)
    (resolver : shim.resolver ≠ none) (notPending : shim.internetValidated ∉ shim.calls) :
    Stale { shim with
      engine := shim.engine.map (applyTo verifier validated)
      calls := shim.calls.eraseIdx call } := by
  obtain ⟨names, installed⟩ := Option.ne_none_iff_exists'.mp resolver
  constructor
  · refine ⟨names.setInternetValidated verifier validated, ?_, ?_⟩
    · simp only [Shim.resolver] at installed
      simp [Shim.resolver, resolver_map_applyTo, installed]
    · rw [txtTimeout_setInternetValidated accepting]
      intro same
      apply notPending
      rw [← timeoutFor_injective same]
      exact List.mem_of_getElem? found
  · intro pending
    exact notPending (List.mem_of_mem_eraseIdx pending)

/-- Breaking the guard leaves a stale state. -/
theorem stale_of_not_freshComesLast (accepting : verifier.Accepting) {shim next : Shim}
    {move : Move} (broken : ¬ FreshComesLast shim move)
    (stepTo : step verifier shim move = some next) : Stale next := by
  rcases step_cases stepTo with ⟨validated, rfl, rfl⟩ | ⟨call, validated, rfl, found, rfl⟩ |
    ⟨rfl, kept, sameCalls, installed⟩ | ⟨allowed, _⟩
  · exact absurd trivial broken
  · simp only [FreshComesLast, not_or] at broken
    exact stale_apply accepting found broken.1 broken.2
  · simp only [FreshComesLast, Shim.FreshFor, not_or] at broken
    obtain ⟨notFresh, notPending⟩ := broken
    push Not at notFresh
    obtain ⟨names, upcoming, wrong⟩ := notFresh
    unfold Stale
    rw [kept, sameCalls, installed]
    exact ⟨⟨names, upcoming, wrong⟩, notPending⟩
  · exact absurd allowed broken

/-- From a stale state the calls under way return, oldest first, and leave the
resolver stale. -/
theorem exists_drained_of_stale (accepting : verifier.Accepting) {shim : Shim}
    (stale : Stale shim) :
    ∃ moves final, Run (step verifier) anyStep shim moves final ∧
      final.calls = [] ∧ Stale final := by
  induction calls : shim.calls generalizing shim with
  | nil => exact ⟨[], shim, .nil, calls, stale⟩
  | cons validated waiting ih =>
      obtain ⟨⟨names, installed, _⟩, notPending⟩ := stale
      have found : shim.calls[0]? = some validated := by simp [calls]
      have resolver : shim.resolver ≠ none := by simp [installed]
      have staleNext := stale_apply accepting found resolver notPending
      obtain ⟨moves, final, drains, returned, staleFinal⟩ :=
        ih staleNext (by simp [calls])
      have stepTo : step verifier shim (.apply 0) = some { shim with
          engine := shim.engine.map (applyTo verifier validated)
          calls := shim.calls.eraseIdx 0 } := by
        simp only [step, found]
      have applied : Run (step verifier) anyStep shim ([] ++ [.apply 0]) _ :=
        .snoc .nil trivial stepTo
      exact ⟨_, final, applied.append drains, returned, staleFinal⟩

/-- The flag is never lost exactly as long as no stale value has the last word:
runs under the guard keep it, and the first step to break the guard can be
followed by the return of the calls under way, after which it is lost. -/
theorem flag_kept_iff_fresh_comes_last (accepting : verifier.Accepting) :
    (∀ moves final, Run (step verifier) FreshComesLast initial moves final →
        FlagKept moves final) ∧
      ∀ moves before move after, Run (step verifier) anyStep initial moves before →
        ¬ FreshComesLast before move → step verifier before move = some after →
        ∃ later final,
          Run (step verifier) anyStep initial (moves ++ [move] ++ later) final ∧
            ¬ FlagKept (moves ++ [move] ++ later) final := by
  constructor
  · intro moves final run
    exact flagKept_of_guarded accepting run
  · intro moves before move after run broken stepTo
    have stale := stale_of_not_freshComesLast accepting broken stepTo
    obtain ⟨later, final, drains, returned, ⟨names, installed, wrong⟩, _⟩ :=
      exists_drained_of_stale accepting stale
    have whole := (run.snoc trivial stepTo).append drains
    refine ⟨later, final, whole, ?_⟩
    intro kept
    apply wrong
    rw [internetValidated_eq_lastStored whole]
    exact kept returned names installed

/-- A verifier that starts out online and takes over any wait. -/
def acceptingVerifier : TxtVerifier where
  defaultTimeout := txtTimeoutOnline
  setTimeout := fun _ want => some want

theorem acceptingVerifier_accepting : acceptingVerifier.Accepting :=
  fun _ _ => rfl

/-- A call that overtakes a start is kept when the start has not read yet. -/
theorem flag_kept_by_early_store :
    ∃ final, Run (step acceptingVerifier) FreshComesLast initial
        [.start, .store false, .apply 0, .readValidated true, .install] final ∧
      final.resolver = some { txtTimeout := txtTimeoutUnvalidated } ∧
      FlagKept [.start, .store false, .apply 0, .readValidated true, .install] final := by
  have reaches : ∃ final, Run (step acceptingVerifier) FreshComesLast initial
      [.start, .store false, .apply 0, .readValidated true, .install] final ∧
        final.resolver = some { txtTimeout := txtTimeoutUnvalidated } :=
    exists_run_of_execute _ (by decide)
  rcases reaches with ⟨final, run, waits⟩
  exact ⟨final, run, waits,
    (flag_kept_iff_fresh_comes_last acceptingVerifier_accepting).1 _ _ run⟩

/-- A start reads true, the call that stores false finds no engine, and the
start then installs its resolver. -/
theorem flag_lost_by_store_during_start :
    ¬ ∀ verifier : TxtVerifier, verifier.Accepting → ∀ moves final,
      Run (step verifier) anyStep initial moves final → FlagKept moves final := by
  intro claim
  have lost : ∃ final, Run (step acceptingVerifier) anyStep initial
      [.start, .readValidated true, .store false, .apply 0, .install] final ∧
        ¬ FlagKept [.start, .readValidated true, .store false, .apply 0, .install] final :=
    exists_run_of_execute _ (by decide)
  obtain ⟨final, run, notKept⟩ := lost
  exact notKept (claim _ acceptingVerifier_accepting _ _ run)

end Fips2Go.NamesOnline
