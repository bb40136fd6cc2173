import Fips2Go.HotspotSearch

/-!
# The request for the hotspot is served

A specifier request that the service holds is one that Android still serves, as
long as no network is lost before it had an address.  A dead one would keep the
service from filing another.
-/

namespace Fips2Go.Hotspot

open GuardedRuns ThreadPrograms Underlay

variable {device : Device} {answers : Answers} {instr : Instr} {service : Service}

/-- The fields of the specifier request. -/
def Service.request (service : Service) : Option Nat × (Nat → Option Request) :=
  (service.hotspotCallback, service.requests)

def Instr.files : Instr → Bool
  | .setCallback .. | .requestNetwork .. | .teardownSpecifierRequest | .clearCallback => true
  | _ => false

variable (device answers service) in
theorem exec_request (other : instr.files = false) :
    (exec device answers instr service).2.request = service.request := by
  cases instr with
  | arm | checkScan => simp only [exec]; split <;> (try split) <;> rfl
  | startScanKick => simp only [exec]; split <;> rfl
  | _ => first
    | exact Bool.noConfusion other
    | rfl
    | simp only [exec]; split <;> rfl

/-- The platform still has the request, and its network is not lost. -/
def Served (request : Option Request) : Prop := request ≠ none ∧ request ≠ some .lost

def Held (callback : Nat) (service : Service) : Prop :=
  service.hotspotCallback = some callback → Served (service.requests callback)

/-- Files this request, or is followed by the end of the held one. -/
def Instr.Renews (callback : Nat) : Instr → Prop
  | .requestNetwork other _ => other = callback
  | .leave | .teardownSpecifierRequest | .clearCallback => True
  | _ => False

theorem exec_held {callback : Nat} (before : Held callback service ∨ instr.Renews callback) :
    Held callback (exec device answers instr service).2 ∨
      ∃ follow ∈ (exec device answers instr service).1, follow.Renews callback := by
  cases touches : instr.files with
  | false =>
      have kept := exec_request device answers service touches
      rcases before with held | renews
      · left
        simp only [Service.request, Prod.mk.injEq] at kept
        unfold Held
        rw [kept.1, kept.2]
        exact held
      · cases instr with
        | leave => exact .inr ⟨.teardownSpecifierRequest, by simp [exec], trivial⟩
        | requestNetwork | teardownSpecifierRequest | clearCallback => cases touches
        | _ => exact renews.elim
  | true =>
      cases instr with
      | setCallback other bssid =>
          by_cases same : other = callback
          · exact .inr ⟨.requestNetwork other bssid, by simp [exec], same⟩
          · exact .inl fun current => absurd (Option.some.inj current) same
      | requestNetwork other bssid =>
          left
          simp only [exec]
          split
          · intro current
            by_cases same : callback = other
            · simp [Service.setRequest, same, Served]
            · have held : Held callback service := before.resolve_right (Ne.symm same)
              simpa [Service.setRequest, same] using held current
          · exact fun current => absurd current (Option.some_ne_none callback).symm
      | teardownSpecifierRequest =>
          right
          simp only [exec]
          split <;> exact ⟨.clearCallback, by simp, trivial⟩
      | clearCallback =>
          exact .inl fun current => absurd current (Option.some_ne_none callback).symm
      | _ => exact Bool.noConfusion touches

/-- A hotspot is joined when the network of a specifier request is lost. -/
def addressed (state : State) : Move → Bool
  | .callback (.specifierLost _) => state.shared.hotspotNetwork.isSome
  | _ => true

theorem callbackStep_held {told : Callback} {program : List Instr} {after : Service}
    {callback : Nat} (stepTo : callbackStep service told = some (program, after))
    (joined : ∀ lost, told = .specifierLost lost → service.hotspotNetwork ≠ none)
    (held : Held callback service) :
    Held callback after ∨ ∃ instr ∈ program, instr.Renews callback := by
  cases told with
  | kick | scanResultsAvailable | specifierLinkProperties =>
      obtain ⟨-, result⟩ := Option.ite_none_right_eq_some.mp stepTo
      cases result
      exact .inl held
  | watcherCapabilities | watcherLinkProperties | watcherLost =>
      obtain ⟨-, result⟩ := Option.ite_none_right_eq_some.mp stepTo
      split at result <;> cases result <;> exact .inl held
  | specifierAvailable other network properties =>
      simp only [callbackStep] at stepTo
      split at stepTo <;> cases stepTo
      all_goals
        left
        intro current
        by_cases same : callback = other
        · simp [Service.setRequest, same, Served]
        · simpa [Service.setRequest, same] using held current
  | specifierLost other =>
      have absent := joined other rfl
      simp only [callbackStep] at stepTo
      split at stepTo <;> cases stepTo
      exact .inr ⟨.leave, by simp [clearProgram, absent], trivial⟩
  | specifierUnavailable other =>
      simp only [callbackStep] at stepTo
      split at stepTo <;> cases stepTo
      exact .inr ⟨.teardownSpecifierRequest, by simp, trivial⟩

section Runs

variable {state next : State} {callback : Nat}

theorem held_step {move : Move}
    (held : state.Owed (Held callback) (Instr.Renews callback))
    (allowed : addressed state move = true) (stepTo : step device state move = some next) :
    next.Owed (Held callback) (Instr.Renews callback) := by
  cases move with
  | callback told =>
      obtain ⟨idle, stepTo⟩ := Option.ite_none_right_eq_some.mp stepTo
      obtain ⟨⟨program, after⟩, came, rfl⟩ := Option.map_eq_some_iff.mp stepTo
      apply held.start idle (callbackStep_held came _)
      rintro lost rfl
      exact Option.isSome_iff_ne_none.mp allowed
  | connect id =>
      obtain ⟨idle, result⟩ := Option.ite_none_right_eq_some.mp stepTo
      cases result
      exact held.start idle .inl
  | run thread answers =>
      have ran : runStep (exec device) state thread answers = some next := stepTo
      exact held.runStep ran fun _ _ _ before => exec_held before
  | stop stopping =>
      obtain ⟨idle, result⟩ := Option.ite_none_right_eq_some.mp stepTo
      cases result
      exact held.start idle .inl

/-- A specifier request that the service holds while nothing is under way is one
that Android still serves, unless a network was lost before it had an address. -/
theorem held_request_is_served {moves : List Move}
    (run : Run (step device) (fun state move => addressed state move = true) initial moves state)
    (quiet : state.Quiet) (current : state.shared.hotspotCallback = some callback) :
    Served (state.shared.requests callback) := by
  have held : state.Owed (Held callback) (Instr.Renews callback) := by
    apply run.invariant
    · exact .inl fun current => absurd current (Option.some_ne_none callback).symm
    · exact fun _ _ _ held allowed stepTo => held_step held allowed stepTo
  exact held.of_quiet quiet current

theorem filed_request_is_served : ∃ moves state,
    Run (step ⟨31⟩) (fun state move => addressed state move = true) initial moves state ∧
      state.shared.hotspotCallback = some 3 ∧ Served (state.shared.requests 3) := by
  have reached : ∃ state : State,
      Run (step ⟨31⟩) (fun state move => addressed state move = true) initial
        (sessionMoves [⟨"!FIPS", "02:00:00:00:00:01", -40⟩] 17) state ∧
      (state.pending .main = [] ∧ state.pending (.connect 0) = [] ∧
        state.shared.hotspotCallback = some 3) :=
    exists_run_of_execute (fun state : State => state.pending .main = [] ∧
      state.pending (.connect 0) = [] ∧ state.shared.hotspotCallback = some 3)
      (by decide +kernel)
  obtain ⟨state, run, looper, connected, current⟩ := reached
  have quiet := quiet_of_session run looper connected
  exact ⟨_, state, run, current, held_request_is_served run quiet current⟩

end Runs

end Fips2Go.Hotspot
