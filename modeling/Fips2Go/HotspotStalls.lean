import Fips2Go.HotspotRequests

/-!
# Where the search for the hotspot stalls

A turn of the loop that finds the engine down, as it is while the node restarts,
ends the loop for good, and a network lost before it had an address leaves the
service with a dead request that keeps it from filing another.
-/

namespace Fips2Go.Hotspot

open GuardedRuns ThreadPrograms Underlay

variable {device : Device} {answers : Answers} {instr : Instr} {service : Service}
  {state next : State} {callback : Nat}

/-- No session begins, and no hotspot is joined. -/
def unjoined (state : State) : Move → Bool
  | .connect _ => false
  | .run thread _ =>
      match (state.pending thread).head? with
      | some (.updateHotspot ..) => false
      | _ => true
  | _ => true

theorem unjoined_run {thread : Thread} {rest : List Instr}
    (allowed : unjoined state (.run thread answers) = true)
    (ahead : state.pending thread = instr :: rest) (network : Network) (addr : String)
    (prefixLen : Nat) : instr ≠ .updateHotspot network addr prefixLen := by
  rintro rfl
  simp [unjoined, ahead] at allowed

/-! ### A missed turn -/

/-- Does not start the loop again. -/
def Instr.idles : Instr → Bool
  | .maybeFileSpecifier | .checkJoined | .checkBackoff | .checkScan => true
  | .fileSpecifierRequest _ | .setCallback .. | .requestNetwork .. => true
  | .updateHotspot .. | .backOff | .clearHotspot => true
  | .clearHotspotAddr | .clearHotspotPrefixLen => true
  | .teardownSpecifierRequest | .clearCallback | .unregisterWifiWatcher | .clearWifiWatcher => true
  | .unregisterScanWatcher | .clearScanWatcher | .removeHotspotSuggestion => true
  | .quitScanKick | .forget => true
  | _ => false

/-- There is no loop, and no hotspot is joined. -/
def Ended (scans : Nat) (service : Service) : Prop :=
  service.scanKick = none ∧ service.hotspotNetwork = none ∧ service.scans = scans

theorem exec_ended {scans : Nat} (ended : Ended scans service) (idles : instr.idles = true)
    (unjoined : ∀ network addr prefixLen, instr ≠ .updateHotspot network addr prefixLen) :
    Ended scans (exec device answers instr service).2 ∧
      ∀ follow ∈ (exec device answers instr service).1, follow.idles = true := by
  obtain ⟨noLoop, absent, same⟩ := ended
  cases instr with
  | updateHotspot network addr prefixLen => exact absurd rfl (unjoined network addr prefixLen)
  | clearHotspot => simp [exec, clearProgram, absent, Ended, noLoop, same]
  | checkScan =>
      simp only [exec]
      split <;> (try split) <;> simp [Ended, noLoop, absent, same, Instr.idles]
  | quitScanKick | forget | setCallback | backOff | clearHotspotAddr | clearHotspotPrefixLen
  | clearCallback | unregisterWifiWatcher | clearWifiWatcher | unregisterScanWatcher
  | clearScanWatcher | removeHotspotSuggestion =>
      simp [exec, Ended, noLoop, absent, same, Instr.idles]
  | _ => first
    | exact Bool.noConfusion idles
    | simp only [exec]
      split <;> simp [Ended, noLoop, absent, same, Instr.idles, Service.setRequest]

theorem Comes.idles {program : List Instr} (comes : Comes service program)
    (absent : service.hotspotNetwork = none) : ∀ instr ∈ program, instr.idles = true := by
  cases comes with
  | update network properties =>
      unfold updateProgram
      split <;> simp [Instr.idles]
  | clear => simp [clearProgram, absent]
  | nothing | scan | lost | unavailable => simp [Instr.idles]

theorem callbackStep_ended {scans : Nat} {told : Callback} {program : List Instr}
    {after : Service} (ended : Ended scans service)
    (stepTo : callbackStep service told = some (program, after)) :
    Ended scans after ∧ ∀ instr ∈ program, instr.idles = true := by
  obtain ⟨noLoop, absent, unscanned⟩ := ended
  by_cases kick : ∃ task, told = .kick task
  · obtain ⟨task, rfl⟩ := kick
    obtain ⟨-, result⟩ := Option.ite_none_right_eq_some.mp stepTo
    cases result
    simp [Ended, noLoop, absent, unscanned]
  · obtain ⟨same, scans, comes⟩ := callbackStep_comes stepTo fun task is => kick ⟨task, is⟩
    simp only [Service.search, Prod.mk.injEq] at same
    unfold Ended
    rw [same.1, same.2.2.1, scans]
    exact ⟨⟨noLoop, absent, unscanned⟩, comes.idles absent⟩

theorem ended_step {scans : Nat} {move : Move}
    (ended : state.Confined (Ended scans) fun instr => instr.idles = true)
    (allowed : unjoined state move = true) (stepTo : step device state move = some next) :
    next.Confined (Ended scans) fun instr => instr.idles = true := by
  cases move with
  | callback told =>
      obtain ⟨-, stepTo⟩ := Option.ite_none_right_eq_some.mp stepTo
      obtain ⟨⟨program, after⟩, came, rfl⟩ := Option.map_eq_some_iff.mp stepTo
      obtain ⟨still, brings⟩ := callbackStep_ended ended.shared came
      exact ended.start still brings
  | connect id => cases allowed
  | run thread answers =>
      have ran : runStep (exec device) state thread answers = some next := stepTo
      apply ended.runStep ran
      intro instr rest ahead idles still
      exact exec_ended still idles (unjoined_run allowed ahead)
  | stop stopping =>
      obtain ⟨-, result⟩ := Option.ite_none_right_eq_some.mp stepTo
      cases result
      exact ended.start ended.shared (by simp [stopProgram, Instr.idles])

variable (device) in
/-- A turn of the loop that finds the engine down ends the search: no scan is
asked for again, the engine running or not, until a hotspot is joined by
other means or another session begins. -/
theorem missed_turn_ends_search {task : Nat} (quiet : state.Quiet)
    (absent : state.shared.hotspotNetwork = none) (current : state.shared.scanKick = some task)
    (posted : task ∈ state.shared.kicks) (down : answers.running = false) :
    ∃ missed, Run (step device) anyStep state
        [.callback (.kick task), .run .main answers, .run .main answers] missed ∧
      ∀ moves final, Run (step device) (fun state move => unjoined state move = true)
          missed moves final →
        final.shared.scans = state.shared.scans ∧ final.shared.scanKick = none := by
  have checking : exec device answers (.searchOn task)
      { state.shared with kicks := state.shared.kicks.erase task } = ([.dropScanKick],
        { state.shared with kicks := state.shared.kicks.erase task }) := by
    simp [exec, down]
  obtain ⟨missed, run, still, finished⟩ := turn_runs quiet current posted checking rfl
  refine ⟨missed, run, fun moves final later => ?_⟩
  have ended : missed.Confined (Ended state.shared.scans) fun instr => instr.idles = true := by
    apply still.confined
    rw [finished]
    exact ⟨rfl, absent, rfl⟩
  have throughout : final.Confined (Ended state.shared.scans) fun instr => instr.idles = true := by
    apply later.invariant
    · exact ended
    · exact fun _ _ _ ended allowed stepTo => ended_step ended allowed stepTo
  exact ⟨throughout.shared.2.2, throughout.shared.1⟩

theorem restart_ends_search : ∃ moves missed, Run (step ⟨31⟩) anyStep initial moves missed ∧
    ∀ later final, Run (step ⟨31⟩) (fun state move => unjoined state move = true)
        missed later final →
      final.shared.scans = 0 ∧ final.shared.scanKick = none := by
  have reached : ∃ state : State,
      Run (step ⟨31⟩) anyStep initial (sessionMoves [] 14) state ∧
      (state.pending .main = [] ∧ state.pending (.connect 0) = [] ∧
        state.shared.hotspotNetwork = none ∧ state.shared.scanKick = some 2 ∧
        2 ∈ state.shared.kicks ∧ state.shared.scans = 0) :=
    exists_run_of_execute (fun state : State => state.pending .main = [] ∧
      state.pending (.connect 0) = [] ∧ state.shared.hotspotNetwork = none ∧
        state.shared.scanKick = some 2 ∧ 2 ∈ state.shared.kicks ∧ state.shared.scans = 0)
      (by decide +kernel)
  obtain ⟨state, run, looper, connected, absent, current, posted, unscanned⟩ := reached
  have quiet := quiet_of_session run looper connected
  obtain ⟨missed, turn, ended⟩ := missed_turn_ends_search ⟨31⟩ quiet absent current posted
    (show ({ granted [] with running := false } : Answers).running = false from rfl)
  refine ⟨_, missed, run.append turn, fun later final after => ?_⟩
  rw [← unscanned]
  exact ended later final after

/-! ### A dead request -/

/-- Comes while a dead request is held. -/
def Instr.waits : Instr → Bool
  | .post _ | .searchOn _ | .dropScanKick | .maybeFileSpecifier | .updateHotspot .. => true
  | _ => false

/-- The service holds this request, none is served, and no hotspot is joined. -/
structure Hung (callback filings : Nat) (service : Service) : Prop where
  held : service.hotspotCallback = some callback
  dead : ∀ other, ¬Served (service.requests other)
  absent : service.hotspotNetwork = none
  filings : service.filings = filings

/-- Nor does the session end. -/
def undisturbed (state : State) (move : Move) : Bool :=
  unjoined state move && match move with
    | .stop _ => false
    | _ => true

theorem exec_hung {filings : Nat} (hung : Hung callback filings service)
    (waits : instr.waits = true)
    (unjoined : ∀ network addr prefixLen, instr ≠ .updateHotspot network addr prefixLen) :
    Hung callback filings (exec device answers instr service).2 ∧
      ∀ follow ∈ (exec device answers instr service).1, follow.waits = true := by
  cases instr with
  | post task | dropScanKick =>
      exact ⟨⟨hung.held, hung.dead, hung.absent, hung.filings⟩, by simp [exec]⟩
  | searchOn task =>
      simp only [exec]
      split
      · exact ⟨hung, by simp [Instr.waits]⟩
      · exact ⟨⟨hung.held, hung.dead, hung.absent, hung.filings⟩, by simp [Instr.waits]⟩
  | maybeFileSpecifier => simp [exec, hung.held, hung]
  | updateHotspot network addr prefixLen => exact absurd rfl (unjoined network addr prefixLen)
  | _ => exact Bool.noConfusion waits

theorem callbackStep_hung {filings : Nat} {told : Callback} {program : List Instr}
    {after : Service} (hung : Hung callback filings service)
    (stepTo : callbackStep service told = some (program, after)) :
    Hung callback filings after ∧ ∀ instr ∈ program, instr.waits = true := by
  have served : ∀ other request, service.requests other = some request → request = .lost := by
    intro other request found
    by_contra different
    exact hung.dead other ⟨by simp [found], by simpa [found] using different⟩
  cases told with
  | kick task =>
      obtain ⟨-, result⟩ := Option.ite_none_right_eq_some.mp stepTo
      cases result
      refine ⟨⟨hung.held, hung.dead, hung.absent, hung.filings⟩, ?_⟩
      split <;> simp [Instr.waits]
  | scanResultsAvailable watcher =>
      obtain ⟨-, result⟩ := Option.ite_none_right_eq_some.mp stepTo
      cases result
      exact ⟨hung, by simp [Instr.waits]⟩
  | watcherCapabilities watcher network ssid properties =>
      obtain ⟨-, result⟩ := Option.ite_none_right_eq_some.mp stepTo
      split at result <;> cases result
      · refine ⟨hung, ?_⟩
        unfold updateProgram
        split <;> simp [Instr.waits]
      · exact ⟨hung, by simp⟩
  | watcherLinkProperties | watcherLost =>
      obtain ⟨-, result⟩ := Option.ite_none_right_eq_some.mp stepTo
      simp only [hung.absent, reduceCtorEq, if_false] at result
      cases result
      exact ⟨hung, by simp⟩
  | specifierAvailable other network properties =>
      simp only [callbackStep] at stepTo
      split at stepTo
      next found => cases served other _ found
      next found => cases served other _ found
      next => cases stepTo
  | specifierLinkProperties other network properties =>
      obtain ⟨found, -⟩ := Option.ite_none_right_eq_some.mp stepTo
      cases served other _ found
  | specifierLost other =>
      simp only [callbackStep] at stepTo
      split at stepTo
      next found => cases served other _ found
      next => cases stepTo
  | specifierUnavailable other =>
      simp only [callbackStep] at stepTo
      split at stepTo
      next found => cases served other _ found
      next => cases stepTo

theorem hung_step {filings : Nat} {move : Move}
    (hung : state.Confined (Hung callback filings) fun instr => instr.waits = true)
    (allowed : undisturbed state move = true) (stepTo : step device state move = some next) :
    next.Confined (Hung callback filings) fun instr => instr.waits = true := by
  obtain ⟨stays, lasts⟩ := Bool.and_eq_true_iff.mp allowed
  cases move with
  | callback told =>
      obtain ⟨-, stepTo⟩ := Option.ite_none_right_eq_some.mp stepTo
      obtain ⟨⟨program, after⟩, came, rfl⟩ := Option.map_eq_some_iff.mp stepTo
      obtain ⟨still, brings⟩ := callbackStep_hung hung.shared came
      exact hung.start still brings
  | connect id => cases stays
  | run thread answers =>
      have ran : runStep (exec device) state thread answers = some next := stepTo
      apply hung.runStep ran
      intro instr rest ahead waits still
      exact exec_hung still waits (unjoined_run stays ahead)
  | stop stopping => cases lasts

/-- A network that a request found and that is lost before it had an address, while
nothing is under way and Android serves no other request, leaves the dead request
with the service: however often scans show the hotspot then, no request is filed
until a hotspot is joined by other means, the session ends or another begins. -/
theorem lost_before_address_blocks {network : Network} (quiet : state.Quiet)
    (absent : state.shared.hotspotNetwork = none)
    (current : state.shared.hotspotCallback = some callback)
    (connected : state.shared.requests callback = some (.connected network))
    (alone : ∀ other ≠ callback, ¬Served (state.shared.requests other)) :
    ∃ lost, step device state (.callback (.specifierLost callback)) = some lost ∧
      ∀ moves final, Run (step device) (fun state move => undisturbed state move = true)
          lost moves final →
        final.shared.filings = state.shared.filings ∧
          final.shared.hotspotCallback = some callback ∧
          ¬Served (final.shared.requests callback) := by
  have losing : step device state (.callback (.specifierLost callback)) =
      some (state.start .main [] (state.shared.setRequest callback (some .lost))) := by
    simp [step, quiet .main, callbackStep, connected, clearProgram, absent]
  refine ⟨_, losing, fun moves final later => ?_⟩
  have still : (state.start .main []
      (state.shared.setRequest callback (some .lost))).Quiet :=
    quiet_start_nil fun other _ => quiet other
  have hung : (state.start .main [] (state.shared.setRequest callback (some .lost))).Confined
      (Hung callback state.shared.filings) fun instr => instr.waits = true := by
    apply still.confined
    refine ⟨current, fun other => ?_, absent, rfl⟩
    by_cases same : other = callback
    · simp [Service.setRequest, same, Served]
    · simpa [Service.setRequest, same] using alone other same
  have throughout : final.Confined (Hung callback state.shared.filings)
      fun instr => instr.waits = true := by
    apply later.invariant
    · exact hung
    · exact fun _ _ _ hung allowed stepTo => hung_step hung allowed stepTo
  exact ⟨throughout.shared.filings, throughout.shared.held, throughout.shared.dead callback⟩

private def visible : List ScanResult := [⟨"!FIPS", "02:00:00:00:00:01", -40⟩]

/-- The request that a session files gets network 7, which has no address yet. -/
private def unaddressedMoves : List Move :=
  sessionMoves visible 17 ++ [.callback (.specifierAvailable 3 7 none)]

private def unaddressedRequests : Nat → Option Request :=
  Function.update (Function.update (fun _ => none) 3 (some (.filed (some "02:00:00:00:00:01"))))
    3 (some (.connected 7))

theorem execute_unaddressedMoves :
    (execute (step ⟨31⟩) anyStep initial unaddressedMoves).map (fun state =>
      (state.pending .main, state.pending (.connect 0), state.shared.hotspotNetwork,
        state.shared.hotspotCallback, state.shared.scanWatchers, state.shared.filings,
        state.shared.requests)) =
      some ([], [], none, some 3, [1], 1, unaddressedRequests) := by
  rfl

variable (device) in
/-- A scan shows the hotspot to a service that holds a request. -/
theorem scan_of_held {watcher : Nat} (idle : state.pending .main = [])
    (watched : watcher ∈ state.shared.scanWatchers)
    (held : state.shared.hotspotCallback = some callback) :
    ∃ final, Run (step device) (fun state move => undisturbed state move = true) state
      [.callback (.scanResultsAvailable watcher), .run .main (granted visible)] final := by
  have seen : step device state (.callback (.scanResultsAvailable watcher)) =
      some (state.start .main [.maybeFileSpecifier] state.shared) := by
    simp [step, idle, callbackStep, watched]
  have filing : exec device (granted visible) .maybeFileSpecifier state.shared =
      ([], state.shared) := by
    simp [exec, held]
  have admitted : undisturbed state (.callback (.scanResultsAvailable watcher)) = true := rfl
  have waits : undisturbed (state.start .main [.maybeFileSpecifier] state.shared)
      (.run .main (granted visible)) = true := by
    simp [undisturbed, unjoined]
  have first : Run (step device) (fun state move => undisturbed state move = true) state
      [.callback (.scanResultsAvailable watcher)] _ := Run.nil.snoc admitted seen
  exact ⟨_, first.snoc waits (step_run (State.pending_start_self ..) filing)⟩

/-- The first session's request, lost before it had an address; the next scan
shows the hotspot, and nothing comes of it. -/
theorem lost_request_blocks : ∃ state lost final,
    Run (step ⟨31⟩) anyStep initial unaddressedMoves state ∧
      step ⟨31⟩ state (.callback (.specifierLost 3)) = some lost ∧
      Run (step ⟨31⟩) (fun state move => undisturbed state move = true) lost
        [.callback (.scanResultsAvailable 1), .run .main (granted visible)] final ∧
      final.shared.filings = 1 ∧ final.shared.hotspotCallback = some 3 ∧
      ¬Served (final.shared.requests 3) := by
  obtain ⟨state, executed, facts⟩ := Option.map_eq_some_iff.mp execute_unaddressedMoves
  simp only [Prod.mk.injEq] at facts
  obtain ⟨looper, session, absent, current, watching, filed, requests⟩ := facts
  have run := run_of_execute executed
  have quiet : state.Quiet := by
    apply quiet_of_run run _ _ looper session <;> simp [unaddressedMoves, sessionMoves]
  have connected : state.shared.requests 3 = some (.connected 7) := by
    rw [requests]
    rfl
  have alone : ∀ other ≠ 3, ¬Served (state.shared.requests other) := by
    intro other different
    simp [requests, unaddressedRequests, different, Served]
  obtain ⟨lost, losing, blocks⟩ := lost_before_address_blocks quiet absent current connected alone
  have unserved : lost =
      state.start .main [] (state.shared.setRequest 3 (some .lost)) := by
    simpa [step, quiet .main, callbackStep, connected, clearProgram, absent] using losing.symm
  have watched : 1 ∈ lost.shared.scanWatchers := by
    simp [unserved, Service.setRequest, watching]
  have held : lost.shared.hotspotCallback = some 3 := by
    simpa [unserved, Service.setRequest] using current
  have idle : lost.pending .main = [] := by simp [unserved]
  obtain ⟨final, later⟩ := scan_of_held ⟨31⟩ idle watched held
  obtain ⟨filings, still, dead⟩ := blocks _ final later
  exact ⟨state, lost, final, run, losing, later, filings.trans filed, still, dead⟩

end Fips2Go.Hotspot
