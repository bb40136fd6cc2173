import Fips2Go.HostsSync

/-!
# The schedule of the mesh names sync

The other callers of `schedule`: `onConnected` and `onDisconnected`, which the
service calls as the tunnel goes up and down, and `syncNow`.  A connect runs on
a thread of its own, so such a call may be late; a connect that fails shuts down
on that thread, so `onDisconnected` may be called while a newer connect has the
tunnel up.  A request of these callers is kept like one of an earlier run.

While the tunnel is up, its connect was told since the last `onDisconnected` and
the sync is on, it never comes to rest with nothing pending.
-/

namespace Fips2Go.HostsSync

open GuardedRuns

def connectDelayMs : Nat := 10000

/-- A call that is under way, after its first step. -/
inductive CallPc where
  | readStatus
  | connected (delayMs : Nat)
  | syncNow
  deriving DecidableEq, Repr

/-- The sync and what is around it; `connected` tells that `onConnected` was
through since the tunnel was last meant to go up, and since `onDisconnected`. -/
structure Scheduled where
  sync : Sync
  tunnelActive : Bool
  connected : Bool
  calls : List CallPc
  deriving DecidableEq, Repr

inductive Turn where
  | save (cfg : Config)
  | ui
  | worker (input : Input)
  | tunnelUp
  | tunnelDown
  | onConnected
  | onDisconnected
  | syncNow
  | call (index now : Nat)
  deriving DecidableEq, Repr

/-- A call goes on. -/
def callStep (state : Scheduled) (index now : Nat) : Option Scheduled :=
  match state.calls[index]? with
  | none => none
  | some .readStatus =>
      let due := state.sync.status.nextAttempt - now
      some { state with calls := state.calls.set index (.connected (max connectDelayMs due)) }
  | some (.connected delayMs) =>
      some { state with
        sync := state.sync.schedule delayMs
        connected := true
        calls := state.calls.eraseIdx index }
  | some .syncNow =>
      some { state with
        sync := state.sync.schedule 0
        calls := state.calls.eraseIdx index }

/-- Whether the tunnel is up is no longer up to the input. -/
def schedStep (state : Scheduled) : Turn → Option Scheduled
  | .save cfg => (step state.sync (.save cfg)).map fun sync => { state with sync }
  | .ui => (step state.sync .ui).map fun sync => { state with sync }
  | .worker input =>
      let input := { input with tunnelActive := state.tunnelActive }
      (step state.sync (.worker input)).map fun sync => { state with sync }
  | .tunnelUp => some { state with tunnelActive := true, connected := false }
  | .tunnelDown => some { state with tunnelActive := false, connected := false }
  | .onConnected =>
      if state.sync.prefs.enabled then some { state with calls := state.calls ++ [.readStatus] }
      else some { state with connected := true }
  | .onDisconnected =>
      -- On whichever thread shuts down: the tunnel may be up by then.
      some { state with sync := { state.sync with pending := none }, connected := false }
  | .syncNow =>
      if state.tunnelActive then some { state with calls := state.calls ++ [.syncNow] }
      else some state
  | .call index now => callStep state index now

/-- The app is started. -/
def Scheduled.initial (prefs : Config) (block : Option Block) : Scheduled where
  sync := HostsSync.initial prefs block
  tunnelActive := false
  connected := false
  calls := []

/-! ### What keeps the schedule going -/

/-- A run that files a request before it ends, if it can: it does not remove the
block, and no save has overtaken the configuration it would check. -/
def RunPc.goesOn (pc : RunPc) (generation : Nat) : Bool :=
  match pc with
  | .loadSynced | .removeBlock _ | .setRemoved _ => false
  | .setRunning _ gen | .fetch _ gen | .compare _ gen _ | .saveSynced _ gen _ => gen = generation
  | _ => true

/-- Nothing stands against the next sync: the tunnel is up, its connect told so
after the last `onDisconnected`, the sync is on, and no save is under way. -/
structure Scheduled.Live (state : Scheduled) : Prop where
  tunnelActive : state.tunnelActive = true
  connected : state.connected = true
  enabled : state.sync.prefs.enabled = true
  idle : state.sync.ui = .idle

/-- A request is pending, or a run is under way that files one. -/
def Sync.Armed (sync : Sync) : Prop :=
  sync.pending ≠ none ∨ ∃ run, sync.worker = some run ∧ run.pc.goesOn sync.generation = true

theorem armed_schedule (sync : Sync) (delayMs : Nat) : (sync.schedule delayMs).Armed :=
  Or.inl nofun

theorem Sync.Armed.ofRun {sync : Sync} {run : Running} {pc : RunPc}
    (goesOn : pc.goesOn sync.generation = true) : (sync.at run pc).Armed :=
  Or.inr ⟨{ run with pc }, rfl, goesOn⟩

/-- What a step of a run leaves alone. -/
theorem runStep_frame (sync : Sync) (run : Running) (input : Input) :
    (runStep sync run input).prefs = sync.prefs ∧ (runStep sync run input).ui = sync.ui ∧
      (sync.pending ≠ none → (runStep sync run input).pending ≠ none) := by
  obtain ⟨request, basis, pc⟩ := run
  unfold runStep
  cases pc with
  | reschedule delayMs => exact ⟨rfl, rfl, fun _ => nofun⟩
  | setRemoved failure => cases failure <;> exact ⟨rfl, rfl, id⟩
  | compare cfg gen outcome =>
      dsimp only
      split
      · exact ⟨rfl, rfl, id⟩
      · cases outcome <;> exact ⟨rfl, rfl, id⟩
  | readConfig | checkRunning | setInterrupted | setStatus =>
      dsimp only
      repeat' split
      all_goals exact ⟨rfl, rfl, id⟩
  | loadSynced | removeBlock | saveSynced =>
      dsimp only
      split <;> exact ⟨rfl, rfl, id⟩
  | readGeneration | setRunning | fetch | readStatus | readFailed => exact ⟨rfl, rfl, id⟩

/-- A run that goes on does so with its next step, or files its request. -/
theorem runStep_armed {sync : Sync} {run : Running} {input : Input}
    (goesOn : run.pc.goesOn sync.generation = true) (tunnelActive : input.tunnelActive = true)
    (enabled : sync.prefs.enabled = true) : (runStep sync run input).Armed := by
  obtain ⟨request, basis, pc⟩ := run
  unfold runStep
  cases pc with
  | readConfig =>
      dsimp only
      rw [if_pos enabled]
      exact .ofRun rfl
  | checkRunning cfg =>
      dsimp only
      rw [if_pos tunnelActive]
      split <;> exact .ofRun rfl
  | readGeneration cfg => exact .ofRun (decide_eq_true rfl)
  | setRunning cfg gen => exact .ofRun goesOn
  | fetch cfg gen => exact .ofRun goesOn
  | compare cfg gen outcome =>
      have current : gen = sync.generation := of_decide_eq_true goesOn
      dsimp only
      rw [if_neg (not_not_intro current)]
      cases outcome with
      | fetched answer => exact .ofRun goesOn
      | restarted => exact .ofRun rfl
      | failed message offline => exact .ofRun rfl
  | saveSynced cfg gen answer =>
      dsimp only
      split
      · exact .ofRun rfl
      · exact .ofRun goesOn
  | readStatus cfg answer changed => exact .ofRun rfl
  | readFailed cfg message offline => exact .ofRun rfl
  | setInterrupted =>
      dsimp only
      rw [if_pos tunnelActive]
      exact .ofRun rfl
  | setStatus next =>
      dsimp only
      rw [if_pos tunnelActive]
      exact .ofRun rfl
  | reschedule delayMs => exact Or.inl nofun
  | loadSynced | removeBlock | setRemoved => cases goesOn

/-- The schedule is kept: where nothing stands against it, something is pending
or a run sees to it. -/
def Scheduled.Kept (state : Scheduled) : Prop := state.Live → state.sync.Armed

theorem Scheduled.Kept.schedule {state : Scheduled} {delayMs : Nat} {connected : Bool}
    {calls : List CallPc} :
    { state with sync := state.sync.schedule delayMs, connected, calls }.Kept :=
  fun _ => armed_schedule state.sync delayMs

theorem Scheduled.Kept.worker {state : Scheduled} (kept : state.Kept) {input : Input}
    {sync : Sync}
    (stepTo : step state.sync (.worker { input with tunnelActive := state.tunnelActive }) =
      some sync) : { state with sync }.Kept := by
  intro live
  cases running : state.sync.worker with
  | none =>
      -- The request is taken; its run starts with the configuration.
      simp only [step, running, takeRequest] at stepTo
      cases pending : state.sync.pending with
      | none =>
          rw [pending] at stepTo
          cases stepTo
      | some request =>
          rw [pending] at stepTo
          cases stepTo
          exact Or.inr ⟨_, rfl, rfl⟩
  | some run =>
      simp only [step, running, Option.some.injEq] at stepTo
      subst stepTo
      obtain ⟨prefs, ui, filed⟩ := runStep_frame state.sync run
        { input with tunnelActive := state.tunnelActive }
      have enabled := live.enabled
      rw [prefs] at enabled
      have before : state.Live := ⟨live.tunnelActive, live.connected, enabled, ui ▸ live.idle⟩
      rcases kept before with pending | ⟨other, same, goesOn⟩
      · exact Or.inl (filed pending)
      · rw [running, Option.some.injEq] at same
        exact runStep_armed (same ▸ goesOn) live.tunnelActive enabled

theorem Scheduled.Kept.ui {state : Scheduled} {sync : Sync}
    (stepTo : step state.sync .ui = some sync) : { state with sync }.Kept := by
  intro live
  have idle := live.idle
  simp only [step, saveStep] at stepTo
  cases ui : state.sync.ui with
  | idle =>
      rw [ui] at stepTo
      cases stepTo
  | applying cfg =>
      rw [ui] at stepTo
      cases stepTo
      cases idle
  | settingStatus cfg =>
      rw [ui] at stepTo
      cases stepTo
      cases idle
  | scheduling cfg =>
      rw [ui] at stepTo
      cases stepTo
      exact Or.inl nofun

theorem Scheduled.Kept.save {state : Scheduled} {cfg : Config} {sync : Sync}
    (stepTo : step state.sync (.save cfg) = some sync) : { state with sync }.Kept := by
  intro live
  have idle := live.idle
  simp only [step] at stepTo
  cases ui : state.sync.ui <;> rw [ui] at stepTo <;> cases stepTo
  cases idle

theorem Scheduled.Kept.call {state next : Scheduled} (kept : state.Kept) {index now : Nat}
    (stepTo : callStep state index now = some next) : next.Kept := by
  unfold callStep at stepTo
  cases called : state.calls[index]? with
  | none =>
      rw [called] at stepTo
      cases stepTo
  | some pc =>
      rw [called] at stepTo
      cases pc with
      | readStatus =>
          cases stepTo
          exact fun live => kept ⟨live.tunnelActive, live.connected, live.enabled, live.idle⟩
      | connected delayMs =>
          cases stepTo
          exact .schedule
      | syncNow =>
          cases stepTo
          exact .schedule

theorem Scheduled.Kept.step {state next : Scheduled} (kept : state.Kept) {turn : Turn}
    (stepTo : schedStep state turn = some next) : next.Kept := by
  cases turn with
  | save cfg =>
      obtain ⟨sync, saved, rfl⟩ := Option.map_eq_some_iff.mp stepTo
      exact .save saved
  | ui =>
      obtain ⟨sync, moved, rfl⟩ := Option.map_eq_some_iff.mp stepTo
      exact .ui moved
  | worker input =>
      obtain ⟨sync, moved, rfl⟩ := Option.map_eq_some_iff.mp stepTo
      exact kept.worker moved
  | tunnelUp =>
      cases stepTo
      exact fun live => Bool.noConfusion live.connected
  | tunnelDown =>
      cases stepTo
      exact fun live => Bool.noConfusion live.connected
  | onConnected =>
      simp only [schedStep] at stepTo
      split at stepTo
      · cases stepTo
        exact fun live => kept ⟨live.tunnelActive, live.connected, live.enabled, live.idle⟩
      next off =>
        cases stepTo
        exact fun live => absurd live.enabled off
  | onDisconnected =>
      cases stepTo
      exact fun live => Bool.noConfusion live.connected
  | syncNow =>
      simp only [schedStep] at stepTo
      split at stepTo
      · cases stepTo
        exact fun live => kept ⟨live.tunnelActive, live.connected, live.enabled, live.idle⟩
      · cases stepTo
        exact kept
  | call index now => exact kept.call stepTo

theorem Scheduled.kept {prefs : Config} {block : Option Block} {turns : List Turn}
    {state : Scheduled}
    (run : Run schedStep anyStep (Scheduled.initial prefs block) turns state) : state.Kept := by
  refine run.invariant ?_ fun _ _ _ before _ stepTo => before.step stepTo
  exact fun live => Bool.noConfusion live.tunnelActive

/-! ### A run comes to an end -/

/-- How many steps a run may still take after the next one. -/
def RunPc.rank : RunPc → Nat
  | .readConfig => 10
  | .checkRunning _ => 9
  | .readGeneration _ => 8
  | .setRunning _ _ => 7
  | .fetch _ _ => 6
  | .compare _ _ (.fetched _) => 5
  | .saveSynced _ _ _ => 4
  | .compare _ _ _ => 3
  | .loadSynced => 3
  | .readStatus _ _ _ | .readFailed _ _ _ | .removeBlock _ => 2
  | .setStatus _ | .setInterrupted | .setRemoved _ => 1
  | .reschedule _ => 0

/-- A step ends the run or leaves it fewer. -/
theorem runStep_rank (sync : Sync) (run : Running) (input : Input) {later : Running}
    (goesOn : (runStep sync run input).worker = some later) : later.pc.rank < run.pc.rank := by
  obtain ⟨request, basis, pc⟩ := run
  unfold runStep at goesOn
  cases pc with
  | compare cfg gen outcome =>
      dsimp only at goesOn
      split at goesOn
      · cases goesOn
      · cases outcome <;> cases goesOn <;> simp [RunPc.rank]
  | setRemoved failure => cases failure <;> cases goesOn
  | reschedule delayMs => cases goesOn
  | fetch cfg gen =>
      cases goesOn
      cases input.outcome <;> simp [RunPc.rank]
  | readConfig | loadSynced | removeBlock | checkRunning | setInterrupted | setStatus
  | saveSynced =>
      dsimp only at goesOn
      repeat' split at goesOn
      all_goals cases goesOn <;> simp [RunPc.rank]
  | readGeneration | setRunning | readStatus | readFailed =>
      cases goesOn
      simp [RunPc.rank]

theorem Scheduled.Live.worker {state next : Scheduled} (live : state.Live) {running : Running}
    (runs : state.sync.worker = some running) {input : Input}
    (stepTo : schedStep state (.worker input) = some next) :
    next.Live ∧ ∀ later, next.sync.worker = some later → later.pc.rank < running.pc.rank := by
  obtain ⟨sync, moved, rfl⟩ := Option.map_eq_some_iff.mp stepTo
  simp only [HostsSync.step, runs, Option.some.injEq] at moved
  subst moved
  obtain ⟨prefs, ui, -⟩ := runStep_frame state.sync running
    { input with tunnelActive := state.tunnelActive }
  refine ⟨⟨live.tunnelActive, live.connected, ?_, ?_⟩, fun later goesOn =>
    runStep_rank state.sync running _ goesOn⟩
  · exact prefs ▸ live.enabled
  · exact ui ▸ live.idle

/-- Left alone, the worker soon has a request pending. -/
theorem Scheduled.Kept.soon {state : Scheduled} (kept : state.Kept) (live : state.Live)
    {bound : Nat} (short : ∀ running, state.sync.worker = some running → running.pc.rank < bound)
    {inputs : List Input} (enough : bound ≤ inputs.length) :
    ∃ steps next, Run schedStep anyStep state ((inputs.take steps).map .worker) next ∧
      next.sync.pending ≠ none := by
  induction bound generalizing state inputs with
  | zero =>
      refine ⟨0, state, .nil, ?_⟩
      rcases kept live with pending | ⟨running, runs, -⟩
      · exact pending
      · exact absurd (short running runs) (Nat.not_lt_zero _)
  | succ bound ih =>
      rcases kept live with pending | ⟨running, runs, -⟩
      · exact ⟨0, state, .nil, pending⟩
      · obtain ⟨input, inputs, rfl⟩ : ∃ input rest, inputs = input :: rest :=
          List.exists_cons_of_length_pos (Nat.lt_of_lt_of_le (Nat.succ_pos bound) enough)
        obtain ⟨next, stepTo⟩ : ∃ next, schedStep state (.worker input) = some next := by
          simp only [schedStep, HostsSync.step, runs, Option.map_some]
          exact ⟨_, rfl⟩
        obtain ⟨live, shorter⟩ := live.worker runs stepTo
        have below := short running runs
        obtain ⟨steps, final, run, pending⟩ := ih (kept.step stepTo) live
          (fun later goesOn => by have := shorter later goesOn; omega)
          (Nat.le_of_succ_le_succ enough)
        have first : Run schedStep anyStep state [.worker input] next :=
          .snoc .nil trivial stepTo
        exact ⟨steps + 1, final, first.append run, pending⟩

/-- In no order of saves, runs, connects, disconnects and manual syncs does the
sync come to rest while it is meant to go on: whenever the tunnel is up and its
connect said so after the last call of `onDisconnected`, the sync is on and no
save is under way, either a request is pending or a run is under way; and whatever
comes of its steps, the worker left alone has a request pending before its
eleventh. -/
theorem sync_never_stalls (prefs : Config) (block : Option Block) {turns : List Turn}
    {state : Scheduled}
    (run : Run schedStep anyStep (Scheduled.initial prefs block) turns state)
    (live : state.Live) :
    (state.sync.worker = none → state.sync.pending ≠ none) ∧
      ∀ inputs : List Input, 11 ≤ inputs.length → ∃ steps next,
        Run schedStep anyStep state ((inputs.take steps).map .worker) next ∧
          next.sync.pending ≠ none := by
  have kept := Scheduled.kept run
  refine ⟨fun rests => ?_, fun inputs enough => kept.soon live ?_ enough⟩
  · rcases kept live with pending | ⟨running, runs, -⟩
    · exact pending
    · rw [rests] at runs
      cases runs
  · intro running _
    cases running.pc with
    | compare cfg gen outcome => cases outcome <;> simp [RunPc.rank]
    | _ => simp [RunPc.rank]

def hourly : Config := ⟨true, "npub1a", 8080, 60⟩

-- An earlier connect fails behind the newer one and takes its request with it.
example : ∃ state, Run schedStep anyStep (Scheduled.initial hourly none)
    [.tunnelUp, .tunnelDown, .tunnelUp, .onConnected, .call 0 0, .call 0 0, .onDisconnected]
      state ∧ state.tunnelActive = true ∧ state.sync.pending = none ∧ state.sync.worker = none :=
  exists_run_of_execute _ (by decide +kernel)

/-- The node is rebuilt under the request of the first run. -/
def rebuilt : Input where
  now := 0
  isRunning := true
  tunnelActive := true
  outcome := .restarted
  label := none
  changed := false
  failure := none

/-- A connect, and the run that it brings about up to its request. -/
def firstRun : List Turn :=
  [.tunnelUp, .onConnected, .call 0 0, .call 0 0] ++ List.replicate 6 (.worker rebuilt)

/-- Nothing is pending then, and soon something is. -/
theorem rebuilt_under_first_run : ∃ state, Run schedStep anyStep
      (Scheduled.initial hourly none) firstRun state ∧ state.sync.pending = none ∧
      ∃ steps next, Run schedStep anyStep state
        (((List.replicate 11 rebuilt).take steps).map .worker) next ∧
          next.sync.pending ≠ none := by
  have reaches : ∃ state, Run schedStep anyStep (Scheduled.initial hourly none) firstRun state ∧
      state.tunnelActive = true ∧ state.connected = true ∧ state.sync.prefs.enabled = true ∧
        state.sync.ui = .idle ∧ state.sync.pending = none :=
    exists_run_of_execute _ (by decide +kernel)
  obtain ⟨state, run, tunnelActive, connected, enabled, idle, nothing⟩ := reaches
  exact ⟨state, run, nothing, (sync_never_stalls hourly none run
    ⟨tunnelActive, connected, enabled, idle⟩).2 _ (Nat.le_refl 11)⟩

end Fips2Go.HostsSync
