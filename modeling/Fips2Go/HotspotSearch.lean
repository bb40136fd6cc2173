import Fips2Go.Hotspot

/-!
# The search for the hotspot goes on

While no hotspot is joined, the loop of scans stays alive, through all
interleavings of the connecting threads with the main looper, as long as none
of its turns finds the engine down and the session is stopped on the looper.
-/

namespace Fips2Go.Hotspot

open GuardedRuns ThreadPrograms Underlay

variable {device : Device} {answers : Answers} {instr : Instr} {service : Service}

/-! ### Which instructions touch what -/

/-- The fields of the search. -/
def Service.search (service : Service) : Option Nat × List Nat × Option Network × Bool :=
  (service.scanKick, service.kicks, service.hotspotNetwork, service.armed)

def Instr.searches : Instr → Bool
  | .startScanKick | .setScanKick _ | .post _ | .searchOn _ | .dropScanKick => true
  | .setHotspotNetwork .. | .stopScanKick | .leave | .quitScanKick | .forget => true
  | _ => false

variable (device answers service) in
theorem exec_search (other : instr.searches = false) :
    (exec device answers instr service).2.search = service.search := by
  cases instr with
  | arm | checkScan => simp only [exec]; split <;> (try split) <;> rfl
  | teardownSpecifierRequest => simp only [exec]; split <;> rfl
  | _ => first
    | exact Bool.noConfusion other
    | rfl
    | simp only [exec]; split <;> rfl

/-! ### The next turn of the loop is posted -/

/-- The task of the loop, if it is this one, is posted to the main looper. -/
def Queued (task : Nat) (service : Service) : Prop :=
  service.scanKick = some task → task ∈ service.kicks

/-- Posts the task, or ends the loop. -/
def Instr.Settles (task : Nat) : Instr → Prop
  | .post other | .searchOn other => other = task
  | .dropScanKick => True
  | _ => False

theorem Instr.Settles.searches {task : Nat} (settles : instr.Settles task) :
    instr.searches = true := by
  cases instr <;> first
    | rfl
    | exact settles.elim

theorem exec_queued {task : Nat} (before : Queued task service ∨ instr.Settles task) :
    Queued task (exec device answers instr service).2 ∨
      ∃ follow ∈ (exec device answers instr service).1, follow.Settles task := by
  cases touches : instr.searches with
  | false =>
      have kept := exec_search device answers service touches
      rcases before with queued | settles
      · left
        simp only [Service.search, Prod.mk.injEq] at kept
        unfold Queued
        rw [kept.1, kept.2.1]
        exact queued
      · rw [settles.searches] at touches
        cases touches
  | true =>
      cases instr with
      | setScanKick other =>
          by_cases same : other = task
          · exact .inr ⟨.post other, by simp [exec], same⟩
          · exact .inl fun current => absurd (Option.some.inj current) same
      | post other =>
          rcases before with queued | same
          · exact .inl fun current => List.mem_cons_of_mem _ (queued current)
          · exact .inl fun _ => List.mem_cons.mpr (.inl same.symm)
      | searchOn other =>
          simp only [exec]
          split
          · exact .inr ⟨.dropScanKick, by simp, trivial⟩
          · rcases before with queued | same
            · exact .inl queued
            · exact .inr ⟨.post other, by simp, same⟩
      | dropScanKick | stopScanKick | quitScanKick =>
          exact .inl fun current => absurd current (Option.some_ne_none task).symm
      | startScanKick =>
          have queued : Queued task service := before.resolve_right id
          left
          simp only [exec]
          split <;> exact queued
      | setHotspotNetwork | leave | forget => exact .inl (before.resolve_right id)
      | _ => exact Bool.noConfusion touches

/-! ### The loop ends on a joined hotspot only -/

/-- Goes by a joined hotspot. -/
def Instr.Ends : Instr → Prop
  | .setHotspotAddr .. | .setHotspotPrefixLen _ | .dropScanKick | .stopScanKick => True
  | _ => False

/-- Goes by a joined hotspot, or is followed by what does. -/
def Instr.Joins : Instr → Prop
  | .searchOn _ | .updateHotspot .. | .compareAddr .. | .comparePrefixLen .. => True
  | .setHotspotNetwork .. => True
  | instr => instr.Ends

def Instr.Needs (instr : Instr) (service : Service) : Prop :=
  instr.Ends → service.hotspotNetwork ≠ none

/-- What a connecting thread executes. -/
def Instr.starts : Instr → Bool
  | .startHotspot | .addHotspotSuggestion | .registerWifiWatcher | .arm => true
  | .registerNetworkCallback _ | .registerScanWatcher | .registerScanResultsCallback _ => true
  | .startScanKick | .setScanKick _ | .post _ => true
  | .maybeFileSpecifier | .checkJoined | .checkBackoff | .checkScan => true
  | .fileSpecifierRequest _ | .setCallback .. | .requestNetwork .. => true
  | _ => false

theorem exec_starts (starts : instr.starts = true) :
    ∀ follow ∈ (exec device answers instr service).1, follow.starts = true := by
  cases instr with
  | arm | checkScan => simp only [exec]; split <;> (try split) <;> simp [Instr.starts]
  | startScanKick => simp only [exec]; split <;> simp [Instr.starts]
  | setScanKick | post | setCallback => simp [exec, Instr.starts]
  | _ => first
    | exact Bool.noConfusion starts
    | simp only [exec]; split <;> simp [Instr.starts]

theorem exec_network (starts : instr.starts = true) :
    (exec device answers instr service).2.hotspotNetwork = service.hotspotNetwork := by
  cases touches : instr.searches with
  | false =>
      have kept := exec_search device answers service touches
      simp only [Service.search, Prod.mk.injEq] at kept
      exact kept.2.2.1
  | true =>
      cases instr with
      | startScanKick => simp only [exec]; split <;> rfl
      | setScanKick | post => rfl
      | _ => first
        | exact Bool.noConfusion starts
        | exact Bool.noConfusion touches

/-- What goes by a joined hotspot follows from its own kind only. -/
theorem exec_not_joins (other : ¬instr.Joins) :
    ∀ follow ∈ (exec device answers instr service).1, ¬follow.Joins := by
  cases instr with
  | searchOn | updateHotspot | compareAddr | comparePrefixLen | setHotspotNetwork
  | setHotspotAddr | setHotspotPrefixLen | dropScanKick | stopScanKick => exact absurd trivial other
  | arm | checkScan =>
      simp only [exec]
      split <;> (try split) <;> simp [Instr.Joins, Instr.Ends]
  | clearHotspot =>
      simp only [exec, clearProgram]
      split <;> simp [Instr.Joins, Instr.Ends]
  | setScanKick | post | setCallback | backOff | leave | clearHotspotAddr
  | clearHotspotPrefixLen | clearCallback | unregisterWifiWatcher | clearWifiWatcher
  | unregisterScanWatcher | clearScanWatcher | removeHotspotSuggestion | quitScanKick | forget =>
      simp [exec, Instr.Joins, Instr.Ends]
  | _ => simp only [exec]; split <;> simp [Instr.Joins, Instr.Ends]

/-- A turn of the loop finds the engine running, unless a hotspot is joined. -/
theorem exec_joins (found : ∀ task, instr = .searchOn task → service.hotspotNetwork = none →
      answers.running = true) (needs : instr.Needs service) {follow : Instr}
    (follows : follow ∈ (exec device answers instr service).1) (joins : follow.Joins) :
    instr.Joins ∧ (exec device answers instr service).1 = [follow] ∧
      follow.Needs (exec device answers instr service).2 := by
  cases instr with
  | searchOn task =>
      have up := found task rfl
      simp only [exec] at follows ⊢
      split at follows
      next ended =>
        rw [if_pos ended]
        simp only [List.mem_singleton] at follows
        subst follows
        refine ⟨trivial, rfl, fun _ => ?_⟩
        rcases ended with joined | down
        · exact joined
        · intro absent
          rw [up absent] at down
          cases down
      next =>
        simp only [List.mem_singleton] at follows
        subst follows
        exact joins.elim
  | updateHotspot | compareAddr =>
      simp only [exec] at follows ⊢
      split at follows
      next same =>
        rw [if_pos same]
        simp only [List.mem_singleton] at follows
        subst follows
        exact ⟨trivial, rfl, nofun⟩
      next changed =>
        rw [if_neg changed]
        simp only [List.mem_singleton] at follows
        subst follows
        exact ⟨trivial, rfl, nofun⟩
  | comparePrefixLen =>
      simp only [exec] at follows ⊢
      split at follows
      · exact absurd follows List.not_mem_nil
      next changed =>
        rw [if_neg changed]
        simp only [List.mem_singleton] at follows
        subst follows
        exact ⟨trivial, rfl, nofun⟩
  | setHotspotNetwork network addr prefixLen =>
      simp only [exec, List.mem_singleton] at follows
      subst follows
      exact ⟨trivial, rfl, fun _ => Option.some_ne_none network⟩
  | setHotspotAddr | setHotspotPrefixLen =>
      simp only [exec, List.mem_singleton] at follows
      subst follows
      exact ⟨trivial, rfl, fun _ => needs trivial⟩
  | dropScanKick | stopScanKick => exact absurd follows List.not_mem_nil
  | _ => exact absurd joins (exec_not_joins id follow follows)

/-! ### A search that is asked for goes on -/

def Sought (service : Service) : Prop :=
  service.armed = true → service.hotspotNetwork = none → service.scanKick ≠ none

/-- Starts the loop, or ends the search. -/
def Instr.Seeks : Instr → Prop
  | .startScanKick | .setScanKick _ | .restartScanKick | .forget => True
  | _ => False

theorem exec_sought (version : versionR ≤ device.sdk)
    (located : instr = .restartScanKick → answers.fineLocation = true)
    (needs : instr.Needs service) (before : Sought service ∨ instr.Seeks) :
    Sought (exec device answers instr service).2 ∨
      ∃ follow ∈ (exec device answers instr service).1, follow.Seeks := by
  cases touches : instr.searches with
  | false =>
      have kept := exec_search device answers service touches
      simp only [Service.search, Prod.mk.injEq] at kept
      rcases before with sought | seeks
      · left
        unfold Sought
        rw [kept.1, kept.2.2.1, kept.2.2.2]
        exact sought
      · cases instr with
        | restartScanKick => exact .inr ⟨.startScanKick, by simp [exec, located, version], trivial⟩
        | startScanKick | setScanKick | forget => cases touches
        | _ => exact seeks.elim
  | true =>
      cases instr with
      | startScanKick =>
          simp only [exec]
          split
          next running => exact .inl fun _ _ absent => by rw [running] at absent; cases absent
          next => exact .inr ⟨.setScanKick service.fresh, by simp, trivial⟩
      | setScanKick task => exact .inl fun _ _ => Option.some_ne_none task
      | post task => exact .inl (before.resolve_right id)
      | searchOn task =>
          have sought : Sought service := before.resolve_right id
          left
          simp only [exec]
          split <;> exact sought
      | dropScanKick | stopScanKick => exact .inl fun _ absent => absurd absent (needs trivial)
      | setHotspotNetwork network addr prefixLen =>
          exact .inl fun _ absent => absurd absent (Option.some_ne_none network)
      | leave => exact .inr ⟨.restartScanKick, by simp [exec], trivial⟩
      | quitScanKick => exact .inr ⟨.forget, by simp [exec], trivial⟩
      | forget =>
          left
          intro armed _ absent
          simp only [exec] at armed absent
          rw [absent] at armed
          cases armed
      | _ => exact Bool.noConfusion touches

/-- What of the search lies in this program lies in it alone. -/
def Single (program : List Instr) : Prop :=
  ∀ instr ∈ program, instr.Joins → program = [instr] ∧ ¬instr.Ends

theorem single_one (harmless : ¬instr.Ends) : Single [instr] := by
  intro other member _
  rw [List.mem_singleton.mp member]
  exact ⟨rfl, harmless⟩

theorem single_none {program : List Instr} (none : ∀ instr ∈ program, ¬instr.Joins) :
    Single program := fun instr member joins => absurd joins (none instr member)

theorem single_nil : Single [] := single_none fun _ member => absurd member List.not_mem_nil

theorem single_updateProgram (network : Network) (properties : Option LinkProperties) :
    Single (updateProgram network properties) := by
  unfold updateProgram
  split
  · exact single_nil
  · exact single_one id

theorem single_clearProgram (service : Service) : Single (clearProgram service) := by
  unfold clearProgram
  split
  · exact single_nil
  · exact single_one id

/-- The programs of the callbacks other than the turn of the loop. -/
inductive Comes (service : Service) : List Instr → Prop
  | nothing : Comes service []
  | scan : Comes service [.maybeFileSpecifier]
  | update (network : Network) (properties : Option LinkProperties) :
      Comes service (updateProgram network properties)
  | clear : Comes service (clearProgram service)
  | lost : Comes service [.clearHotspot]
  | unavailable : Comes service [.backOff, .clearHotspot, .teardownSpecifierRequest]

/-- These callbacks leave the search as it is. -/
theorem callbackStep_comes {callback : Callback} {program : List Instr} {after : Service}
    (stepTo : callbackStep service callback = some (program, after))
    (other : ∀ task, callback ≠ .kick task) :
    after.search = service.search ∧ after.scans = service.scans ∧ Comes service program := by
  cases callback with
  | kick task => exact absurd rfl (other task)
  | scanResultsAvailable watcher =>
      obtain ⟨-, result⟩ := Option.ite_none_right_eq_some.mp stepTo
      cases result
      exact ⟨rfl, rfl, .scan⟩
  | watcherCapabilities watcher network ssid properties =>
      obtain ⟨-, result⟩ := Option.ite_none_right_eq_some.mp stepTo
      split at result <;> cases result
      · exact ⟨rfl, rfl, .update network properties⟩
      · exact ⟨rfl, rfl, .nothing⟩
  | watcherLinkProperties watcher network properties =>
      obtain ⟨-, result⟩ := Option.ite_none_right_eq_some.mp stepTo
      split at result <;> cases result
      · exact ⟨rfl, rfl, .update network properties⟩
      · exact ⟨rfl, rfl, .nothing⟩
  | watcherLost watcher network =>
      obtain ⟨-, result⟩ := Option.ite_none_right_eq_some.mp stepTo
      split at result <;> cases result
      · exact ⟨rfl, rfl, .lost⟩
      · exact ⟨rfl, rfl, .nothing⟩
  | specifierAvailable callback network properties =>
      simp only [callbackStep] at stepTo
      split at stepTo <;> cases stepTo <;> exact ⟨rfl, rfl, .update network properties⟩
  | specifierLinkProperties callback network properties =>
      obtain ⟨-, result⟩ := Option.ite_none_right_eq_some.mp stepTo
      cases result
      exact ⟨rfl, rfl, .update network properties⟩
  | specifierLost callback =>
      simp only [callbackStep] at stepTo
      split at stepTo <;> cases stepTo
      exact ⟨rfl, rfl, .clear⟩
  | specifierUnavailable callback =>
      simp only [callbackStep] at stepTo
      split at stepTo <;> cases stepTo
      exact ⟨rfl, rfl, .unavailable⟩

theorem Comes.single {program : List Instr} (comes : Comes service program) : Single program := by
  cases comes with
  | nothing => exact single_nil
  | scan => exact single_one id
  | update network properties => exact single_updateProgram network properties
  | clear => exact single_clearProgram service
  | lost => exact single_one id
  | unavailable => exact single_none (by simp [Instr.Joins, Instr.Ends])

/-- A turn of the loop is taken off the looper's queue, and goes on with the
checks if it is the current one. -/
theorem kick_queued {task other : Nat} {program : List Instr} {after : Service}
    (stepTo : callbackStep service (.kick task) = some (program, after))
    (queued : Queued other service) :
    Queued other after ∨ ∃ instr ∈ program, instr.Settles other := by
  obtain ⟨-, result⟩ := Option.ite_none_right_eq_some.mp stepTo
  cases result
  by_cases same : other = task
  · subst same
    by_cases current : service.scanKick = some other
    · exact .inr ⟨.searchOn other, by simp [current], rfl⟩
    · exact .inl fun still => absurd still current
  · exact .inl fun current => (List.mem_erase_of_ne same).mpr (queued current)

section Runs

/-- A turn of the loop finds the engine running unless a hotspot is joined, the
location permission stays granted, and a stop comes on the looper. -/
def lasting (state : State) : Move → Bool
  | .run thread answers =>
      match (state.pending thread).head? with
      | some (.searchOn _) => state.shared.hotspotNetwork.isSome || answers.running
      | some .restartScanKick => answers.fineLocation
      | _ => true
  | .stop thread => thread = .main
  | _ => true

structure Kept (state : State) : Prop where
  starts : ∀ thread ≠ .main, state.Only thread fun instr => instr.starts = true
  alone : state.Alone .main Instr.Joins Instr.Needs
  queued : ∀ task, state.Owed (Queued task) (Instr.Settles task)
  sought : state.Owed Sought Instr.Seeks

theorem Kept.initial : Kept initial where
  starts _ _ _ ahead := absurd ahead List.not_mem_nil
  alone _ ahead := absurd ahead List.not_mem_nil
  queued task := .inl fun current => absurd current (Option.some_ne_none task).symm
  sought := .inl fun armed => absurd armed Bool.false_ne_true

variable {state next : State} {thread : Thread}

/-- A program that the main looper begins with. -/
theorem Kept.begin {program : List Instr} {after : Service} (kept : Kept state)
    (idle : state.pending .main = [])
    (queued : ∀ task, Queued task state.shared →
      Queued task after ∨ ∃ instr ∈ program, instr.Settles task)
    (sought : Sought state.shared → Sought after) (single : Single program) :
    Kept (state.start .main program after) where
  starts thread different := by
    unfold State.Only
    rw [state.pending_start_of_ne different]
    exact kept.starts thread different
  alone instr ahead joins := by
    rw [State.pending_start_self] at ahead ⊢
    obtain ⟨only, harmless⟩ := single instr ahead joins
    exact ⟨only, fun ends => absurd ends harmless⟩
  queued task := (kept.queued task).start idle (queued task)
  sought := kept.sought.start idle fun before => .inl (sought before)

theorem Kept.callback {callback : Callback} {program : List Instr} {after : Service}
    (kept : Kept state) (idle : state.pending .main = [])
    (came : callbackStep state.shared callback = some (program, after)) :
    Kept (state.start .main program after) := by
  by_cases kick : ∃ task, callback = .kick task
  · obtain ⟨task, rfl⟩ := kick
    apply kept.begin idle fun other => kick_queued came
    · obtain ⟨-, result⟩ := Option.ite_none_right_eq_some.mp came
      cases result
      exact id
    · obtain ⟨-, result⟩ := Option.ite_none_right_eq_some.mp came
      cases result
      split
      · exact single_one id
      · exact single_nil
  · obtain ⟨same, -, comes⟩ := callbackStep_comes came fun task is => kick ⟨task, is⟩
    simp only [Service.search, Prod.mk.injEq] at same
    apply kept.begin idle _ _ comes.single
    · intro task queued
      left
      unfold Queued
      rw [same.1, same.2.1]
      exact queued
    · unfold Sought
      rw [same.1, same.2.2.1, same.2.2.2]
      exact id

theorem Kept.connect {id : Nat} (kept : Kept state) (idle : state.pending (.connect id) = []) :
    Kept (state.start (.connect id) [.startHotspot] state.shared) where
  starts thread different := by
    unfold State.Only
    by_cases same : thread = .connect id
    · rw [same, State.pending_start_self]
      simp [Instr.starts]
    · rw [state.pending_start_of_ne same]
      exact kept.starts thread different
  alone := by
    unfold State.Alone
    rw [state.pending_start_of_ne (by simp)]
    exact kept.alone
  queued task := (kept.queued task).start idle .inl
  sought := kept.sought.start idle .inl

theorem Kept.run (kept : Kept state) (version : versionR ≤ device.sdk)
    (allowed : lasting state (.run thread answers) = true)
    (stepTo : runStep (exec device) state thread answers = some next) : Kept next := by
  have found : ∀ instr rest, state.pending thread = instr :: rest →
      ∀ task, instr = .searchOn task → state.shared.hotspotNetwork = none →
        answers.running = true := by
    rintro _ rest ahead task rfl absent
    simpa [lasting, ahead, absent] using allowed
  have located : ∀ instr rest, state.pending thread = instr :: rest →
      instr = .restartScanKick → answers.fineLocation = true := by
    rintro _ rest ahead rfl
    simpa [lasting, ahead] using allowed
  have needs : ∀ instr rest, state.pending thread = instr :: rest →
      instr.Needs state.shared := by
    intro instr rest ahead ends
    by_cases looper : thread = .main
    · subst looper
      have joins : instr.Joins := by cases instr <;> first | exact ends | exact ends.elim
      exact (kept.alone instr (by simp [ahead]) joins).2 ends
    · have starts := kept.starts thread looper instr (by simp [ahead])
      cases instr <;> first | exact ends.elim | cases starts
  exact {
    starts := fun other different =>
      (kept.starts other different).runStep stepTo fun instr starts => exec_starts starts
    alone := by
      apply kept.alone.runStep stepTo
      · intro instr rest _ ahead follow follows joins
        exact exec_joins (found instr rest ahead) (needs instr rest ahead) follows joins
      · intro instr rest different ahead waiting _ fulfilled ends
        rw [exec_network (kept.starts thread different instr (by simp [ahead]))]
        exact fulfilled ends
    queued := fun task => (kept.queued task).runStep stepTo fun _ _ _ before => exec_queued before
    sought := kept.sought.runStep stepTo fun instr rest ahead before =>
      exec_sought version (located instr rest ahead) (needs instr rest ahead) before }

theorem Kept.step {move : Move} (kept : Kept state) (version : versionR ≤ device.sdk)
    (allowed : lasting state move = true) (stepTo : step device state move = some next) :
    Kept next := by
  cases move with
  | callback callback =>
      obtain ⟨idle, stepTo⟩ := Option.ite_none_right_eq_some.mp stepTo
      obtain ⟨⟨program, after⟩, came, rfl⟩ := Option.map_eq_some_iff.mp stepTo
      exact kept.callback idle came
  | connect id =>
      obtain ⟨idle, result⟩ := Option.ite_none_right_eq_some.mp stepTo
      cases result
      exact kept.connect idle
  | run thread answers => exact kept.run version allowed stepTo
  | stop stopping =>
      obtain ⟨idle, result⟩ := Option.ite_none_right_eq_some.mp stepTo
      cases result
      obtain rfl : stopping = .main := of_decide_eq_true allowed
      apply kept.begin idle (fun _ => .inl) id
      exact single_none (by simp [stopProgram, Instr.Joins, Instr.Ends])

/-- Every run in which no turn of the loop finds the engine down, and no stop comes
on another thread than the looper. -/
theorem kept_of_run {moves : List Move} (version : versionR ≤ device.sdk)
    (run : Run (step device) (fun state move => lasting state move = true) initial moves state) :
    Kept state :=
  run.invariant .initial fun _ _ _ kept allowed stepTo => kept.step version allowed stepTo

theorem step_run {rest following : List Instr} {after : Service}
    (ahead : state.pending thread = instr :: rest)
    (executed : exec device answers instr state.shared = (following, after)) :
    step device state (.run thread answers) =
      some (state.start thread (following ++ rest) after) := by
  have result := runStep_of_cons (exec device) ahead answers
  rw [executed] at result
  exact result

theorem quiet_start_nil {after : Service} (quiet : ∀ other ≠ thread, state.pending other = []) :
    (state.start thread [] after).Quiet := by
  intro other
  by_cases same : other = thread
  · rw [same, State.pending_start_self]
  · rw [state.pending_start_of_ne same]
    exact quiet other same

/-- A turn of the loop, from its message to the last instruction it leads to. -/
theorem turn_runs {task : Nat} {follow : Instr} {checked finished : Service} (quiet : state.Quiet)
    (current : state.shared.scanKick = some task) (posted : task ∈ state.shared.kicks)
    (checking : exec device answers (.searchOn task)
      { state.shared with kicks := state.shared.kicks.erase task } = ([follow], checked))
    (finishing : exec device answers follow checked = ([], finished)) :
    ∃ after, Run (step device) anyStep state
        [.callback (.kick task), .run .main answers, .run .main answers] after ∧
      after.Quiet ∧ after.shared = finished := by
  let begun : Service := { state.shared with kicks := state.shared.kicks.erase task }
  have taking : step device state (.callback (.kick task)) =
      some (state.start .main [.searchOn task] begun) := by
    simp [step, quiet .main, callbackStep, posted, current, begun]
  have idle : ∀ other ≠ Thread.main,
      (state.start .main [.searchOn task] begun).pending other = [] :=
    fun other different => (state.pending_start_of_ne different _ _).trans (quiet other)
  refine ⟨_, ((Run.nil.snoc trivial taking).snoc trivial
    (step_run (State.pending_start_self ..) checking)).snoc trivial
      (step_run (State.pending_start_self ..) finishing), ?_, rfl⟩
  apply quiet_start_nil
  intro other different
  rw [State.pending_start_of_ne _ different]
  exact idle other different

/-- A posted turn of the loop, taken while the engine runs, asks for a scan and
posts the next one. -/
theorem turn_scans {task : Nat} (quiet : state.Quiet)
    (absent : state.shared.hotspotNetwork = none) (current : state.shared.scanKick = some task)
    (posted : task ∈ state.shared.kicks) (running : answers.running = true)
    (wifiManager : answers.wifiManager = true) :
    ∃ after, Run (step device) anyStep state
        [.callback (.kick task), .run .main answers, .run .main answers] after ∧
      after.Quiet ∧ after.shared.scans = state.shared.scans + 1 ∧
      after.shared.scanKick = some task ∧ task ∈ after.shared.kicks := by
  have checking : exec device answers (.searchOn task)
      { state.shared with kicks := state.shared.kicks.erase task } = ([.post task],
        { state.shared with
          kicks := state.shared.kicks.erase task
          scans := state.shared.scans + 1 }) := by
    simp [exec, absent, running, wifiManager]
  obtain ⟨after, run, still, finished⟩ := turn_runs quiet current posted checking rfl
  refine ⟨after, run, still, ?_⟩
  rw [finished]
  exact ⟨rfl, current, List.mem_cons_self⟩

/-- A thread has nothing ahead of it before its session begins or it stops one. -/
theorem idle_of_run {guard : State → Move → Prop} {moves : List Move}
    (run : Run (step device) guard initial moves state) (other : thread ≠ .main)
    (never : ∀ id, thread = .connect id → .connect id ∉ moves) (unstopped : .stop thread ∉ moves) :
    state.pending thread = [] := by
  revert never unstopped
  apply run.traceInvariant
  · intro _ _
    rfl
  · intro taken current move next idle _ stepTo never unstopped
    have before := idle (fun id is earlier => never id is (List.mem_append_left _ earlier))
      fun earlier => unstopped (List.mem_append_left _ earlier)
    have untouched : ∀ {mover : Thread} {program : List Instr} {shared : Service},
        thread ≠ mover → (current.start mover program shared).pending thread = [] := by
      intro mover program shared different
      rw [current.pending_start_of_ne different]
      exact before
    cases move with
    | callback told =>
        obtain ⟨-, stepTo⟩ := Option.ite_none_right_eq_some.mp stepTo
        obtain ⟨_, -, rfl⟩ := Option.map_eq_some_iff.mp stepTo
        exact untouched other
    | connect started =>
        obtain ⟨-, result⟩ := Option.ite_none_right_eq_some.mp stepTo
        cases result
        exact untouched fun same => never started same (by simp)
    | run mover answers =>
        obtain ⟨instr, rest, ahead, rfl⟩ := runStep_cases
          (show runStep (exec device) current mover answers = some next from stepTo)
        apply untouched
        rintro rfl
        rw [before] at ahead
        cases ahead
    | stop stopping =>
        obtain ⟨-, result⟩ := Option.ite_none_right_eq_some.mp stepTo
        cases result
        apply untouched
        rintro rfl
        exact unstopped (by simp)

/-- The answers of a phone on which everything is granted. -/
def granted (scanResults : List ScanResult) : Answers where
  fineLocation := true
  hotspotEnabled := true
  wifiManager := true
  connectivity := true
  accepted := true
  running := true
  underlayWifi := true
  now := 0
  scanResults := scanResults

/-- A session begins, and its thread executes so many instructions. -/
def sessionMoves (scanResults : List ScanResult) (count : Nat) : List Move :=
  .connect 0 :: List.replicate count (.run (.connect 0) (granted scanResults))

/-- Where the first session is the only one and none was stopped, its thread and the
looper are all that may have something ahead. -/
theorem quiet_of_run {guard : State → Move → Prop} {moves : List Move}
    (run : Run (step device) guard initial moves state)
    (first : ∀ id, .connect id ∈ moves → id = 0) (unstopped : ∀ thread, .stop thread ∉ moves)
    (looper : state.pending .main = []) (connected : state.pending (.connect 0) = []) :
    state.Quiet := by
  intro thread
  by_cases main : thread = .main
  · rw [main]
    exact looper
  by_cases session : thread = .connect 0
  · rw [session]
    exact connected
  apply idle_of_run run main _ (unstopped thread)
  rintro id rfl began
  exact session (by rw [first id began])

theorem quiet_of_session {guard : State → Move → Prop} {scanResults : List ScanResult}
    {count : Nat} (run : Run (step device) guard initial (sessionMoves scanResults count) state)
    (looper : state.pending .main = []) (connected : state.pending (.connect 0) = []) :
    state.Quiet :=
  quiet_of_run run (by simp [sessionMoves]) (by simp [sessionMoves]) looper connected

/-- Whenever nothing is under way on any thread, the search was started since the
last stop and no hotspot is joined, the next turn of the loop of scans is posted;
taken while the engine runs, it asks for a scan and posts the one after it. -/
theorem search_goes_on {moves : List Move} (version : versionR ≤ device.sdk)
    (run : Run (step device) (fun state move => lasting state move = true) initial moves state)
    (quiet : state.Quiet) (armed : state.shared.armed = true)
    (absent : state.shared.hotspotNetwork = none) :
    ∃ task, state.shared.scanKick = some task ∧ task ∈ state.shared.kicks ∧
      ∀ answers, answers.running = true → answers.wifiManager = true →
        ∃ after, Run (step device) anyStep state
            [.callback (.kick task), .run .main answers, .run .main answers] after ∧
          after.Quiet ∧ after.shared.scans = state.shared.scans + 1 ∧
          after.shared.scanKick = some task ∧ task ∈ after.shared.kicks := by
  have kept := kept_of_run version run
  have started := kept.sought.of_quiet quiet armed absent
  obtain ⟨task, current⟩ := Option.ne_none_iff_exists'.mp started
  have posted := (kept.queued task).of_quiet quiet current
  exact ⟨task, current, posted, fun answers running wifiManager =>
    turn_scans quiet absent current posted running wifiManager⟩

theorem session_searches : ∃ moves state task,
    Run (step ⟨31⟩) (fun state move => lasting state move = true) initial moves state ∧
      state.shared.scanKick = some task ∧ task ∈ state.shared.kicks := by
  have reached : ∃ state : State,
      Run (step ⟨31⟩) (fun state move => lasting state move = true) initial
        (sessionMoves [] 14) state ∧
      (state.pending .main = [] ∧ state.pending (.connect 0) = [] ∧
        state.shared.armed = true ∧ state.shared.hotspotNetwork = none) :=
    exists_run_of_execute (fun state : State => state.pending .main = [] ∧
      state.pending (.connect 0) = [] ∧ state.shared.armed = true ∧
        state.shared.hotspotNetwork = none) (by decide +kernel)
  obtain ⟨state, run, looper, connected, armed, absent⟩ := reached
  have quiet := quiet_of_session run looper connected
  obtain ⟨task, current, posted, -⟩ := search_goes_on (by decide) run quiet armed absent
  exact ⟨_, state, task, run, current, posted⟩

end Runs

end Fips2Go.Hotspot
