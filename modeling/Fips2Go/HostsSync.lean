import Fips2Go.GuardedRuns

/-!
# Mesh names sync

`HostsSync` as a step function.  The UI thread saves configurations; one worker
thread takes the request that is pending, if any, and runs it.  Each access to
what the two share is one step: the preferences, the generation, the status,
the hosts file (seen here through its synced block) and the pending request.
What a step learns from outside is its input.  The model follows saves and
runs; the other callers of `schedule` are left out.
-/

namespace Fips2Go.HostsSync

open GuardedRuns

/-- `source` is the field `from`. -/
structure Config where
  enabled : Bool
  source : String
  port : Nat
  intervalMin : Nat
  deriving DecidableEq, Repr

structure Host where
  name : String
  npub : String
  deriving DecidableEq, Repr

structure Status where
  running : Bool
  lastAttempt : Nat
  lastSuccess : Nat
  lastChange : Nat
  received : Nat
  skipped : Nat
  error : Option String
  unreachableSince : Nat
  nextAttempt : Nat
  chain : List String
  chainConfirmed : Bool
  deriving DecidableEq, Repr

def Status.initial : Status where
  running := false
  lastAttempt := 0
  lastSuccess := 0
  lastChange := 0
  received := 0
  skipped := 0
  error := none
  unreachableSince := 0
  nextAttempt := 0
  chain := []
  chainConfirmed := false

def offlineRetryMs : Nat := 24 * 60 * 60 * 1000

def busyRetryMs : Nat := 30000

structure Fetched where
  hosts : List Host
  skipped : Nat
  chain : List String
  confirmed : Bool
  deriving DecidableEq, Repr

/-- What `fetch`, or a write after it, comes to. -/
inductive Outcome where
  | fetched (answer : Fetched)
  | restarted
  | failed (message : String) (offline : Bool)
  deriving DecidableEq, Repr

/-- The marked block at the end of the hosts file. -/
structure Block where
  master : String
  label : Option String
  hosts : List Host
  deriving DecidableEq, Repr

/-- Where a run stands: before the step the name tells. -/
inductive RunPc where
  | readConfig
  | loadSynced
  | removeBlock (master : String)
  | setRemoved (failure : Option String)
  | checkRunning (cfg : Config)
  | readGeneration (cfg : Config)
  | setRunning (cfg : Config) (gen : Nat)
  | fetch (cfg : Config) (gen : Nat)
  | compare (cfg : Config) (gen : Nat) (outcome : Outcome)
  | saveSynced (cfg : Config) (gen : Nat) (answer : Fetched)
  | readStatus (cfg : Config) (answer : Fetched) (changed : Bool)
  | readFailed (cfg : Config) (message : String) (offline : Bool)
  | setInterrupted
  | setStatus (next : Status)
  | reschedule (delayMs : Nat)
  deriving DecidableEq, Repr

/-- Who filed a request: the save of that number, or an earlier run. -/
inductive Request where
  | bySave (save : Nat)
  | byRun (delayMs : Nat)
  deriving DecidableEq, Repr

/-- A run on the worker; `basis` counts the configurations that had been
applied when it read its own. -/
structure Running where
  request : Request
  basis : Nat
  pc : RunPc
  deriving DecidableEq, Repr

/-- Where `save` stands on the UI thread. -/
inductive SavePc where
  | idle
  | applying (cfg : Config)
  | settingStatus (cfg : Config)
  | scheduling (cfg : Config)
  deriving DecidableEq, Repr

/-- The shared state, and after it what is only recorded for the properties:
how many configurations were applied and how many saves have returned, with
which configuration the last one, which save's request the worker took last,
whether a block was written from a configuration older than a returned save,
and whether a run cancelled a save's request. -/
structure Sync where
  generation : Nat
  prefs : Config
  status : Status
  block : Option Block
  pending : Option Request
  ui : SavePc
  worker : Option Running
  applied : Nat
  saved : Nat
  lastSaved : Option Config
  started : Nat
  staleWrite : Bool
  requestCancelled : Bool
  deriving DecidableEq, Repr

/-- What a step of the worker may learn. -/
structure Input where
  now : Nat
  isRunning : Bool
  tunnelActive : Bool
  outcome : Outcome
  label : Option String
  changed : Bool
  failure : Option String
  deriving DecidableEq, Repr

inductive Move where
  | save (cfg : Config)
  | ui
  | worker (input : Input)
  deriving DecidableEq, Repr

def Sync.at (sync : Sync) (run : Running) (pc : RunPc) : Sync :=
  { sync with worker := some { run with pc := pc } }

/-- The run returns. -/
def Sync.finish (sync : Sync) : Sync :=
  { sync with worker := none }

/-- `schedule`, as called by a run. -/
def Sync.schedule (sync : Sync) (delayMs : Nat) : Sync :=
  { sync with
    pending := some (.byRun delayMs)
    requestCancelled := sync.requestCancelled ||
      match sync.pending with
      | some (.bySave _) => true
      | _ => false }

/-- `save`, after its first step. -/
def saveStep (sync : Sync) : Option Sync :=
  match sync.ui with
  | .idle => none
  | .applying cfg =>
      some { sync with prefs := cfg, applied := sync.applied + 1, ui := .settingStatus cfg }
  | .settingStatus cfg =>
      some { sync with status := Status.initial, ui := .scheduling cfg }
  | .scheduling cfg =>
      some { sync with
        pending := some (.bySave (sync.saved + 1))
        saved := sync.saved + 1
        lastSaved := some cfg
        ui := .idle }

/-- The worker takes the pending request. -/
def takeRequest (sync : Sync) : Option Sync :=
  match sync.pending with
  | none => none
  | some request =>
      let started :=
        match request with
        | .bySave save => save
        | .byRun _ => sync.started
      some { sync with
        pending := none
        started := started
        worker := some ⟨request, 0, .readConfig⟩ }

/-- One step of `run`, `removeBlock` included. -/
def runStep (sync : Sync) (run : Running) (input : Input) : Sync :=
  match run.pc with
  | .readConfig =>
      let run := { run with basis := sync.applied }
      if sync.prefs.enabled then sync.at run (.checkRunning sync.prefs)
      else sync.at run .loadSynced
  | .loadSynced =>
      match sync.block with
      | none => sync.finish
      | some block => sync.at run (.removeBlock block.master)
  | .removeBlock _ =>
      match input.failure with
      | none => { sync with block := none }.at run (.setRemoved none)
      | some message => sync.at run (.setRemoved (some message))
  | .setRemoved none =>
      { sync with status := { Status.initial with lastChange := input.now } }.finish
  | .setRemoved (some message) =>
      let error := "Could not remove the synced names: " ++ message
      { sync with status := { sync.status with error := some error } }.finish
  | .checkRunning cfg =>
      if input.isRunning then sync.at run (.readGeneration cfg)
      else if input.tunnelActive then sync.at run (.reschedule busyRetryMs)
      else sync.finish
  | .readGeneration cfg => sync.at run (.setRunning cfg sync.generation)
  | .setRunning cfg gen =>
      let status := { sync.status with running := true, lastAttempt := input.now }
      { sync with status := status }.at run (.fetch cfg gen)
  | .fetch cfg gen => sync.at run (.compare cfg gen input.outcome)
  | .compare cfg gen outcome =>
      if gen ≠ sync.generation then sync.finish
      else
        match outcome with
        | .fetched answer => sync.at run (.saveSynced cfg gen answer)
        | .restarted => sync.at run .setInterrupted
        | .failed message offline => sync.at run (.readFailed cfg message offline)
  | .saveSynced cfg gen answer =>
      match input.failure with
      | none =>
          -- A write from a configuration that a returned save has replaced.
          let stale := decide (run.basis < sync.saved)
          { sync with
            block := some ⟨cfg.source, input.label, answer.hosts⟩
            staleWrite := sync.staleWrite || stale }.at run
              (.readStatus cfg answer input.changed)
      | some message => sync.at run (.compare cfg gen (.failed message false))
  | .readStatus cfg answer changed =>
      sync.at run (.setStatus { sync.status with
        lastSuccess := input.now
        lastChange := if changed then input.now else sync.status.lastChange
        received := answer.hosts.length
        skipped := answer.skipped
        error := none
        unreachableSince := 0
        nextAttempt := input.now + cfg.intervalMin * 60000
        chain := answer.chain
        chainConfirmed := answer.confirmed })
  | .readFailed cfg message offline =>
      let since :=
        if sync.status.unreachableSince > 0 then sync.status.unreachableSince else input.now
      let retry := if offline then offlineRetryMs else cfg.intervalMin * 60000
      sync.at run (.setStatus { sync.status with
        error := some message
        unreachableSince := if offline then since else 0
        nextAttempt := input.now + retry
        chain := [cfg.source]
        chainConfirmed := false })
  | .setInterrupted =>
      let interrupted := { sync with status := { sync.status with running := false } }
      if input.tunnelActive then interrupted.at run (.reschedule busyRetryMs)
      else interrupted.finish
  | .setStatus next =>
      let done := { sync with status := { next with running := false } }
      if input.tunnelActive then done.at run (.reschedule (next.nextAttempt - input.now))
      else done.finish
  | .reschedule delayMs => (sync.schedule delayMs).finish

def step (sync : Sync) : Move → Option Sync
  | .save cfg =>
      match sync.ui with
      | .idle => some { sync with generation := sync.generation + 1, ui := .applying cfg }
      | _ => none
  | .ui => saveStep sync
  | .worker input =>
      match sync.worker with
      | none => takeRequest sync
      | some run => some (runStep sync run input)

/-- Nothing saved, nothing pending. -/
def initial (prefs : Config) (block : Option Block) : Sync where
  generation := 0
  prefs := prefs
  status := Status.initial
  block := block
  pending := none
  ui := .idle
  worker := none
  applied := 0
  saved := 0
  lastSaved := none
  started := 0
  staleWrite := false
  requestCancelled := false

/-- The configuration a run has read and goes by. -/
def RunPc.config : RunPc → Option Config
  | .checkRunning cfg | .readGeneration cfg | .setRunning cfg _ | .fetch cfg _
  | .compare cfg _ _ | .saveSynced cfg _ _ | .readStatus cfg _ _ | .readFailed cfg _ _ =>
      some cfg
  | _ => none

/-- The generation a run has read and not yet compared. -/
def RunPc.captured : RunPc → Option Nat
  | .setRunning _ gen | .fetch _ gen | .compare _ gen _ => some gen
  | _ => none

/-- The run is removing the block, its configuration being off. -/
def RunPc.removing : RunPc → Bool
  | .loadSynced | .removeBlock _ | .setRemoved _ => true
  | _ => false

/-- The run will find the generation changed and return. -/
def RunPc.overtaken (pc : RunPc) (generation : Nat) : Prop :=
  pc.captured ≠ none ∧ pc.captured ≠ some generation

/-- The run can neither write a block nor reschedule any more. -/
def RunPc.harmless (pc : RunPc) (generation : Nat) : Prop :=
  pc.overtaken generation ∨ pc.removing = true

/-- `save` is about to file its request. -/
def SavePc.filing : SavePc → Bool
  | .scheduling _ => true
  | _ => false

/-- A save files its request only while no run is under way that could still
write a block or reschedule. -/
def FilesWhileHarmless (sync : Sync) : Move → Prop
  | .ui => sync.ui.filing = true →
      ∀ run ∈ sync.worker, run.pc.harmless sync.generation
  | _ => True

/-- The last saved configuration decides. -/
structure LastSaveDecides (sync : Sync) : Prop where
  noStaleWrite : sync.staleWrite = false
  notCancelled : sync.requestCancelled = false
  requestServed : 0 < sync.saved →
    sync.pending = some (.bySave sync.saved) ∨ sync.started = sync.saved
  newSource : sync.ui = .idle → ∀ run cfg, sync.worker = some run →
    run.request = .bySave sync.saved → run.pc.config = some cfg →
      sync.lastSaved = some cfg
  blockRemoved : sync.ui = .idle → sync.worker = none → sync.pending = none →
    ∀ cfg, sync.lastSaved = some cfg → cfg.enabled = false →
      sync.block = none ∨ sync.status.error ≠ none

instance (pc : RunPc) (generation : Nat) : Decidable (pc.harmless generation) :=
  inferInstanceAs (Decidable ((_ ∧ _) ∨ _))

instance : DecidableRel FilesWhileHarmless
  | sync, .ui => inferInstanceAs (Decidable (sync.ui.filing = true → _))
  | _, .save _ | _, .worker _ => inferInstanceAs (Decidable True)

end Fips2Go.HostsSync
