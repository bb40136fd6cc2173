import Fips2Go.GuardedRuns
import Mathlib.Logic.Function.Basic

/-!
# Starting, stopping and rebinding the engine

`start`, `stop`, `network_changed` and the entry points that only read, of
`shim/src/engine.rs`, with what they call of `pump.rs`, for any number of
threads.  A step is one statement of a caller that others can notice, or a step
of a thread that a start has spawned.  Whether what can fail does is the input
of a step.  Descriptors, node threads and reader/writer generations are
numbered as they are made.
-/

namespace Fips2Go.Lifecycle

open GuardedRuns

abbrev Thread := Nat

/-! ### What a start makes -/

inductive NodePhase where
  | starting
  | serving
  /-- Past its loop, or past a failed start: the thread is on its way out. -/
  | leaving
  | ended
  deriving DecidableEq

/-- A node thread: what it has sent on `ready_tx`, and whether `stop_tx` was
used or dropped. -/
structure Node where
  phase : NodePhase
  ready : Option Bool
  told : Bool
  joined : Bool
  deriving DecidableEq

def Node.unborn : Node := ⟨.ended, none, true, false⟩

def Node.spawned : Node := ⟨.starting, none, false, false⟩

inductive NodeStep where
  | starts
  | fails
  | dies
  | stops
  | breaks
  | ends
  deriving DecidableEq

/-- The closure of the node thread. -/
def Node.step (node : Node) : NodeStep → Option Node
  | .starts => if node.phase = .starting then
      some { node with phase := .serving, ready := some true } else none
  | .fails => if node.phase = .starting then
      some { node with phase := .leaving, ready := some false } else none
  | .dies => if node.phase = .starting then some { node with phase := .ended } else none
  | .stops => if node.phase = .serving ∧ node.told then
      some { node with phase := .leaving } else none
  | .breaks => if node.phase = .serving then some { node with phase := .leaving } else none
  | .ends => if node.phase = .leaving then some { node with phase := .ended } else none

/-- A thread that has ended takes no step. -/
theorem Node.running_of_step {node value : Node} {move : NodeStep}
    (stepTo : node.step move = some value) : node.phase ≠ .ended := by
  intro ended
  cases move <;> simp [Node.step, ended] at stepTo

/-- A reader and a writer on one descriptor, and which of them run. -/
structure Io where
  fd : Nat
  reader : Bool
  writer : Bool
  deriving DecidableEq

def Io.runs (io : Io) : Bool := io.reader || io.writer

structure Pump where
  io : Option Nat
  deriving DecidableEq

structure Engine where
  configJson : String
  node : Nat
  pump : Option Pump
  forwarder : Bool
  tunFd : Nat
  deriving DecidableEq

/-- `ENGINE` with everything that starts have made; `closes` counts how often a
descriptor was closed. -/
structure Shared where
  engine : Option Engine
  nodes : Nat → Node
  nextNode : Nat
  closes : Nat → Nat
  nextFd : Nat
  ios : Nat → Io
  nextIo : Nat

namespace Shared

variable (shared : Shared)

def put (engine : Option Engine) : Shared := { shared with engine }

def setNode (node : Nat) (value : Node) : Shared :=
  { shared with nodes := Function.update shared.nodes node value }

def spawnNode : Shared :=
  { shared.setNode shared.nextNode .spawned with nextNode := shared.nextNode + 1 }

def tell (node : Nat) : Shared := shared.setNode node { shared.nodes node with told := true }

def join (node : Nat) : Shared := shared.setNode node { shared.nodes node with joined := true }

/-- `fcntl(tun_fd, F_DUPFD_CLOEXEC)`. -/
def dup : Shared := { shared with nextFd := shared.nextFd + 1 }

def close (fd : Nat) : Shared :=
  { shared with closes := Function.update shared.closes fd (shared.closes fd + 1) }

def setIo (io : Nat) (value : Io) : Shared :=
  { shared with ios := Function.update shared.ios io value }

def spawnReader (fd : Nat) : Shared :=
  { shared.setIo shared.nextIo ⟨fd, true, false⟩ with nextIo := shared.nextIo + 1 }

def spawnWriter (io : Nat) : Shared := shared.setIo io { shared.ios io with writer := true }

variable {shared}

theorem nodes_setNode_self (node : Nat) (value : Node) :
    (shared.setNode node value).nodes node = value :=
  Function.update_self ..

theorem nodes_setNode_of_ne {node other : Nat} (distinct : other ≠ node) (value : Node) :
    (shared.setNode node value).nodes other = shared.nodes other :=
  Function.update_of_ne distinct _ _

end Shared

/-! ### Where a caller stands -/

inductive Call where
  | start (config : String)
  | stop
  | networkChanged (config : Option String)
  deriving DecidableEq

/-- The step of a start that fails. -/
inductive Failure where
  | config
  | nodeThread
  | nodeStart
  | timeout
  | nodeDied
  | dup
  | forwarder
  | wakeFd
  | reader
  | writer
  | bridge
  deriving DecidableEq

/-- The node and the dup'd descriptor that a failed start had made. -/
structure Made where
  node : Option Nat
  fd : Option Nat
  deriving DecidableEq

/-- What a call returns. -/
inductive Outcome where
  | done
  | alreadyRunning
  | inProgress
  | failed (failure : Failure) (made : Made)
  deriving DecidableEq

/-- In `start_locked` and `start_inner`. -/
inductive StartPc where
  | check
  | flag
  | configure
  | spawnNode
  | await (node : Nat)
  | dup (node : Nat)
  | tell (node : Nat)
  | join (node : Nat) (failure : Failure)
  | forwarder (node fd : Nat)
  | bridge (node fd : Nat) (forwarder : Bool) (io : Nat)
  | install (node fd : Nat) (forwarder : Bool) (io : Nat)
  | closeFailed (node fd : Nat) (failure : Failure)
  | abandon (node : Nat) (fd : Option Nat) (failure : Failure)
  | unflag (outcome : Outcome)
  deriving DecidableEq

/-- Who has called `spawn_io`. -/
inductive IoUser where
  | start (config : String) (rebinds : Bool) (node : Nat) (forwarder : Bool)
  | swap (config : String)
  deriving DecidableEq

/-- In `spawn_io`. -/
inductive IoPc where
  | wake
  | reader
  | writer (io : Nat)
  | retire (io : Nat)
  deriving DecidableEq

/-- In `stop_locked`. -/
inductive StopPc where
  | take
  | tell (engine : Engine)
  | joinPump (engine : Engine)
  | joinForwarder (engine : Engine)
  | joinNode (engine : Engine)
  | close (engine : Engine)
  deriving DecidableEq

/-- In `swap_tun_locked`, of which the last five hold `ENGINE`. -/
inductive SwapPc where
  | dup
  | takePump (fd : Nat)
  | stopOld (fd : Nat) (pump : Pump)
  | putBack (fd : Nat) (io : Option Nat) (swapped : Bool)
  | replace (fd : Nat)
  | closeOld (old : Nat)
  | unlock
  | closeNew (fd : Nat)
  | giveUp
  deriving DecidableEq

/-- `rebinds` tells that the caller is `network_changed`; a stop knows the
configuration that it restarts with. -/
inductive Control where
  | idle
  | wants (call : Call)
  | rebind (config : Option String)
  | start (config : String) (pc : StartPc) (rebinds : Bool)
  | io (pc : IoPc) (fd : Nat) (user : IoUser)
  | stop (pc : StopPc) (restart : Option String)
  | swap (pc : SwapPc) (config : String)
  | leave (outcome : Outcome) (rebinds : Bool)
  | unrebind
  | reading
  | panicked
  deriving DecidableEq

/-- `LIFECYCLE`, the mutex of `ENGINE`, `STARTING` and `REBINDING`. -/
structure State where
  lifecycle : Bool
  engineLock : Bool
  starting : Bool
  rebinding : Bool
  shared : Shared
  control : Thread → Control

def initial : State where
  lifecycle := false
  engineLock := false
  starting := false
  rebinding := false
  shared := ⟨none, fun _ => .unborn, 0, fun _ => 0, 0, fun _ => ⟨0, false, false⟩, 0⟩
  control := fun _ => .idle

def State.go (state : State) (thread : Thread) (shared : Shared) (control : Control) : State :=
  { state with shared, control := Function.update state.control thread control }

/-- The thread goes on without having changed anything. -/
def State.next (state : State) (thread : Thread) (control : Control) : Option State :=
  some (state.go thread state.shared control)

/-- One statement under a lock of `ENGINE` that it takes and gives back. -/
def State.withEngine (state : State) (after : Option State) : Option State :=
  if state.engineLock then none else after

/-! ### The steps of a caller -/

/-- Behind `LIFECYCLE.lock()`. -/
def Call.entered : Call → Control
  | .start config => .start config .check false
  | .stop => .stop .take none
  | .networkChanged config => .rebind config

def IoUser.done (fd io : Nat) : IoUser → Control
  | .start config rebinds node forwarder =>
      .start config (.bridge node fd forwarder io) rebinds
  | .swap config => .swap (.putBack fd (some io) true) config

def IoUser.failed (fd : Nat) (failure : Failure) : IoUser → Control
  | .start config rebinds node _ => .start config (.closeFailed node fd failure) rebinds
  | .swap config => .swap (.putBack fd none false) config

/-- At the end of `stop_locked`. -/
def stopped : Option String → Control
  | none => .leave .done false
  | some config => .start config .check true

section Steps

variable (state : State) (thread : Thread) (ok : Bool)

/-- `network_changed` under `LIFECYCLE`, up to its choice. -/
def rebindStep (config : Option String) : Option State :=
  state.withEngine <|
    match state.shared.engine with
    | none => state.next thread (.leave .done true)
    | some engine =>
        let config := config.getD engine.configJson
        state.next thread (if config = engine.configJson then .swap .dup config
          else .stop .take (some config))

/-- `forwards` is `forward_clearnet` of the configuration. -/
def startStep (forwards : String → Bool) (config : String) (rebinds : Bool) :
    StartPc → Option State
  | .check => state.withEngine <| state.next thread
      (if state.shared.engine.isSome then .leave .alreadyRunning rebinds
      else .start config .flag rebinds)
  | .flag =>
      if state.starting then state.next thread (.leave .inProgress rebinds)
      else { state with starting := true }.next thread (.start config .configure rebinds)
  | .configure => state.next thread (.start config
      (if ok then .spawnNode else .unflag (.failed .config ⟨none, none⟩)) rebinds)
  | .spawnNode =>
      if ok then some (state.go thread state.shared.spawnNode
        (.start config (.await state.shared.nextNode) rebinds))
      else state.next thread (.start config (.unflag (.failed .nodeThread ⟨none, none⟩)) rebinds)
  | .await node =>
      match (state.shared.nodes node).ready with
      | some true => state.next thread (.start config (.dup node) rebinds)
      | some false => state.next thread (.start config (.join node .nodeStart) rebinds)
      | none =>
          if (state.shared.nodes node).phase = .ended then
            state.next thread (.start config (.join node .nodeDied) rebinds)
          else if ok then none
          else state.next thread (.start config (.abandon node none .timeout) rebinds)
  | .dup node =>
      if ok then some (state.go thread state.shared.dup
        (.start config (.forwarder node state.shared.nextFd) rebinds))
      else state.next thread (.start config (.tell node) rebinds)
  | .tell node =>
      some (state.go thread (state.shared.tell node) (.start config (.join node .dup) rebinds))
  | .join node failure =>
      if (state.shared.nodes node).phase = .ended then
        some (state.go thread (state.shared.join node)
          (.start config (.unflag (.failed failure ⟨some node, none⟩)) rebinds))
      else none
  | .forwarder node fd =>
      state.next thread
        (if forwards config = false then .io .wake fd (.start config rebinds node false)
        else if ok then .io .wake fd (.start config rebinds node true)
        else .start config (.closeFailed node fd .forwarder) rebinds)
  | .bridge node fd forwarder io => state.next thread (.start config
      (if ok then .install node fd forwarder io else .closeFailed node fd .bridge) rebinds)
  | .install node fd forwarder io => state.withEngine <|
      some (state.go thread (state.shared.put (some ⟨config, node, some ⟨some io⟩, forwarder, fd⟩))
        (.start config (.unflag .done) rebinds))
  | .closeFailed node fd failure =>
      some (state.go thread (state.shared.close fd)
        (.start config (.abandon node (some fd) failure) rebinds))
  -- The locals of `start_inner` are dropped, `stop_tx` and the join handle among them.
  | .abandon node fd failure =>
      some (state.go thread (state.shared.tell node)
        (.start config (.unflag (.failed failure ⟨some node, fd⟩)) rebinds))
  | .unflag outcome => { state with starting := false }.next thread (.leave outcome rebinds)

def ioStep (fd : Nat) (user : IoUser) : IoPc → Option State
  | .wake => state.next thread (if ok then .io .reader fd user else user.failed fd .wakeFd)
  | .reader =>
      if ok then some (state.go thread (state.shared.spawnReader fd)
        (.io (.writer state.shared.nextIo) fd user))
      else state.next thread (user.failed fd .reader)
  | .writer io =>
      if ok then some (state.go thread (state.shared.spawnWriter io) (user.done fd io))
      else state.next thread (.io (.retire io) fd user)
  | .retire io =>
      if (state.shared.ios io).reader then none
      else state.next thread (user.failed fd .writer)

/-- `Pump::join` and `stop_io` give up on threads that do not stop in time. -/
def stopStep (restart : Option String) : StopPc → Option State
  | .take => state.withEngine <|
      match state.shared.engine with
      | none => state.next thread (stopped restart)
      | some engine =>
          some (state.go thread (state.shared.put none) (.stop (.tell engine) restart))
  | .tell engine =>
      some (state.go thread (state.shared.tell engine.node) (.stop (.joinPump engine) restart))
  | .joinPump engine =>
      let joined := state.next thread (.stop (.joinForwarder engine) restart)
      match engine.pump.bind Pump.io with
      | none => joined
      | some io => if ok ∧ (state.shared.ios io).runs then none else joined
  | .joinForwarder engine => state.next thread (.stop (.joinNode engine) restart)
  | .joinNode engine =>
      if (state.shared.nodes engine.node).phase = .ended then
        some (state.go thread (state.shared.join engine.node) (.stop (.close engine) restart))
      else none
  | .close engine =>
      some (state.go thread (state.shared.close engine.tunFd) (stopped restart))

def swapStep (config : String) : SwapPc → Option State
  | .dup =>
      if ok then some (state.go thread state.shared.dup
        (.swap (.takePump state.shared.nextFd) config))
      else state.next thread (.stop .take (some config))
  | .takePump fd => state.withEngine <|
      match state.shared.engine with
      | some ⟨configJson, node, some pump, forwarder, tunFd⟩ =>
          some (state.go thread
            (state.shared.put (some ⟨configJson, node, none, forwarder, tunFd⟩))
            (.swap (.stopOld fd pump) config))
      | _ => { state with engineLock := true }.next thread (.swap (.closeNew fd) config)
  | .stopOld fd pump =>
      match pump.io with
      | none => state.next thread (.swap (.putBack fd none false) config)
      | some io =>
          if ok = false then state.next thread (.swap (.putBack fd none false) config)
          else if (state.shared.ios io).runs then none
          else state.next thread (.io .wake fd (.swap config))
  | .putBack fd io swapped => state.withEngine <|
      match state.shared.engine with
      | none => state.next thread .panicked
      | some engine =>
          some ({ state with engineLock := true }.go thread
            (state.shared.put (some { engine with pump := some ⟨io⟩ }))
            (.swap (if swapped then .replace fd else .closeNew fd) config))
  | .replace fd =>
      match state.shared.engine with
      | none => none
      | some engine =>
          some (state.go thread (state.shared.put (some { engine with tunFd := fd }))
            (.swap (.closeOld engine.tunFd) config))
  | .closeOld old => some (state.go thread (state.shared.close old) (.swap .unlock config))
  | .unlock => { state with engineLock := false }.next thread (.leave .done true)
  | .closeNew fd => some (state.go thread (state.shared.close fd) (.swap .giveUp config))
  | .giveUp => { state with engineLock := false }.next thread (.stop .take (some config))

def callerStep (forwards : String → Bool) : Option State :=
  match state.control thread with
  | .idle | .panicked => none
  | .wants call =>
      if state.lifecycle then none
      else { state with lifecycle := true }.next thread call.entered
  | .rebind config => rebindStep state thread config
  | .start config pc rebinds => startStep state thread ok forwards config rebinds pc
  | .io pc fd user => ioStep state thread ok fd user pc
  | .stop pc restart => stopStep state thread ok restart pc
  | .swap pc config => swapStep state thread ok config pc
  | .leave _ rebinds =>
      { state with lifecycle := false }.next thread (if rebinds then .unrebind else .idle)
  | .unrebind => { state with rebinding := false }.next thread .idle
  | .reading => { state with engineLock := false }.next thread .idle

/-- An entry point is called.  A second rebind returns at once. -/
def callStep (call : Call) : Option State :=
  if state.control thread ≠ .idle then none
  else
    match call with
    | .networkChanged config =>
        if state.rebinding then some state
        else { state with rebinding := true }.next thread (.wants (.networkChanged config))
    | call => state.next thread (.wants call)

/-- An entry point that only reads takes `ENGINE`. -/
def readStep : Option State :=
  if state.control thread = .idle ∧ state.engineLock = false then
    { state with engineLock := true }.next thread .reading
  else none

end Steps

inductive Label where
  | call (thread : Thread) (call : Call)
  | read (thread : Thread)
  | move (thread : Thread) (ok : Bool)
  | node (node : Nat) (step : NodeStep)
  | readerStops (io : Nat)
  | writerStops (io : Nat)
  deriving DecidableEq

def step (forwards : String → Bool) (state : State) : Label → Option State
  | .call thread call => callStep state thread call
  | .read thread => readStep state thread
  | .move thread ok => callerStep state thread ok forwards
  | .node node move =>
      ((state.shared.nodes node).step move).map fun value =>
        { state with shared := state.shared.setNode node value }
  | .readerStops io => some { state with
      shared := state.shared.setIo io { state.shared.ios io with reader := false } }
  | .writerStops io => some { state with
      shared := state.shared.setIo io { state.shared.ios io with writer := false } }

end Fips2Go.Lifecycle
