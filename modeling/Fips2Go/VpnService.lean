import Fips2Go.GuardedRuns
import Mathlib.Logic.Function.Basic

/-!
# The VPN service

`FipsVpnService` as a step function over its threads: the main looper, one
thread for every connect attempt, the thread of a shutdown, and the rebind
worker.  Each access to what they share is one step: the flags, `tunFd`, the
attempt counter, the descriptors and the engine.  What a step learns from
outside (does `establish()` answer, does the engine start) is its input.
Notifications, wake locks and log lines are left out.
-/

namespace Fips2Go.VpnService

open GuardedRuns

/-- A config JSON; `changes` counts the settings changes announced when it was
built from the preferences. -/
structure Config where
  json : String
  changes : Nat
  deriving DecidableEq, Repr

/-- The running engine: the descriptor it holds a dup of, the config it was
handed last, and the attempt that started it. -/
structure Engine where
  tun : Nat
  config : Config
  attempt : Nat
  deriving DecidableEq, Repr

/-- `ENGINE` and `LIFECYCLE`: while `network_changed` rebuilds the node there
is no engine, and nobody else may start or stop one. -/
inductive Native where
  | down
  | up (engine : Engine)
  | rebuilding (engine : Engine)
  deriving DecidableEq, Repr

/-- `FipsNative.isRunning()`. -/
def Native.isRunning : Native → Bool
  | .up _ => true
  | _ => false

def Native.engine : Native → Option Engine
  | .down => none
  | .up engine | .rebuilding engine => some engine

/-- Where a call of `shutdown()` stands: before the step the name tells. -/
inductive ShutdownPc where
  | clearActive
  | clearQueued
  | bumpAttempt
  | clearRebind
  | claimStopping
  | unregister
  | takeFd
  | clearFd (fd : Option Nat)
  | spawnStop (fd : Option Nat)
  deriving DecidableEq, Repr

/-- The main looper: `onStartCommand` (`config…` and `connect…`, `queue…`),
`beginConnect` (`begin…`), `finishShutdown` (`finish…`) and `shutdown`. -/
inductive MainPc where
  | idle
  | shutdown (pc : ShutdownPc)
  | configActive
  | configFd
  | configRunning
  | configDefer
  | configRequest
  | configClaim
  | connectIdentity
  | connectActive
  | connectStopping
  | queueActive
  | queueSet
  | beginBuild
  | beginActive (config : Config)
  | beginRebind (config : Config)
  | beginAttempt (config : Config)
  | finishStopping
  | finishQueued
  | finishIdentity
  deriving DecidableEq, Repr

/-- The thread of one attempt in `connect`. -/
inductive ConnectPc where
  | idle
  | enter (config : Config)
  | address (config : Config)
  | establish (config : Config)
  | check (config : Config) (pfd : Nat)
  | replace (config : Config) (pfd : Nat)
  | closeOld (config : Config) (pfd old : Nat)
  | adopt (config : Config) (pfd : Nat)
  | start (config : Config) (pfd : Nat)
  | started (pfd : Nat)
  | lateStop (pfd : Nat)
  | disown (pfd : Nat)
  | disownSet (pfd : Nat)
  | closeOwn (pfd : Nat)
  | register
  | consume
  | requestSet
  | requestClaim
  | failing (pc : ShutdownPc)
  deriving DecidableEq, Repr

/-- The thread a shutdown starts. -/
inductive DisconnectPc where
  | idle
  | stop (fd : Option Nat)
  | close (fd : Option Nat)
  deriving DecidableEq, Repr

/-- The worker of `rebindNode`, which holds `rebinding` exactly while it is not
`none`; from `active` on it is in `rebindOnce`. -/
inductive WorkerPc where
  | none
  | poll
  | settle
  | active
  | build
  | decide (config : Option Config)
  | establish (config : Option Config)
  | recheck (config : Option Config) (fresh : Nat)
  | closeFresh (fresh : Nat)
  | readOld (config : Option Config) (fresh : Nat)
  | adopt (config : Option Config) (fresh : Nat) (old : Option Nat)
  | readFd (config : Option Config)
  | handle (config : Option Config) (fd : Nat) (old : Option Nat)
  | notify (config : Option Config) (fd : Nat) (old : Option Nat)
  | rebuilding (old : Option Nat)
  | closeOld (old : Option Nat)
  | died
  | release
  deriving DecidableEq, Repr

inductive Command where
  | connect
  | disconnect
  | configChanged
  deriving DecidableEq, Repr

/-- The shared state, the threads, and after them what is only recorded: the
settings changes announced so far and the last command of the user.
`openFds` are the established descriptors nobody has closed.  A call of
`rebindNode` from a network or hotspot callback counts in `requesting` between
its two steps; a worker that has given its slot back counts in `rereading` and
then in `reclaiming` until it returns. -/
structure Service where
  tunFd : Option Nat
  connectAttempt : Nat
  rebindAfterConnect : Bool
  stopping : Bool
  connectQueued : Bool
  rebindRequested : Bool
  tunnelActive : Bool
  meshAddress : Bool
  monitoring : Bool
  native : Native
  openFds : List Nat
  nextFd : Nat
  main : MainPc
  connect : Nat → ConnectPc
  disconnect : DisconnectPc
  finishPosted : Bool
  worker : WorkerPc
  requesting : Nat
  rereading : Nat
  reclaiming : Nat
  changes : Nat
  lastCommand : Command

/-- What a step may learn: whether the call it makes succeeds, the JSON built
from the preferences (`none` for an exception), whether the pump takes the new
descriptor, and in which respects the tunnel is out of date. -/
structure Input where
  ok : Bool
  json : Option String
  swapped : Bool
  ipv6Flipped : Bool
  appsChanged : Bool
  deriving DecidableEq, Repr

inductive Move where
  | command (command : Command)
  | finishShutdown
  | main (input : Input)
  | connect (attempt : Nat) (input : Input)
  | disconnect
  | worker (input : Input)
  | request
  | requestClaim
  | reread
  | reclaim
  deriving DecidableEq, Repr

/-- True while `attempt` is still the connect the user wants. -/
def Service.stillWanted (service : Service) (attempt : Nat) : Prop :=
  service.tunnelActive = true ∧ service.connectAttempt = attempt

instance (service : Service) (attempt : Nat) :
    Decidable (service.stillWanted attempt) :=
  inferInstanceAs (Decidable (_ ∧ _))

def Service.close (service : Service) (fd : Nat) : Service :=
  { service with openFds := service.openFds.filter (· ≠ fd) }

def Service.closeOpt (service : Service) : Option Nat → Service
  | none => service
  | some fd => service.close fd

/-- `establish()` answers with a descriptor nobody has had before. -/
def Service.establish (service : Service) : Service :=
  { service with
    openFds := service.nextFd :: service.openFds
    nextFd := service.nextFd + 1 }

def Service.connectAt (service : Service) (attempt : Nat) (pc : ConnectPc) : Service :=
  { service with connect := Function.update service.connect attempt pc }

/-- `compareAndSet(false, true)` on `rebinding`, and the thread after it. -/
def Service.claimWorker (service : Service) : Service :=
  if service.worker = .none then { service with worker := .poll } else service

/-- One step of `shutdown()`; the second part is where the call goes on. -/
def shutdownStep (service : Service) : ShutdownPc → Service × Option ShutdownPc
  | .clearActive => ({ service with tunnelActive := false }, some .clearQueued)
  | .clearQueued => ({ service with connectQueued := false }, some .bumpAttempt)
  | .bumpAttempt =>
      ({ service with connectAttempt := service.connectAttempt + 1 }, some .clearRebind)
  | .clearRebind => ({ service with rebindAfterConnect := false }, some .claimStopping)
  | .claimStopping =>
      if service.stopping then (service, none)
      else ({ service with stopping := true }, some .unregister)
  | .unregister => ({ service with monitoring := false }, some .takeFd)
  | .takeFd => (service, some (.clearFd service.tunFd))
  | .clearFd fd => ({ service with tunFd := none }, some (.spawnStop fd))
  | .spawnStop fd => ({ service with disconnect := .stop fd }, none)

def mainStep (service : Service) (input : Input) : Option Service :=
  match service.main with
  | .idle => none
  | .shutdown pc =>
      match shutdownStep service pc with
      | (next, some pc) => some { next with main := .shutdown pc }
      | (next, none) => some { next with main := .idle }
  | .configActive =>
      if service.tunnelActive then some { service with main := .configFd }
      else some { service with main := .idle }
  | .configFd =>
      match service.tunFd with
      | none => some { service with main := .configDefer }
      | some _ => some { service with main := .configRunning }
  | .configRunning =>
      if service.native.isRunning then some { service with main := .configRequest }
      else some { service with main := .configDefer }
  | .configDefer => some { service with rebindAfterConnect := true, main := .idle }
  | .configRequest => some { service with rebindRequested := true, main := .configClaim }
  | .configClaim => some { service.claimWorker with main := .idle }
  | .connectIdentity =>
      if input.ok then some { service with main := .connectActive }
      else some { service with main := .idle }
  | .connectActive =>
      if service.tunnelActive then some { service with main := .idle }
      else some { service with main := .connectStopping }
  | .connectStopping =>
      if service.stopping then some { service with main := .queueActive }
      else some { service with main := .beginBuild }
  | .queueActive => some { service with tunnelActive := true, main := .queueSet }
  | .queueSet => some { service with connectQueued := true, main := .idle }
  | .beginBuild =>
      -- An exception of `buildConfigJson` is not caught here.
      match input.json with
      | none => none
      | some json => some { service with main := .beginActive ⟨json, service.changes⟩ }
  | .beginActive config =>
      some { service with tunnelActive := true, main := .beginRebind config }
  | .beginRebind config =>
      some { service with rebindAfterConnect := false, main := .beginAttempt config }
  | .beginAttempt config =>
      let attempt := service.connectAttempt + 1
      some { service with
        connectAttempt := attempt
        connect := Function.update service.connect attempt (.enter config)
        main := .idle }
  | .finishStopping => some { service with stopping := false, main := .finishQueued }
  | .finishQueued =>
      let main := if service.connectQueued then .finishIdentity else .idle
      some { service with connectQueued := false, main := main }
  | .finishIdentity =>
      if input.ok then some { service with main := .beginBuild }
      else some { service with tunnelActive := false, main := .idle }

/-- One step of `connect`.  `stillWanted` reads two fields; as the counter only
grows it may be taken at one moment. -/
def connectStep (service : Service) (attempt : Nat) (input : Input) : Option Service :=
  match service.connect attempt with
  | .idle => none
  | .enter config =>
      if service.native.isRunning then some (service.connectAt attempt .idle)
      else some (service.connectAt attempt (.address config))
  | .address config =>
      some ({ service with meshAddress := true }.connectAt attempt (.establish config))
  | .establish config =>
      if input.ok then
        some (service.establish.connectAt attempt (.check config service.nextFd))
      else some (service.connectAt attempt (.failing .clearActive))
  | .check config pfd =>
      if service.stillWanted attempt then
        some (service.connectAt attempt (.replace config pfd))
      else some (service.connectAt attempt (.closeOwn pfd))
  | .replace config pfd =>
      match service.tunFd with
      | none => some (service.connectAt attempt (.adopt config pfd))
      | some old =>
          if old = pfd then some (service.connectAt attempt (.adopt config pfd))
          else some (service.connectAt attempt (.closeOld config pfd old))
  | .closeOld config pfd old =>
      some ((service.close old).connectAt attempt (.adopt config pfd))
  | .adopt config pfd =>
      some ({ service with tunFd := some pfd }.connectAt attempt (.start config pfd))
  | .start config pfd =>
      -- `pfd.fd` of a closed descriptor throws, and nothing catches it.
      if pfd ∉ service.openFds then none
      else
        match service.native with
        | .rebuilding _ => none
        | .up _ => some (service.connectAt attempt (.failing .clearActive))
        | .down =>
            if input.ok then
              some ({ service with native := .up ⟨pfd, config, attempt⟩ }.connectAt
                attempt (.started pfd))
            else some (service.connectAt attempt (.failing .clearActive))
  | .started pfd =>
      if service.stillWanted attempt then some (service.connectAt attempt .register)
      else some (service.connectAt attempt (.lateStop pfd))
  | .lateStop pfd =>
      match service.native with
      | .rebuilding _ => none
      | _ => some ({ service with native := .down }.connectAt attempt (.disown pfd))
  | .disown pfd =>
      if service.tunFd = some pfd then some (service.connectAt attempt (.disownSet pfd))
      else some (service.connectAt attempt (.closeOwn pfd))
  | .disownSet pfd =>
      some ({ service with tunFd := none }.connectAt attempt (.closeOwn pfd))
  | .closeOwn pfd => some ((service.close pfd).connectAt attempt .idle)
  | .register => some ({ service with monitoring := true }.connectAt attempt .consume)
  | .consume =>
      let pc := if service.rebindAfterConnect then .requestSet else .idle
      some ({ service with rebindAfterConnect := false }.connectAt attempt pc)
  | .requestSet =>
      some ({ service with rebindRequested := true }.connectAt attempt .requestClaim)
  | .requestClaim => some (service.claimWorker.connectAt attempt .idle)
  | .failing pc =>
      match shutdownStep service pc with
      | (next, some pc) => some (next.connectAt attempt (.failing pc))
      | (next, none) => some (next.connectAt attempt .idle)

def disconnectStep (service : Service) : Option Service :=
  match service.disconnect with
  | .idle => none
  | .stop fd =>
      match service.native with
      | .rebuilding _ => none
      | _ => some { service with native := .down, disconnect := .close fd }
  | .close fd =>
      some { service.closeOpt fd with disconnect := .idle, finishPosted := true }

/-- One step of the worker, `rebindOnce` and `network_changed` included. -/
def workerStep (service : Service) (input : Input) : Option Service :=
  match service.worker with
  | .none => none
  | .poll =>
      if service.rebindRequested then some { service with worker := .settle }
      else some { service with worker := .release }
  | .settle => some { service with rebindRequested := false, worker := .active }
  | .active =>
      if service.tunnelActive then some { service with worker := .build }
      else some { service with worker := .poll }
  | .build =>
      let config := input.json.map (fun json => ⟨json, service.changes⟩)
      some { service with worker := .decide config }
  | .decide config =>
      if input.ipv6Flipped ∨ (service.tunFd ≠ none ∧ input.appsChanged) then
        some { service with worker := .establish config }
      else some { service with worker := .readFd config }
  | .establish config =>
      if service.meshAddress ∧ input.ok then
        some { service.establish with worker := .recheck config service.nextFd }
      else some { service with worker := .poll }
  | .recheck config fresh =>
      if service.tunnelActive then some { service with worker := .readOld config fresh }
      else some { service with worker := .closeFresh fresh }
  | .closeFresh fresh => some { service.close fresh with worker := .poll }
  | .readOld config fresh =>
      some { service with worker := .adopt config fresh service.tunFd }
  | .adopt config fresh old =>
      some { service with tunFd := some fresh, worker := .handle config fresh old }
  | .readFd config =>
      match service.tunFd with
      | none => some { service with worker := .poll }
      | some fd => some { service with worker := .handle config fd none }
  | .handle config fd old =>
      -- `.fd` of a closed descriptor throws, and the worker ends.
      if fd ∈ service.openFds then some { service with worker := .notify config fd old }
      else some { service with worker := .died }
  | .notify config fd old =>
      match service.native with
      | .down => some { service with worker := .closeOld old }
      | .rebuilding _ => none
      | .up engine =>
          let wanted := config.getD engine.config
          let target := { engine with tun := fd, config := wanted }
          if wanted.json = engine.config.json ∧ input.swapped ∧ fd ∈ service.openFds then
            some { service with native := .up target, worker := .closeOld old }
          else some { service with native := .rebuilding target, worker := .rebuilding old }
  | .rebuilding old =>
      match service.native with
      | .rebuilding target =>
          let native :=
            if input.ok ∧ target.tun ∈ service.openFds then .up target else .down
          some { service with native := native, worker := .closeOld old }
      | _ => none
  | .closeOld old => some { service.closeOpt old with worker := .poll }
  | .died => some { service with worker := .none }
  | .release =>
      some { service with worker := .none, rereading := service.rereading + 1 }

def commandStep (service : Service) : Command → Service
  | .connect => { service with lastCommand := .connect, main := .connectIdentity }
  | .disconnect =>
      { service with lastCommand := .disconnect, main := .shutdown .clearActive }
  | .configChanged =>
      { service with changes := service.changes + 1, main := .configActive }

def step (service : Service) : Move → Option Service
  | .command command =>
      if service.main = .idle then some (commandStep service command) else none
  | .finishShutdown =>
      if service.main = .idle ∧ service.finishPosted then
        some { service with finishPosted := false, main := .finishStopping }
      else none
  | .main input => mainStep service input
  | .connect attempt input => connectStep service attempt input
  | .disconnect => disconnectStep service
  | .worker input => workerStep service input
  | .request =>
      if service.monitoring then
        some { service with
          rebindRequested := true
          requesting := service.requesting + 1 }
      else none
  | .requestClaim =>
      if 0 < service.requesting then
        some { service.claimWorker with requesting := service.requesting - 1 }
      else none
  | .reread =>
      if 0 < service.rereading then
        some { service with
          rereading := service.rereading - 1
          reclaiming := service.reclaiming + service.rebindRequested.toNat }
      else none
  | .reclaim =>
      if 0 < service.reclaiming then
        some { service.claimWorker with reclaiming := service.reclaiming - 1 }
      else none

/-- The worker's slot is claimed, or was taken already. -/
def Claimed (before after : WorkerPc) : Prop :=
  after = before ∨ before = .none ∧ after = .poll

theorem claimWorker_claims (service : Service) :
    ∃ worker, Claimed service.worker worker ∧ worker ≠ .none ∧
      service.claimWorker = { service with worker := worker } := by
  unfold Service.claimWorker
  split
  next free => exact ⟨.poll, .inr ⟨free, rfl⟩, by simp, rfl⟩
  next taken => exact ⟨service.worker, .inl rfl, taken, rfl⟩

theorem closeOpt_eq (service : Service) (fd : Option Nat) :
    ∃ openFds, service.closeOpt fd = { service with openFds := openFds } := by
  cases fd with
  | none => exact ⟨service.openFds, rfl⟩
  | some fd => exact ⟨service.openFds.filter (· ≠ fd), rfl⟩

/-- What the teardown thread can do; its `stop` waits for a rebuild to end. -/
theorem disconnectStep_cases {service next : Service}
    (stepTo : disconnectStep service = some next) :
    (∃ fd, service.disconnect = .stop fd ∧
      (∀ engine, service.native ≠ .rebuilding engine) ∧
      next = { service with native := .down, disconnect := .close fd }) ∨
    ∃ fd, service.disconnect = .close fd ∧
      next = { service.closeOpt fd with disconnect := .idle, finishPosted := true } := by
  unfold disconnectStep at stepTo
  split at stepTo
  · cases stepTo
  next fd at_ =>
    split at stepTo
    · cases stepTo
    next free => exact .inl ⟨fd, at_, free, (Option.some.inj stepTo).symm⟩
  next fd at_ => exact .inr ⟨fd, at_, (Option.some.inj stepTo).symm⟩

/-- What the worker leaves alone: the looper, the attempts and the teardown. -/
theorem workerStep_frame {service next : Service} {input : Input}
    (stepTo : workerStep service input = some next) :
    ∃ tunFd rebindRequested native openFds nextFd worker rereading,
      next = { service with
        tunFd := tunFd, rebindRequested := rebindRequested, native := native
        openFds := openFds, nextFd := nextFd, worker := worker, rereading := rereading } := by
  cases at_ : service.worker with
  | none => simp [workerStep, at_] at stepTo
  | closeOld old =>
      obtain ⟨openFds, closed⟩ := closeOpt_eq service old
      simp only [workerStep, at_, closed, Option.some.injEq] at stepTo
      exact ⟨_, _, _, _, _, _, _, stepTo.symm⟩
  | _ =>
      simp only [workerStep, at_] at stepTo
      repeat' split at stepTo
      all_goals first
        | cases stepTo; done
        | exact ⟨_, _, _, _, _, _, _, (Option.some.inj stepTo).symm⟩

/-- A service nobody has connected yet. -/
def initial : Service where
  tunFd := none
  connectAttempt := 0
  rebindAfterConnect := false
  stopping := false
  connectQueued := false
  rebindRequested := false
  tunnelActive := false
  meshAddress := false
  monitoring := false
  native := .down
  openFds := []
  nextFd := 0
  main := .idle
  connect := fun _ => .idle
  disconnect := .idle
  finishPosted := false
  worker := .none
  requesting := 0
  rereading := 0
  reclaiming := 0
  changes := 0
  lastCommand := .disconnect

/-- Every call succeeds, and the tunnel is as it should be. -/
def Input.granted (json : String) : Input where
  ok := true
  json := some json
  swapped := true
  ipv6Flipped := false
  appsChanged := false

/-- All threads are done; attempts beyond the counter never had one. -/
structure Service.Quiet (service : Service) : Prop where
  main : service.main = .idle
  connect : ∀ attempt ≤ service.connectAttempt, service.connect attempt = .idle
  disconnect : service.disconnect = .idle
  posted : service.finishPosted = false
  worker : service.worker = .none
  callers : service.requesting = 0 ∧ service.rereading = 0 ∧ service.reclaiming = 0

instance (service : Service) : Decidable service.Quiet :=
  decidable_of_iff
    (service.main = .idle ∧
      (∀ attempt ≤ service.connectAttempt, service.connect attempt = .idle) ∧
      service.disconnect = .idle ∧ service.finishPosted = false ∧
      service.worker = .none ∧
      (service.requesting = 0 ∧ service.rereading = 0 ∧ service.reclaiming = 0))
    ⟨fun ⟨main, connect, disconnect, posted, worker, callers⟩ =>
      ⟨main, connect, disconnect, posted, worker, callers⟩,
    fun quiet => ⟨quiet.main, quiet.connect, quiet.disconnect, quiet.posted,
      quiet.worker, quiet.callers⟩⟩

end Fips2Go.VpnService
