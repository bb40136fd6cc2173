import Fips2Go.VpnService
import Mathlib.Data.Option.Basic

/-!
# Settings changes

A settings change is deferred by setting `rebindAfterConnect`, which only the
connect thread consumes, once.  While a rebind restarts the engine
`isRunning()` is false too, and a change deferred then waits for ever.  Where
every deferral still finds somebody to serve it, the engine ends up with a
config built after the last change.
-/

namespace Fips2Go.VpnService

open GuardedRuns

/-- The config a connect thread has not handed to the engine yet. -/
def ConnectPc.config : ConnectPc → Option Config
  | .enter config | .address config | .establish config | .check config _
  | .replace config _ | .closeOld config _ _ | .adopt config _ | .start config _ =>
      some config
  | _ => none

/-- The thread has its `rebindAfterConnect.getAndSet` ahead of it. -/
def ConnectPc.consumes : ConnectPc → Bool
  | .enter _ | .address _ | .establish _ | .check _ _ | .replace _ _ | .closeOld _ _ _
  | .adopt _ _ | .start _ _ | .started _ | .register | .consume => true
  | _ => false

/-- The config a rebind pass has built and not handed to the engine yet. -/
def WorkerPc.config : WorkerPc → Option Config
  | .decide config | .establish config | .recheck config _ | .readOld config _
  | .adopt config _ _ | .readFd config | .handle config _ _ | .notify config _ _ => config
  | _ => Option.none

/-- A rebind pass that has yet to build its config. -/
def WorkerPc.builds : WorkerPc → Bool
  | .active | .build => true
  | _ => false

/-- A config built after the last change is in the engine or on its way there,
or is yet to be built by somebody. -/
def Service.Served (service : Service) : Prop :=
  service.native.engine.map (·.config.changes) = some service.changes ∨
  (service.connect service.connectAttempt).config.map (·.changes) = some service.changes ∨
  service.worker.config.map (·.changes) = some service.changes ∨
  (service.rebindAfterConnect = true ∧
    (service.connect service.connectAttempt).consumes = true) ∨
  service.connect service.connectAttempt = .requestSet ∨
  service.rebindRequested = true ∨ service.worker.builds = true

instance (service : Service) : Decidable service.Served :=
  inferInstanceAs (Decidable (_ ∨ _ ∨ _ ∨ _ ∨ _ ∨ _ ∨ _))

/-- The main looper is handling a settings change, or starting the connect that
reads the settings itself. -/
def MainPc.handles : MainPc → Bool
  | .configActive | .configFd | .configRunning | .configDefer | .configRequest
  | .beginRebind _ | .beginAttempt _ => true
  | _ => false

/-- Somebody will still look at `rebindRequested`. -/
def Service.Roused (service : Service) : Prop :=
  service.worker ≠ .none ∨ service.main = .configClaim ∨
    service.connect 1 = .requestClaim ∨
    0 < service.requesting ∨ 0 < service.rereading ∨ 0 < service.reclaiming

/-- No disconnect and no failing call. -/
def Undisturbed (_service : Service) : Move → Prop
  | .command command => command ≠ .disconnect
  | .main input => input.ok = true
  | .connect _ input => input.ok = true
  | .worker input => input.ok = true ∧ input.json ≠ none
  | _ => True

/-- A settings change is deferred only where it will be served. -/
def DeferralServed (service : Service) : Move → Prop
  | .main _ => service.main = .configDefer →
      { service with rebindAfterConnect := true }.Served
  | _ => True

def UndisturbedServed (service : Service) (move : Move) : Prop :=
  Undisturbed service move ∧ DeferralServed service move

instance : DecidableRel Undisturbed := fun _ move =>
  match move with
  | .command command => inferInstanceAs (Decidable (command ≠ .disconnect))
  | .main input | .connect _ input => inferInstanceAs (Decidable (input.ok = true))
  | .worker input => inferInstanceAs (Decidable (input.ok = true ∧ input.json ≠ none))
  | .finishShutdown | .disconnect | .request | .requestClaim | .reread | .reclaim =>
      .isTrue trivial

instance : DecidableRel DeferralServed := fun service move =>
  match move with
  | .main _ =>
      inferInstanceAs (Decidable (service.main = .configDefer →
        { service with rebindAfterConnect := true }.Served))
  | .command _ | .finishShutdown | .connect _ _ | .disconnect | .worker _ | .request
  | .requestClaim | .reread | .reclaim => .isTrue trivial

instance : DecidableRel UndisturbedServed :=
  fun _ _ => inferInstanceAs (Decidable (_ ∧ _))

/-- Where the main looper can be without a disconnect. -/
def MainUp (service : Service) : MainPc → Prop
  | .connectStopping | .beginBuild =>
      service.tunnelActive = false ∧ service.connectAttempt = 0
  | .beginActive config =>
      service.tunnelActive = false ∧ service.connectAttempt = 0 ∧
        config.changes = service.changes
  | .beginRebind config | .beginAttempt config =>
      service.tunnelActive = true ∧ service.connectAttempt = 0 ∧
        config.changes = service.changes
  | .configRequest | .configClaim => service.native ≠ .down
  | .shutdown _ | .queueActive | .queueSet | .finishStopping | .finishQueued
  | .finishIdentity => False
  | _ => True

/-- Where the only attempt can be without a disconnect or a failing call. -/
def ConnectUp (service : Service) : ConnectPc → Prop
  | .idle => service.connectAttempt = 1 → service.native ≠ .down
  | .enter config | .address config =>
      service.native = .down ∧ service.tunFd = none ∧ config.changes ≤ service.changes
  | .establish config =>
      service.native = .down ∧ service.tunFd = none ∧ config.changes ≤ service.changes ∧
        service.meshAddress = true
  | .check config pfd | .replace config pfd | .adopt config pfd =>
      service.native = .down ∧ service.tunFd = none ∧ config.changes ≤ service.changes ∧
        service.meshAddress = true ∧ pfd ∈ service.openFds
  | .start config pfd =>
      service.native = .down ∧ service.tunFd = some pfd ∧
        config.changes ≤ service.changes ∧
        service.meshAddress = true ∧ pfd ∈ service.openFds
  | .started _ | .register | .consume | .requestSet | .requestClaim =>
      service.native ≠ .down
  | _ => False

/-- A pass carries a config not older than the engine's. -/
def Carries (service : Service) (config : Option Config) : Prop :=
  ∃ built, config = some built ∧ built.changes ≤ service.changes ∧
    ∀ engine, service.native.engine = some engine →
      engine.config.changes ≤ built.changes

/-- Where the worker can be. -/
def WorkerUp (service : Service) : WorkerPc → Prop
  | .decide config | .establish config | .readFd config => Carries service config
  | .recheck config fresh | .readOld config fresh =>
      Carries service config ∧ fresh ∈ service.openFds ∧ service.tunFd ≠ some fresh
  | .adopt config fresh old =>
      Carries service config ∧ fresh ∈ service.openFds ∧ service.tunFd ≠ some fresh ∧
        old = service.tunFd
  | .handle config fd old | .notify config fd old =>
      Carries service config ∧ service.tunFd = some fd ∧ old ≠ some fd
  | .rebuilding old =>
      ∃ target, service.native = .rebuilding target ∧
        service.tunFd = some target.tun ∧ old ≠ some target.tun
  | .closeOld old => old ≠ service.tunFd
  | .closeFresh _ | .died => False
  | _ => True

/-- Before the engine is up nobody asks for a rebind. -/
structure Unasked (service : Service) : Prop where
  worker : service.worker = .none
  monitoring : service.monitoring = false
  rebindRequested : service.rebindRequested = false
  callers : service.requesting = 0 ∧ service.rereading = 0 ∧ service.reclaiming = 0

/-- Once the engine is up it stays, on an open descriptor. -/
structure Launched (service : Service) : Prop where
  tunnelActive : service.tunnelActive = true
  connectAttempt : service.connectAttempt = 1
  meshAddress : service.meshAddress = true
  tunFd : ∃ fd ∈ service.openFds, service.tunFd = some fd
  changes : ∀ engine, service.native.engine = some engine →
    engine.config.changes ≤ service.changes

structure Upright (service : Service) : Prop where
  stopping : service.stopping = false
  disconnect : service.disconnect = .idle ∧ service.finishPosted = false
  main : MainUp service service.main
  connect : ConnectUp service (service.connect 1)
  worker : WorkerUp service service.worker
  only : ∀ attempt, service.connect attempt ≠ .idle →
    attempt = 1 ∧ service.connectAttempt = 1 ∧ service.tunnelActive = true
  attempts : service.tunnelActive = false ∧ service.connectAttempt = 0 ∨
    service.tunnelActive = true ∧ (service.connectAttempt = 1 ∨
      ∃ config, service.main = .beginRebind config ∨ service.main = .beginAttempt config)
  unset : service.connectAttempt = 0 → service.tunFd = none
  unasked : service.native = .down → Unasked service
  launched : service.native ≠ .down → Launched service
  rebuilding : ∀ engine, service.native = .rebuilding engine →
    ∃ old, service.worker = .rebuilding old
  bounded : ∀ fd ∈ service.openFds, fd < service.nextFd

theorem Carries.congr {service next : Service} {config : Option Config}
    (carries : Carries service config) (native : next.native = service.native)
    (changes : service.changes ≤ next.changes) : Carries next config := by
  obtain ⟨built, rfl, bounded, newer⟩ := carries
  refine ⟨built, rfl, Nat.le_trans bounded changes, ?_⟩
  rw [native]
  exact newer

theorem WorkerUp.congr {service next : Service} {pc : WorkerPc}
    (up : WorkerUp service pc) (native : next.native = service.native)
    (changes : service.changes ≤ next.changes)
    (tunFd : next.tunFd = service.tunFd) (openFds : next.openFds = service.openFds) :
    WorkerUp next pc := by
  have carries (config : Option Config) (held : Carries service config) :
      Carries next config := held.congr native changes
  cases pc with
  | decide config => exact carries config up
  | establish config => exact carries config up
  | readFd config => exact carries config up
  | recheck config fresh => exact ⟨carries config up.1, openFds ▸ up.2.1, tunFd ▸ up.2.2⟩
  | readOld config fresh => exact ⟨carries config up.1, openFds ▸ up.2.1, tunFd ▸ up.2.2⟩
  | adopt config fresh old =>
      exact ⟨carries config up.1, openFds ▸ up.2.1, tunFd ▸ up.2.2⟩
  | handle config fd old => exact ⟨carries config up.1, tunFd ▸ up.2⟩
  | notify config fd old => exact ⟨carries config up.1, tunFd ▸ up.2⟩
  | rebuilding old =>
      obtain ⟨target, rebuilds, adopted⟩ := up
      exact ⟨target, native.trans rebuilds, tunFd ▸ adopted⟩
  | closeOld old => exact fun same => up (same.trans tunFd)
  | _ => exact up

/-- Once the engine is up a connect thread's place depends on nothing else. -/
theorem ConnectUp.launched {service next : Service} {pc : ConnectPc}
    (up : ConnectUp service pc) (before : service.native ≠ .down)
    (after : next.native ≠ .down) : ConnectUp next pc := by
  cases pc with
  | idle => exact fun _ => after
  | started pfd => exact after
  | register => exact after
  | consume => exact after
  | requestSet => exact after
  | requestClaim => exact after
  | enter config => exact absurd up.1 before
  | address config => exact absurd up.1 before
  | establish config => exact absurd up.1 before
  | check config pfd => exact absurd up.1 before
  | replace config pfd => exact absurd up.1 before
  | adopt config pfd => exact absurd up.1 before
  | start config pfd => exact absurd up.1 before
  | _ => exact up

theorem MainUp.congr {service next : Service} {pc : MainPc}
    (up : MainUp service pc) (native : service.native ≠ .down → next.native ≠ .down)
    (counter : next.connectAttempt = service.connectAttempt)
    (active : next.tunnelActive = service.tunnelActive)
    (changes : next.changes = service.changes) : MainUp next pc := by
  cases pc with
  | configRequest => exact native up
  | configClaim => exact native up
  | connectStopping => exact ⟨active.trans up.1, counter.trans up.2⟩
  | beginBuild => exact ⟨active.trans up.1, counter.trans up.2⟩
  | beginActive config =>
      exact ⟨active.trans up.1, counter.trans up.2.1, up.2.2.trans changes.symm⟩
  | beginRebind config =>
      exact ⟨active.trans up.1, counter.trans up.2.1, up.2.2.trans changes.symm⟩
  | beginAttempt config =>
      exact ⟨active.trans up.1, counter.trans up.2.1, up.2.2.trans changes.symm⟩
  | _ => exact up

namespace Upright

variable {service : Service}

theorem launched_of_worker (inv : Upright service) (busy : service.worker ≠ .none) :
    service.native ≠ .down := by
  intro down
  exact busy (inv.unasked down).worker

/-- The worker moves on, with the engine up before and after. -/
theorem byWorker (inv : Upright service) (busy : service.worker ≠ .none)
    {worker : WorkerPc} {tunFd : Option Nat} {native : Native} {openFds : List Nat}
    {nextFd rereading : Nat} {rebindRequested : Bool}
    (up : native ≠ .down) (kept : ∃ fd ∈ openFds, tunFd = some fd)
    (changes : ∀ engine, native.engine = some engine →
      engine.config.changes ≤ service.changes)
    (rebuilding : ∀ engine, native = .rebuilding engine → ∃ old, worker = .rebuilding old)
    (bounded : ∀ fd ∈ openFds, fd < nextFd)
    (moved : WorkerUp { service with
      worker := worker, tunFd := tunFd, native := native, openFds := openFds
      nextFd := nextFd, rereading := rereading, rebindRequested := rebindRequested } worker) :
    Upright { service with
      worker := worker, tunFd := tunFd, native := native, openFds := openFds
      nextFd := nextFd, rereading := rereading, rebindRequested := rebindRequested } := by
  have before := inv.launched_of_worker busy
  have launched := inv.launched before
  exact {
    stopping := inv.stopping
    disconnect := inv.disconnect
    main := inv.main.congr (fun _ => up) rfl rfl rfl
    connect := inv.connect.launched before up
    worker := moved
    only := inv.only
    attempts := inv.attempts
    unset := fun none => by simp [launched.connectAttempt] at none
    unasked := fun down => absurd down up
    launched := fun _ => ⟨launched.tunnelActive, launched.connectAttempt,
      launched.meshAddress, kept, changes⟩
    rebuilding := rebuilding
    bounded := bounded }

/-- A pass goes on with the config it carries. -/
theorem workerTo (inv : Upright service) (busy : service.worker ≠ .none)
    (notRebuilding : ∀ old, service.worker ≠ .rebuilding old) {worker : WorkerPc}
    {rereading : Nat} {rebindRequested : Bool}
    (moved : WorkerUp service worker) :
    Upright { service with
      worker := worker, rereading := rereading, rebindRequested := rebindRequested } := by
  have launched := inv.launched (inv.launched_of_worker busy)
  apply inv.byWorker busy (inv.launched_of_worker busy) launched.tunFd launched.changes
  · intro engine rebuilds
    obtain ⟨old, at_⟩ := inv.rebuilding engine rebuilds
    exact absurd at_ (notRebuilding old)
  · exact inv.bounded
  · exact moved.congr rfl (Nat.le_refl _) rfl rfl

/-- `network_changed` hands over the config of the pass. -/
theorem notify (inv : Upright service) {config : Option Config} {fd : Nat}
    {old : Option Nat} (at_ : service.worker = .notify config fd old) {next : Service}
    {input : Input} (stepTo : workerStep service input = some next) : Upright next := by
  have busy : service.worker ≠ .none := by simp [at_]
  have launched := inv.launched (inv.launched_of_worker busy)
  have moved := inv.worker
  rw [at_] at moved
  obtain ⟨⟨built, rfl, bounded, newer⟩, adopted, otherOld⟩ := moved
  obtain ⟨tun, isOpen, tunFd⟩ := launched.tunFd
  simp only [workerStep, at_] at stepTo
  cases running : service.native with
  | down => exact absurd running (inv.launched_of_worker busy)
  | rebuilding engine => simp [running] at stepTo
  | up engine =>
      simp only [running, Option.getD_some] at stepTo
      split at stepTo
      next =>
        cases stepTo
        apply inv.byWorker busy (by simp) ⟨tun, isOpen, tunFd⟩ _ (by simp) inv.bounded
        · exact fun same => otherOld (same.trans adopted)
        · rintro _ ⟨⟩
          exact bounded
      next =>
        cases stepTo
        apply inv.byWorker busy (by simp) ⟨tun, isOpen, tunFd⟩ _ (by simp) inv.bounded
        · exact ⟨_, rfl, adopted, otherOld⟩
        · rintro _ ⟨⟩
          exact bounded

theorem workerStep (inv : Upright service) {next : Service} {input : Input}
    (succeeds : input.ok = true) (built : input.json ≠ none)
    (stepTo : VpnService.workerStep service input = some next) : Upright next := by
  by_cases idle : service.worker = .none
  · simp [VpnService.workerStep, idle] at stepTo
  have running := inv.launched_of_worker idle
  have launched := inv.launched running
  obtain ⟨tun, isOpen, tunFd⟩ := launched.tunFd
  have up := inv.worker
  cases at_ : service.worker with
  | none => exact absurd at_ idle
  | poll =>
      simp only [VpnService.workerStep, at_] at stepTo
      split at stepTo
      all_goals
        cases stepTo
        exact inv.workerTo idle (by simp [at_]) trivial
  | settle | release =>
      simp only [VpnService.workerStep, at_] at stepTo
      cases stepTo
      exact inv.workerTo idle (by simp [at_]) trivial
  | active =>
      simp only [VpnService.workerStep, at_] at stepTo
      split at stepTo
      all_goals
        cases stepTo
        exact inv.workerTo idle (by simp [at_]) trivial
  | build =>
      obtain ⟨json, given⟩ := Option.ne_none_iff_exists'.mp built
      simp only [VpnService.workerStep, at_, given, Option.map_some] at stepTo
      cases stepTo
      exact inv.workerTo idle (by simp [at_])
        ⟨_, rfl, Nat.le_refl _, launched.changes⟩
  | decide config =>
      rw [at_] at up
      simp only [VpnService.workerStep, at_] at stepTo
      split at stepTo
      all_goals
        cases stepTo
        exact inv.workerTo idle (by simp [at_]) up
  | establish config =>
      rw [at_] at up
      have carries : Carries service config := up
      have fresh : service.tunFd ≠ some service.nextFd := by
        rw [tunFd]
        rintro ⟨⟩
        exact Nat.lt_irrefl _ (inv.bounded _ isOpen)
      simp only [VpnService.workerStep, at_, succeeds, launched.meshAddress, and_self,
        if_true] at stepTo
      cases stepTo
      apply inv.byWorker idle running ⟨tun, List.mem_cons_of_mem _ isOpen, tunFd⟩
        launched.changes
      · intro engine rebuilds
        obtain ⟨old, rebuilding⟩ := inv.rebuilding engine rebuilds
        rw [at_] at rebuilding
        cases rebuilding
      · intro fd established
        rcases List.mem_cons.mp established with rfl | earlier
        · exact Nat.lt_succ_self _
        · exact Nat.lt_succ_of_lt (inv.bounded fd earlier)
      · exact ⟨carries.congr rfl (Nat.le_refl _), List.mem_cons_self .., fresh⟩
  | recheck config fresh =>
      rw [at_] at up
      have moved : WorkerUp service (.readOld config fresh) := up
      simp only [VpnService.workerStep, at_] at stepTo
      rw [if_pos launched.tunnelActive] at stepTo
      cases stepTo
      exact inv.workerTo idle (by simp [at_]) moved
  | closeFresh fresh =>
      rw [at_] at up
      exact up.elim
  | readOld config fresh =>
      rw [at_] at up
      have moved : WorkerUp service (.adopt config fresh service.tunFd) :=
        ⟨up.1, up.2.1, up.2.2, rfl⟩
      simp only [VpnService.workerStep, at_] at stepTo
      cases stepTo
      exact inv.workerTo idle (by simp [at_]) moved
  | adopt config fresh old =>
      rw [at_] at up
      obtain ⟨carries, opened, other, rfl⟩ := up
      simp only [VpnService.workerStep, at_] at stepTo
      cases stepTo
      apply inv.byWorker idle running ⟨fresh, opened, rfl⟩ launched.changes
      · intro engine rebuilds
        obtain ⟨old, rebuilding⟩ := inv.rebuilding engine rebuilds
        rw [at_] at rebuilding
        cases rebuilding
      · exact inv.bounded
      · exact ⟨carries.congr rfl (Nat.le_refl _), rfl, other⟩
  | readFd config =>
      rw [at_] at up
      simp only [VpnService.workerStep, at_] at stepTo
      split at stepTo
      next unset =>
        rw [tunFd] at unset
        cases unset
      next fd set =>
        have moved : WorkerUp service (.handle config fd none) := ⟨up, set, by simp⟩
        cases stepTo
        exact inv.workerTo idle (by simp [at_]) moved
  | handle config fd old =>
      rw [at_] at up
      have opened : fd ∈ service.openFds := by
        cases tunFd.symm.trans up.2.1
        exact isOpen
      have moved : WorkerUp service (.notify config fd old) := up
      simp only [VpnService.workerStep, at_, opened, if_true] at stepTo
      cases stepTo
      exact inv.workerTo idle (by simp [at_]) moved
  | notify config fd old => exact inv.notify at_ stepTo
  | rebuilding old =>
      rw [at_] at up
      obtain ⟨target, rebuilds, adopted, otherOld⟩ := up
      have opened : target.tun ∈ service.openFds := by
        cases tunFd.symm.trans adopted
        exact isOpen
      simp only [VpnService.workerStep, at_, rebuilds, succeeds, opened, and_self,
        if_true] at stepTo
      cases stepTo
      apply inv.byWorker idle (by simp) launched.tunFd _ (by simp) inv.bounded
      · exact fun same => otherOld (same.trans adopted)
      · rintro _ ⟨⟩
        exact launched.changes target (by simp [rebuilds, Native.engine])
  | closeOld old =>
      rw [at_] at up
      have notRebuilding (engine : Engine) (rebuilds : service.native = .rebuilding engine) :
          ∃ old, WorkerPc.poll = .rebuilding old := by
        obtain ⟨old, rebuilding⟩ := inv.rebuilding engine rebuilds
        rw [at_] at rebuilding
        cases rebuilding
      simp only [VpnService.workerStep, at_] at stepTo
      cases stepTo
      cases old with
      | none =>
          exact inv.byWorker idle running launched.tunFd launched.changes notRebuilding
            inv.bounded trivial
      | some old =>
          have kept : tun ∈ service.openFds.filter (· ≠ old) := by
            have other : tun ≠ old := by
              rintro rfl
              exact up tunFd.symm
            simp [isOpen, other]
          exact inv.byWorker idle running ⟨tun, kept, tunFd⟩ launched.changes notRebuilding
            (fun fd kept => inv.bounded fd (List.mem_of_mem_filter kept)) trivial
  | died =>
      rw [at_] at up
      exact up.elim

/-- The connect thread is the only one, and still wanted. -/
theorem connecting (inv : Upright service) {attempt : Nat}
    (busy : service.connect attempt ≠ .idle) :
    attempt = 1 ∧ service.connect 1 ≠ .idle ∧ service.stillWanted 1 := by
  obtain ⟨rfl, counter, active⟩ := inv.only attempt busy
  exact ⟨rfl, busy, active, counter⟩

theorem only_update (inv : Upright service) (busy : service.connect 1 ≠ .idle)
    (pc : ConnectPc) (attempt : Nat)
    (running : Function.update service.connect 1 pc attempt ≠ .idle) :
    attempt = 1 ∧ service.connectAttempt = 1 ∧ service.tunnelActive = true := by
  by_cases own : attempt = 1
  · exact ⟨own, (inv.only 1 busy).2⟩
  · rw [Function.update_of_ne own] at running
    exact inv.only attempt running

/-- The connect thread goes on towards the first start of the engine. -/
theorem beforeStart (inv : Upright service) (busy : service.connect 1 ≠ .idle)
    (down : service.native = .down) {pc : ConnectPc} {meshAddress : Bool}
    {openFds : List Nat} {nextFd : Nat} {tunFd : Option Nat}
    (moved : ConnectUp { service with
      meshAddress := meshAddress, openFds := openFds, nextFd := nextFd, tunFd := tunFd } pc)
    (bounded : ∀ fd ∈ openFds, fd < nextFd) :
    Upright { service with
      connect := Function.update service.connect 1 pc, meshAddress := meshAddress
      openFds := openFds, nextFd := nextFd, tunFd := tunFd } := by
  have unasked := inv.unasked down
  constructor
  case stopping => exact inv.stopping
  case disconnect => exact inv.disconnect
  case main => exact inv.main.congr id rfl rfl rfl
  case connect =>
    simp only [Function.update_self]
    cases pc <;> exact moved
  case worker =>
    simp only [unasked.worker]
    trivial
  case only => exact inv.only_update busy pc
  case attempts => exact inv.attempts
  case unset =>
    intro none
    simp [(inv.only 1 busy).2.1] at none
  case unasked =>
    exact fun _ => ⟨unasked.worker, unasked.monitoring, unasked.rebindRequested, unasked.callers⟩
  case launched => exact fun running => absurd down running
  case rebuilding =>
    intro engine rebuilds
    cases down.symm.trans rebuilds
  case bounded => exact bounded

/-- With the engine up, requests and claims change little. -/
theorem afterStart (inv : Upright service) (running : service.native ≠ .down)
    {main : MainPc} {connect : Nat → ConnectPc} {worker : WorkerPc}
    {rebindAfterConnect rebindRequested monitoring : Bool}
    {requesting rereading reclaiming changes : Nat} {lastCommand : Command}
    (claimed : Claimed service.worker worker) (counted : service.changes ≤ changes)
    (mainUp : MainUp { service with changes := changes } main)
    (connectUp : ConnectUp service (connect 1))
    (only : ∀ attempt, connect attempt ≠ .idle → attempt = 1) :
    Upright { service with
      main := main, connect := connect, worker := worker
      rebindAfterConnect := rebindAfterConnect, rebindRequested := rebindRequested
      monitoring := monitoring, requesting := requesting, rereading := rereading
      reclaiming := reclaiming, changes := changes, lastCommand := lastCommand } := by
  have launched := inv.launched running
  constructor
  case stopping => exact inv.stopping
  case disconnect => exact inv.disconnect
  case main => exact mainUp.congr id rfl rfl rfl
  case connect => exact connectUp.launched running running
  case worker =>
    rcases claimed with rfl | ⟨_, rfl⟩
    · exact inv.worker.congr rfl counted rfl rfl
    · trivial
  case only =>
    exact fun attempt busy => ⟨only attempt busy, launched.connectAttempt, launched.tunnelActive⟩
  case attempts => exact .inr ⟨launched.tunnelActive, .inl launched.connectAttempt⟩
  case unset => exact inv.unset
  case unasked => exact fun down => absurd down running
  case launched =>
    exact fun _ => ⟨launched.tunnelActive, launched.connectAttempt, launched.meshAddress,
      launched.tunFd, fun engine up => Nat.le_trans (launched.changes engine up) counted⟩
  case rebuilding =>
    intro engine rebuilds
    obtain ⟨old, rebuilding⟩ := inv.rebuilding engine rebuilds
    rcases claimed with rfl | ⟨free, _⟩
    · exact ⟨old, rebuilding⟩
    · rw [free] at rebuilding
      cases rebuilding
  case bounded => exact inv.bounded

/-- The engine comes up on the descriptor just adopted. -/
theorem start (inv : Upright service) {config : Config} {pfd : Nat}
    (busy : service.connect 1 ≠ .idle) (at_ : ConnectUp service (.start config pfd)) :
    Upright { service with
      native := .up ⟨pfd, config, 1⟩
      connect := Function.update service.connect 1 (.started pfd) } := by
  obtain ⟨down, adopted, current, addressed, opened⟩ := at_
  obtain ⟨_, _, active, counter⟩ := inv.connecting busy
  have running : Native.up ⟨pfd, config, 1⟩ ≠ .down := by simp
  constructor
  case stopping => exact inv.stopping
  case disconnect => exact inv.disconnect
  case main => exact inv.main.congr (fun _ => running) rfl rfl rfl
  case connect =>
    simp only [Function.update_self]
    exact running
  case worker =>
    simp only [(inv.unasked down).worker]
    trivial
  case only => exact inv.only_update busy _
  case attempts => exact inv.attempts
  case unset => exact inv.unset
  case unasked => exact fun down => absurd down running
  case launched =>
    refine fun _ => ⟨active, counter, addressed, ⟨pfd, opened, adopted⟩, ?_⟩
    rintro _ ⟨⟩
    exact current
  case rebuilding => rintro _ ⟨⟩
  case bounded => exact inv.bounded

theorem connectStep (inv : Upright service) {next : Service} {attempt : Nat}
    {input : Input} (succeeds : input.ok = true)
    (stepTo : VpnService.connectStep service attempt input = some next) : Upright next := by
  by_cases idle : service.connect attempt = .idle
  · simp [VpnService.connectStep, idle] at stepTo
  obtain ⟨rfl, busy, wanted⟩ := inv.connecting idle
  have up := inv.connect
  -- What the steps after the start have in common.
  have after (running : service.native ≠ .down) (pc : ConnectPc)
      (up : ConnectUp service pc) : ConnectUp service (Function.update service.connect 1 pc 1) ∧
      ∀ attempt, Function.update service.connect 1 pc attempt ≠ .idle → attempt = 1 := by
    refine ⟨by rwa [Function.update_self], fun attempt busy' => ?_⟩
    exact (inv.only_update busy pc attempt busy').1
  cases at_ : service.connect 1 with
  | idle => exact absurd at_ busy
  | enter config =>
      rw [at_] at up
      simp only [VpnService.connectStep, at_, up.1, Native.isRunning] at stepTo
      cases stepTo
      exact inv.beforeStart busy up.1 up inv.bounded
  | address config =>
      rw [at_] at up
      simp only [VpnService.connectStep, at_] at stepTo
      cases stepTo
      refine inv.beforeStart busy up.1 ?_ inv.bounded
      exact ⟨up.1, up.2.1, up.2.2, rfl⟩
  | establish config =>
      rw [at_] at up
      obtain ⟨down, unset, current, addressed⟩ := up
      simp only [VpnService.connectStep, at_, succeeds, if_true] at stepTo
      cases stepTo
      apply inv.beforeStart busy down
      · exact ⟨down, unset, current, addressed, List.mem_cons_self ..⟩
      · intro fd established
        rcases List.mem_cons.mp established with rfl | earlier
        · exact Nat.lt_succ_self _
        · exact Nat.lt_succ_of_lt (inv.bounded fd earlier)
  | check config pfd =>
      rw [at_] at up
      have moved : ConnectUp service (.replace config pfd) := up
      simp only [VpnService.connectStep, at_] at stepTo
      rw [if_pos wanted] at stepTo
      cases stepTo
      exact inv.beforeStart busy up.1 moved inv.bounded
  | replace config pfd =>
      rw [at_] at up
      have moved : ConnectUp service (.adopt config pfd) := up
      simp only [VpnService.connectStep, at_] at stepTo
      split at stepTo
      next =>
        cases stepTo
        exact inv.beforeStart busy up.1 moved inv.bounded
      next old set =>
        rw [up.2.1] at set
        cases set
  | adopt config pfd =>
      rw [at_] at up
      obtain ⟨down, _, current, addressed, opened⟩ := up
      simp only [VpnService.connectStep, at_] at stepTo
      cases stepTo
      refine inv.beforeStart busy down ?_ inv.bounded
      exact ⟨down, rfl, current, addressed, opened⟩
  | start config pfd =>
      rw [at_] at up
      have opened : ¬ pfd ∉ service.openFds := not_not_intro up.2.2.2.2
      simp only [VpnService.connectStep, at_] at stepTo
      rw [if_neg opened] at stepTo
      simp only [up.1, succeeds, if_true] at stepTo
      cases stepTo
      exact inv.start busy up
  | started pfd =>
      rw [at_] at up
      have running : service.native ≠ .down := up
      simp only [VpnService.connectStep, at_] at stepTo
      rw [if_pos wanted] at stepTo
      cases stepTo
      obtain ⟨connectUp, only⟩ := after running .register running
      exact inv.afterStart running (.inl rfl) (Nat.le_refl _) inv.main connectUp only
  | register =>
      rw [at_] at up
      have running : service.native ≠ .down := up
      simp only [VpnService.connectStep, at_] at stepTo
      cases stepTo
      obtain ⟨connectUp, only⟩ := after running .consume running
      exact inv.afterStart running (.inl rfl) (Nat.le_refl _) inv.main connectUp only
  | consume =>
      rw [at_] at up
      have running : service.native ≠ .down := up
      simp only [VpnService.connectStep, at_] at stepTo
      cases stepTo
      have moved : ConnectUp service
          (if service.rebindAfterConnect then .requestSet else .idle) := by
        split
        · exact running
        · exact fun _ => running
      obtain ⟨connectUp, only⟩ := after running _ moved
      exact inv.afterStart running (.inl rfl) (Nat.le_refl _) inv.main connectUp only
  | requestSet =>
      rw [at_] at up
      have running : service.native ≠ .down := up
      simp only [VpnService.connectStep, at_] at stepTo
      cases stepTo
      obtain ⟨connectUp, only⟩ := after running .requestClaim running
      exact inv.afterStart running (.inl rfl) (Nat.le_refl _) inv.main connectUp only
  | requestClaim =>
      rw [at_] at up
      have running : service.native ≠ .down := up
      obtain ⟨worker, claimed, _, eq⟩ := claimWorker_claims service
      simp only [VpnService.connectStep, at_, eq] at stepTo
      cases stepTo
      obtain ⟨connectUp, only⟩ := after running .idle (fun _ => running)
      exact inv.afterStart running claimed (Nat.le_refl _) inv.main connectUp only
  | _ =>
      rw [at_] at up
      exact up.elim

/-- The main looper goes on outside `beginConnect`. -/
theorem looper (inv : Upright service) {main : MainPc} {worker : WorkerPc}
    {rebindAfterConnect rebindRequested : Bool} {changes : Nat} {lastCommand : Command}
    (leaves : ∀ config, service.main ≠ .beginRebind config ∧ service.main ≠ .beginAttempt config)
    (mainUp : MainUp { service with changes := changes } main)
    (counted : service.changes ≤ changes)
    (asks : worker = service.worker ∧ rebindRequested = service.rebindRequested ∨
      service.native ≠ .down ∧ Claimed service.worker worker) :
    Upright { service with
      main := main, worker := worker, rebindAfterConnect := rebindAfterConnect
      rebindRequested := rebindRequested, changes := changes, lastCommand := lastCommand } := by
  by_cases down : service.native = .down
  · obtain ⟨rfl, rfl⟩ := asks.resolve_right (fun claims => claims.1 down)
    have unasked := inv.unasked down
    constructor
    case stopping => exact inv.stopping
    case disconnect => exact inv.disconnect
    case main => exact mainUp.congr id rfl rfl rfl
    case connect =>
      have up := inv.connect
      cases at_ : service.connect 1 with
      | enter config =>
          rw [at_] at up
          exact ⟨up.1, up.2.1, Nat.le_trans up.2.2 counted⟩
      | address config =>
          rw [at_] at up
          exact ⟨up.1, up.2.1, Nat.le_trans up.2.2 counted⟩
      | establish config =>
          rw [at_] at up
          exact ⟨up.1, up.2.1, Nat.le_trans up.2.2.1 counted, up.2.2.2⟩
      | check config pfd =>
          rw [at_] at up
          exact ⟨up.1, up.2.1, Nat.le_trans up.2.2.1 counted, up.2.2.2⟩
      | replace config pfd =>
          rw [at_] at up
          exact ⟨up.1, up.2.1, Nat.le_trans up.2.2.1 counted, up.2.2.2⟩
      | adopt config pfd =>
          rw [at_] at up
          exact ⟨up.1, up.2.1, Nat.le_trans up.2.2.1 counted, up.2.2.2⟩
      | start config pfd =>
          rw [at_] at up
          exact ⟨up.1, up.2.1, Nat.le_trans up.2.2.1 counted, up.2.2.2⟩
      | _ =>
          rw [at_] at up
          exact up
    case worker =>
      simp only [unasked.worker]
      trivial
    case only => exact inv.only
    case attempts =>
      rcases inv.attempts with inactive | ⟨active, counter | ⟨config, begins⟩⟩
      · exact .inl inactive
      · exact .inr ⟨active, .inl counter⟩
      · rcases begins with begins | begins
        · exact absurd begins (leaves config).1
        · exact absurd begins (leaves config).2
    case unset => exact inv.unset
    case unasked =>
      exact fun _ => ⟨unasked.worker, unasked.monitoring, unasked.rebindRequested,
        unasked.callers⟩
    case launched => exact fun running => absurd down running
    case rebuilding =>
      intro engine rebuilds
      cases down.symm.trans rebuilds
    case bounded => exact inv.bounded
  · have claimed : Claimed service.worker worker := by
      rcases asks with ⟨same, _⟩ | ⟨_, claimed⟩
      · exact .inl same
      · exact claimed
    exact inv.afterStart down claimed counted mainUp inv.connect
      (fun attempt busy => (inv.only attempt busy).1)

/-- Before the first attempt no engine runs. -/
theorem down_of_first (inv : Upright service) (first : service.connectAttempt = 0) :
    service.native = .down := by
  by_contra running
  have launched := inv.launched running
  rw [launched.connectAttempt] at first
  cases first

/-- `beginConnect`, with nothing up yet. -/
theorem begins (inv : Upright service) {main : MainPc} {config : Config}
    {tunnelActive rebindAfterConnect : Bool} (first : service.connectAttempt = 0)
    (active : tunnelActive = true) (current : config.changes = service.changes)
    (begun : main = .beginRebind config ∨ main = .beginAttempt config) :
    Upright { service with
      main := main, tunnelActive := tunnelActive, rebindAfterConnect := rebindAfterConnect } := by
  have down := inv.down_of_first first
  have unasked := inv.unasked down
  constructor
  case stopping => exact inv.stopping
  case disconnect => exact inv.disconnect
  case main =>
    rcases begun with rfl | rfl
    · exact ⟨active, first, current⟩
    · exact ⟨active, first, current⟩
  case connect =>
    have idle : service.connect 1 = .idle := by
      by_contra busy
      have := (inv.only 1 busy).2.1
      omega
    simp only [idle]
    intro one
    simp only [first] at one
    cases one
  case worker =>
    simp only [unasked.worker]
    trivial
  case only =>
    intro attempt busy
    have := (inv.only attempt busy).2.1
    omega
  case attempts => exact .inr ⟨active, .inr ⟨config, begun⟩⟩
  case unset => exact inv.unset
  case unasked =>
    exact fun _ => ⟨unasked.worker, unasked.monitoring, unasked.rebindRequested,
      unasked.callers⟩
  case launched => exact fun running => absurd down running
  case rebuilding =>
    intro engine rebuilds
    cases down.symm.trans rebuilds
  case bounded => exact inv.bounded

/-- The first attempt gets its thread. -/
theorem beginAttempt (inv : Upright service) {config : Config}
    (at_ : service.main = .beginAttempt config) {next : Service} {input : Input}
    (stepTo : mainStep service input = some next) : Upright next := by
  have up := inv.main
  rw [at_] at up
  obtain ⟨active, first, current⟩ := up
  have down := inv.down_of_first first
  have unasked := inv.unasked down
  simp only [mainStep, at_, Option.some.injEq] at stepTo
  subst stepTo
  simp only [first, Nat.zero_add]
  constructor
  case stopping => exact inv.stopping
  case disconnect => exact inv.disconnect
  case main => trivial
  case connect =>
    simp only [Function.update_self]
    exact ⟨down, inv.unset first, Nat.le_of_eq current⟩
  case worker =>
    simp only [unasked.worker]
    trivial
  case only =>
    intro attempt busy
    by_cases own : attempt = 1
    · exact ⟨own, rfl, active⟩
    · simp only [Function.update_of_ne own] at busy
      have := (inv.only attempt busy).2.1
      omega
  case attempts => exact .inr ⟨active, .inl rfl⟩
  case unset => exact fun _ => inv.unset first
  case unasked =>
    exact fun _ => ⟨unasked.worker, unasked.monitoring, unasked.rebindRequested,
      unasked.callers⟩
  case launched => exact fun running => absurd down running
  case rebuilding =>
    intro engine rebuilds
    cases down.symm.trans rebuilds
  case bounded => exact inv.bounded

theorem mainStep (inv : Upright service) {next : Service} {input : Input}
    (stepTo : VpnService.mainStep service input = some next) : Upright next := by
  have up := inv.main
  cases at_ : service.main with
  | idle => simp [VpnService.mainStep, at_] at stepTo
  | beginAttempt config => exact inv.beginAttempt at_ stepTo
  | beginActive config =>
      rw [at_] at up
      obtain ⟨_, first, current⟩ := up
      simp only [VpnService.mainStep, at_] at stepTo
      cases stepTo
      exact inv.begins first rfl current (.inl rfl)
  | beginRebind config =>
      rw [at_] at up
      obtain ⟨active, first, current⟩ := up
      simp only [VpnService.mainStep, at_] at stepTo
      cases stepTo
      exact inv.begins first active current (.inr rfl)
  | configActive =>
      simp only [VpnService.mainStep, at_] at stepTo
      split at stepTo
      all_goals
        cases stepTo
        exact inv.looper (by simp [at_]) trivial (Nat.le_refl _) (.inl ⟨rfl, rfl⟩)
  | configFd =>
      simp only [VpnService.mainStep, at_] at stepTo
      split at stepTo
      all_goals
        cases stepTo
        exact inv.looper (by simp [at_]) trivial (Nat.le_refl _) (.inl ⟨rfl, rfl⟩)
  | configRunning =>
      simp only [VpnService.mainStep, at_] at stepTo
      split at stepTo
      next isRunning =>
        have running : service.native ≠ .down := by
          rintro down
          rw [down] at isRunning
          cases isRunning
        have requests : MainUp service .configRequest := running
        cases stepTo
        exact inv.looper (by simp [at_]) requests (Nat.le_refl _) (.inl ⟨rfl, rfl⟩)
      next =>
        cases stepTo
        exact inv.looper (by simp [at_]) trivial (Nat.le_refl _) (.inl ⟨rfl, rfl⟩)
  | configDefer =>
      simp only [VpnService.mainStep, at_] at stepTo
      cases stepTo
      exact inv.looper (by simp [at_]) trivial (Nat.le_refl _) (.inl ⟨rfl, rfl⟩)
  | configRequest =>
      rw [at_] at up
      have claims : MainUp service .configClaim := up
      simp only [VpnService.mainStep, at_] at stepTo
      cases stepTo
      exact inv.looper (by simp [at_]) claims (Nat.le_refl _) (.inr ⟨up, .inl rfl⟩)
  | configClaim =>
      rw [at_] at up
      obtain ⟨worker, claimed, _, eq⟩ := claimWorker_claims service
      simp only [VpnService.mainStep, at_, eq] at stepTo
      cases stepTo
      exact inv.looper (by simp [at_]) trivial (Nat.le_refl _) (.inr ⟨up, claimed⟩)
  | connectIdentity =>
      simp only [VpnService.mainStep, at_] at stepTo
      split at stepTo
      all_goals
        cases stepTo
        exact inv.looper (by simp [at_]) trivial (Nat.le_refl _) (.inl ⟨rfl, rfl⟩)
  | connectActive =>
      simp only [VpnService.mainStep, at_] at stepTo
      split at stepTo
      next =>
        cases stepTo
        exact inv.looper (by simp [at_]) trivial (Nat.le_refl _) (.inl ⟨rfl, rfl⟩)
      next notActive =>
        have moved : MainUp service .connectStopping :=
          inv.attempts.resolve_right (fun active => notActive active.1)
        cases stepTo
        exact inv.looper (by simp [at_]) moved (Nat.le_refl _) (.inl ⟨rfl, rfl⟩)
  | connectStopping =>
      rw [at_] at up
      have moved : MainUp service .beginBuild := up
      simp only [VpnService.mainStep, at_] at stepTo
      split at stepTo
      next stopping =>
        rw [inv.stopping] at stopping
        cases stopping
      next =>
        cases stepTo
        exact inv.looper (by simp [at_]) moved (Nat.le_refl _) (.inl ⟨rfl, rfl⟩)
  | beginBuild =>
      rw [at_] at up
      simp only [VpnService.mainStep, at_] at stepTo
      split at stepTo
      next => cases stepTo
      next json built =>
        have moved : MainUp service (.beginActive ⟨json, service.changes⟩) := ⟨up.1, up.2, rfl⟩
        cases stepTo
        exact inv.looper (by simp [at_]) moved (Nat.le_refl _) (.inl ⟨rfl, rfl⟩)
  | _ =>
      rw [at_] at up
      exact up.elim

/-- Every step without a disconnect or a failing call. -/
theorem step (inv : Upright service) {next : Service} {move : Move}
    (undisturbed : Undisturbed service move)
    (stepTo : VpnService.step service move = some next) : Upright next := by
  cases move with
  | main input => exact inv.mainStep stepTo
  | connect attempt input => exact inv.connectStep undisturbed stepTo
  | worker input => exact inv.workerStep undisturbed.1 undisturbed.2 stepTo
  | disconnect =>
      simp [VpnService.step, disconnectStep, inv.disconnect.1] at stepTo
  | finishShutdown => simp [VpnService.step, inv.disconnect.2] at stepTo
  | command command =>
      simp only [VpnService.step] at stepTo
      split at stepTo
      next idle =>
        cases stepTo
        cases command with
        | disconnect => exact absurd rfl undisturbed
        | connect =>
            exact inv.looper (by simp [idle]) trivial (Nat.le_refl _) (.inl ⟨rfl, rfl⟩)
        | configChanged =>
            exact inv.looper (by simp [idle]) trivial (Nat.le_succ _) (.inl ⟨rfl, rfl⟩)
      next => cases stepTo
  | request =>
      simp only [VpnService.step] at stepTo
      split at stepTo
      next monitoring =>
        have running : service.native ≠ .down := by
          intro down
          rw [(inv.unasked down).monitoring] at monitoring
          cases monitoring
        cases stepTo
        exact inv.afterStart running (.inl rfl) (Nat.le_refl _) inv.main inv.connect
          (fun attempt busy => (inv.only attempt busy).1)
      next => cases stepTo
  | requestClaim =>
      obtain ⟨worker, claimed, _, eq⟩ := claimWorker_claims service
      simp only [VpnService.step, eq] at stepTo
      split at stepTo
      next pending =>
        have running : service.native ≠ .down := by
          intro down
          have := (inv.unasked down).callers.1
          omega
        cases stepTo
        exact inv.afterStart running claimed (Nat.le_refl _) inv.main inv.connect
          (fun attempt busy => (inv.only attempt busy).1)
      next => cases stepTo
  | reread =>
      simp only [VpnService.step] at stepTo
      split at stepTo
      next pending =>
        have running : service.native ≠ .down := by
          intro down
          have := (inv.unasked down).callers.2.1
          omega
        cases stepTo
        exact inv.afterStart running (.inl rfl) (Nat.le_refl _) inv.main inv.connect
          (fun attempt busy => (inv.only attempt busy).1)
      next => cases stepTo
  | reclaim =>
      obtain ⟨worker, claimed, _, eq⟩ := claimWorker_claims service
      simp only [VpnService.step, eq] at stepTo
      split at stepTo
      next pending =>
        have running : service.native ≠ .down := by
          intro down
          have := (inv.unasked down).callers.2.2
          omega
        cases stepTo
        exact inv.afterStart running claimed (Nat.le_refl _) inv.main inv.connect
          (fun attempt busy => (inv.only attempt busy).1)
      next => cases stepTo

theorem initial : Upright initial where
  stopping := rfl
  disconnect := ⟨rfl, rfl⟩
  main := trivial
  connect := fun one => by cases one
  worker := trivial
  only := fun _ busy => absurd rfl busy
  attempts := .inl ⟨rfl, rfl⟩
  unset := fun _ => rfl
  unasked := fun _ => ⟨rfl, rfl, rfl, rfl, rfl, rfl⟩
  launched := fun running => absurd rfl running
  rebuilding := fun _ rebuilds => by cases rebuilds
  bounded := fun _ opened => by cases opened

end Upright

/-- No settings change is lost on the way. -/
structure Owing (service : Service) : Prop where
  owed : service.tunnelActive = true → service.main.handles = true ∨ service.Served
  wake : service.rebindRequested = true → service.Roused

theorem Claimed.config {before after : WorkerPc} (claimed : Claimed before after) :
    after.config = before.config ∧ after.builds = before.builds := by
  rcases claimed with rfl | ⟨rfl, rfl⟩
  · exact ⟨rfl, rfl⟩
  · exact ⟨rfl, rfl⟩

namespace Service.Served

variable {service next : Service}

theorem ofEngine (current : service.native.engine.map (·.config.changes) =
    some service.changes) : service.Served := .inl current

theorem ofConnect (current :
    (service.connect service.connectAttempt).config.map (·.changes) =
      some service.changes) : service.Served := .inr (.inl current)

theorem ofPass (current : service.worker.config.map (·.changes) = some service.changes) :
    service.Served := .inr (.inr (.inl current))

theorem ofDeferred (deferred : service.rebindAfterConnect = true)
    (consumes : (service.connect service.connectAttempt).consumes = true) :
    service.Served := .inr (.inr (.inr (.inl ⟨deferred, consumes⟩)))

theorem ofConsumed (consumed : service.connect service.connectAttempt = .requestSet) :
    service.Served := .inr (.inr (.inr (.inr (.inl consumed))))

theorem ofRequest (requested : service.rebindRequested = true) : service.Served :=
  .inr (.inr (.inr (.inr (.inr (.inl requested)))))

theorem ofBuild (builds : service.worker.builds = true) : service.Served :=
  .inr (.inr (.inr (.inr (.inr (.inr builds)))))

/-- What the worker has to hand on when it moves. -/
theorem byWorker (served : service.Served) (threads : next.connect = service.connect)
    (counter : next.connectAttempt = service.connectAttempt)
    (deferral : next.rebindAfterConnect = service.rebindAfterConnect)
    (changes : next.changes = service.changes)
    (engine : service.native.engine.map (·.config.changes) = some service.changes →
      next.Served)
    (pass : service.worker.config.map (·.changes) = some service.changes → next.Served)
    (request : service.rebindRequested = true → next.Served)
    (build : service.worker.builds = true → next.Served) : next.Served := by
  rcases served with current | current | current | ⟨deferred, consumes⟩ | consumed |
    requested | builds
  · exact engine current
  · apply ofConnect
    rw [threads, counter, changes]
    exact current
  · exact pass current
  · apply ofDeferred
    · exact deferral.trans deferred
    · rw [threads, counter]
      exact consumes
  · apply ofConsumed
    rw [threads, counter]
    exact consumed
  · exact request requested
  · exact build builds

end Service.Served

namespace Owing

variable {service next : Service}

/-- The worker moves on with the config it has. -/
theorem workerTo (owing : Owing service) {worker : WorkerPc} {tunFd : Option Nat}
    {openFds : List Nat} {nextFd : Nat}
    (config : worker.config = service.worker.config)
    (builds : service.worker.builds = true → worker.builds = true)
    (busy : worker ≠ .none) :
    Owing { service with
      worker := worker, tunFd := tunFd, openFds := openFds, nextFd := nextFd } where
  owed := by
    intro active
    refine (owing.owed active).imp_right fun served => ?_
    refine served.byWorker rfl rfl rfl rfl ?_ ?_ ?_ ?_
    · exact fun engines => .ofEngine engines
    · intro current
      exact .ofPass (config ▸ current)
    · exact fun requested => .ofRequest requested
    · exact fun building => .ofBuild (builds building)
  wake := fun _ => .inl busy

/-- `network_changed` hands the config over, or has done so before. -/
theorem handOver (owing : Owing service) (inv : Upright service) {config : Option Config}
    {fd : Nat} {old : Option Nat} (at_ : service.worker = .notify config fd old)
    {input : Input} (stepTo : workerStep service input = some next) : Owing next := by
  have moved := inv.worker
  rw [at_] at moved
  obtain ⟨⟨built, rfl, bounded, newer⟩, _⟩ := moved
  have noBuild : service.worker.builds = false := by rw [at_]; rfl
  cases running : service.native with
  | down => exact absurd running (inv.launched_of_worker (by simp [at_]))
  | rebuilding engine => simp [workerStep, at_, running] at stepTo
  | up engine =>
      -- A current config in the engine or in the pass makes the new one current.
      have current (stale : service.native.engine.map (·.config.changes) = some service.changes ∨
          service.worker.config.map (·.changes) = some service.changes) :
          built.changes = service.changes := by
        rcases stale with engines | own
        · have := newer engine (by rw [running]; rfl)
          simp only [running, Native.engine, Option.map_some, Option.some.injEq] at engines
          omega
        · simpa [at_, WorkerPc.config] using own
      simp only [workerStep, at_, running, Option.getD_some] at stepTo
      split at stepTo
      all_goals
        cases stepTo
        constructor
        case wake => exact fun _ => .inl (by simp)
        case owed =>
          intro active
          refine (owing.owed active).imp_right fun served => ?_
          refine served.byWorker rfl rfl rfl rfl ?_ ?_ ?_ ?_
          · exact fun engines => .ofEngine (by simp [Native.engine, current (.inl engines)])
          · exact fun own => .ofEngine (by simp [Native.engine, current (.inr own)])
          · exact fun requested => .ofRequest requested
          · intro building
            rw [noBuild] at building
            cases building

theorem workerStep (owing : Owing service) (inv : Upright service) {input : Input}
    (succeeds : input.ok = true) (built : input.json ≠ none)
    (stepTo : VpnService.workerStep service input = some next) : Owing next := by
  by_cases idle : service.worker = .none
  · simp [VpnService.workerStep, idle] at stepTo
  have launched := inv.launched (inv.launched_of_worker idle)
  obtain ⟨tun, isOpen, tunFd⟩ := launched.tunFd
  have up := inv.worker
  cases at_ : service.worker with
  | none => exact absurd at_ idle
  | poll | decide config | readOld config fresh | adopt config fresh old =>
      simp only [VpnService.workerStep, at_] at stepTo
      repeat' split at stepTo
      all_goals
        cases stepTo
        exact owing.workerTo (by rw [at_]; rfl) (by simp [at_, WorkerPc.builds]) (by simp)
  | settle =>
      simp only [VpnService.workerStep, at_] at stepTo
      cases stepTo
      exact ⟨fun _ => .inr (.ofBuild rfl), fun _ => .inl (by simp)⟩
  | active =>
      simp only [VpnService.workerStep, at_] at stepTo
      rw [if_pos launched.tunnelActive] at stepTo
      cases stepTo
      exact owing.workerTo (by rw [at_]; rfl) (fun _ => rfl) (by simp)
  | build =>
      obtain ⟨json, given⟩ := Option.ne_none_iff_exists'.mp built
      simp only [VpnService.workerStep, at_, given, Option.map_some] at stepTo
      cases stepTo
      exact ⟨fun _ => .inr (.ofPass rfl), fun _ => .inl (by simp)⟩
  | establish config =>
      simp only [VpnService.workerStep, at_] at stepTo
      rw [if_pos ⟨launched.meshAddress, succeeds⟩] at stepTo
      cases stepTo
      exact owing.workerTo (by rw [at_]; rfl) (by simp [at_, WorkerPc.builds]) (by simp)
  | recheck config fresh =>
      simp only [VpnService.workerStep, at_] at stepTo
      rw [if_pos launched.tunnelActive] at stepTo
      cases stepTo
      exact owing.workerTo (by rw [at_]; rfl) (by simp [at_, WorkerPc.builds]) (by simp)
  | readFd config =>
      simp only [VpnService.workerStep, at_] at stepTo
      split at stepTo
      next unset =>
        rw [tunFd] at unset
        cases unset
      next =>
        cases stepTo
        exact owing.workerTo (by rw [at_]; rfl) (by simp [at_, WorkerPc.builds]) (by simp)
  | handle config fd old =>
      rw [at_] at up
      have opened : fd ∈ service.openFds := by
        cases tunFd.symm.trans up.2.1
        exact isOpen
      simp only [VpnService.workerStep, at_] at stepTo
      rw [if_pos opened] at stepTo
      cases stepTo
      exact owing.workerTo (by rw [at_]; rfl) (by simp [at_, WorkerPc.builds]) (by simp)
  | notify config fd old => exact owing.handOver inv at_ stepTo
  | rebuilding old =>
      rw [at_] at up
      obtain ⟨target, rebuilds, adopted, _⟩ := up
      have opened : target.tun ∈ service.openFds := by
        cases tunFd.symm.trans adopted
        exact isOpen
      simp only [VpnService.workerStep, at_, rebuilds] at stepTo
      rw [if_pos ⟨succeeds, opened⟩] at stepTo
      cases stepTo
      constructor
      case wake => exact fun _ => .inl (by simp)
      case owed =>
        intro active
        refine (owing.owed active).imp_right fun served => ?_
        refine served.byWorker rfl rfl rfl rfl ?_ ?_ ?_ ?_
        · exact fun engines => .ofEngine (by simpa [rebuilds, Native.engine] using engines)
        · simp [at_, WorkerPc.config]
        · exact fun requested => .ofRequest requested
        · simp [at_, WorkerPc.builds]
  | closeOld old =>
      obtain ⟨openFds, closed⟩ := closeOpt_eq service old
      simp only [VpnService.workerStep, at_, closed] at stepTo
      cases stepTo
      exact owing.workerTo (by rw [at_]; rfl) (by simp [at_, WorkerPc.builds]) (by simp)
  | release =>
      simp only [VpnService.workerStep, at_] at stepTo
      cases stepTo
      constructor
      case wake => exact fun _ => .inr (.inr (.inr (.inr (.inl (Nat.succ_pos _)))))
      case owed =>
        intro active
        refine (owing.owed active).imp_right fun served => ?_
        refine served.byWorker rfl rfl rfl rfl ?_ ?_ ?_ ?_
        · exact fun engines => .ofEngine engines
        · simp [at_, WorkerPc.config]
        · exact fun requested => .ofRequest requested
        · simp [at_, WorkerPc.builds]
  | _ =>
      rw [at_] at up
      exact up.elim

/-- A thread other than the worker moves and hands on what it held. -/
theorem byOther (owing : Owing service) (active : service.tunnelActive = true)
    (main : service.main.handles = true → next.main.handles = true ∨ next.Served)
    (native : next.native = service.native)
    (claimed : Claimed service.worker next.worker)
    (requested : service.rebindRequested = true → next.rebindRequested = true)
    (changes : next.changes = service.changes)
    (holds : (service.connect service.connectAttempt).config.map (·.changes) =
        some service.changes → next.Served)
    (deferral : service.rebindAfterConnect = true →
      (service.connect service.connectAttempt).consumes = true → next.Served)
    (consumed : service.connect service.connectAttempt = .requestSet → next.Served)
    (wake : next.rebindRequested = true → next.Roused) : Owing next where
  wake := wake
  owed := by
    intro _
    rcases owing.owed active with handles | served
    · exact main handles
    right
    rcases served with current | current | current | ⟨deferred, consumes⟩ | held | asked | builds
    · exact .ofEngine (by rw [native, changes]; exact current)
    · exact holds current
    · exact .ofPass (by rw [claimed.config.1, changes]; exact current)
    · exact deferral deferred consumes
    · exact consumed held
    · exact .ofRequest (requested asked)
    · exact .ofBuild (claimed.config.2.trans builds)

/-- The request stays with whoever was to see it. -/
theorem stays (owing : Owing service) (worker : next.worker = service.worker)
    (main : next.main = service.main ∨ service.main ≠ .configClaim)
    (connect : service.connect 1 = .requestClaim → next.connect 1 = .requestClaim)
    (callers : next.requesting = service.requesting ∧ next.rereading = service.rereading ∧
      next.reclaiming = service.reclaiming)
    (asked : next.rebindRequested = service.rebindRequested)
    (requested : next.rebindRequested = true) : next.Roused := by
  obtain ⟨requesting, rereading, reclaiming⟩ := callers
  unfold Service.Roused
  rw [worker, requesting, rereading, reclaiming]
  rcases owing.wake (asked ▸ requested) with busy | claims | claims | callers
  · exact .inl busy
  · rcases main with same | other
    · exact .inr (.inl (same.trans claims))
    · exact absurd claims other
  · exact .inr (.inr (.inl (connect claims)))
  · exact .inr (.inr (.inr callers))

/-- The connect thread goes on with the config it has and its deferral to
look at. -/
theorem connectTo (owing : Owing service) (wanted : service.stillWanted 1) {pc : ConnectPc}
    {tunFd : Option Nat} {meshAddress monitoring : Bool} {openFds : List Nat} {nextFd : Nat}
    (config : (service.connect 1).config = pc.config)
    (consumes : (service.connect 1).consumes = pc.consumes)
    (leaves : service.connect 1 ≠ .requestSet ∧ service.connect 1 ≠ .requestClaim) :
    Owing { service with
      connect := Function.update service.connect 1 pc, tunFd := tunFd
      meshAddress := meshAddress, monitoring := monitoring, openFds := openFds
      nextFd := nextFd } := by
  obtain ⟨active, counter⟩ := wanted
  apply owing.byOther active
  case main => exact .inl
  case native => rfl
  case claimed => exact .inl rfl
  case requested => exact id
  case changes => rfl
  case holds =>
    intro current
    apply Service.Served.ofConnect
    rw [counter, config] at current
    simpa only [counter, Function.update_self] using current
  case deferral =>
    intro deferred has
    refine Service.Served.ofDeferred deferred ?_
    rw [counter, consumes] at has
    simpa only [counter, Function.update_self] using has
  case consumed =>
    intro consumed
    rw [counter] at consumed
    exact absurd consumed leaves.1
  case wake =>
    exact owing.stays rfl (.inl rfl) (fun claims => absurd claims leaves.2) ⟨rfl, rfl, rfl⟩ rfl

/-- The steps of the connect thread that serve its deferral. -/
theorem consumeStep (owing : Owing service) (wanted : service.stillWanted 1) {input : Input}
    (at_ : service.connect 1 = .consume ∨ service.connect 1 = .requestSet ∨
      service.connect 1 = .requestClaim)
    (stepTo : connectStep service 1 input = some next) : Owing next := by
  obtain ⟨active, counter⟩ := wanted
  have noConfig : (service.connect service.connectAttempt).config = none := by
    rw [counter]
    rcases at_ with at_ | at_ | at_ <;> rw [at_] <;> rfl
  rcases at_ with at_ | at_ | at_
  · simp only [connectStep, at_] at stepTo
    cases stepTo
    apply owing.byOther active
    case main => exact .inl
    case native => rfl
    case claimed => exact .inl rfl
    case requested => exact id
    case changes => rfl
    case holds => simp [noConfig]
    case deferral =>
      intro deferred _
      apply Service.Served.ofConsumed
      simp [Service.connectAt, counter, deferred]
    case consumed => simp [counter, at_]
    case wake =>
      exact owing.stays rfl (.inl rfl) (by simp [at_]) ⟨rfl, rfl, rfl⟩ rfl
  · simp only [connectStep, at_] at stepTo
    cases stepTo
    exact ⟨fun _ => .inr (.ofRequest rfl),
      fun _ => .inr (.inr (.inl (by simp [Service.connectAt])))⟩
  · obtain ⟨worker, claimed, busy, eq⟩ := claimWorker_claims service
    simp only [connectStep, at_, eq] at stepTo
    cases stepTo
    apply owing.byOther active
    case main => exact .inl
    case native => rfl
    case claimed => exact claimed
    case requested => exact id
    case changes => rfl
    case holds => simp [noConfig]
    case deferral => simp [counter, at_, ConnectPc.consumes]
    case consumed => simp [counter, at_]
    case wake => exact fun _ => .inl busy

theorem connectStep (owing : Owing service) (inv : Upright service) {attempt : Nat}
    {input : Input} (succeeds : input.ok = true)
    (stepTo : VpnService.connectStep service attempt input = some next) : Owing next := by
  by_cases idle : service.connect attempt = .idle
  · simp [VpnService.connectStep, idle] at stepTo
  obtain ⟨rfl, busy, wanted⟩ := inv.connecting idle
  have up := inv.connect
  cases at_ : service.connect 1 with
  | idle => exact absurd at_ busy
  | consume => exact owing.consumeStep wanted (.inl at_) stepTo
  | requestSet => exact owing.consumeStep wanted (.inr (.inl at_)) stepTo
  | requestClaim => exact owing.consumeStep wanted (.inr (.inr at_)) stepTo
  | enter config =>
      rw [at_] at up
      have notRunning : ¬ service.native.isRunning = true := by simp [up.1, Native.isRunning]
      simp only [VpnService.connectStep, at_] at stepTo
      rw [if_neg notRunning] at stepTo
      cases stepTo
      exact owing.connectTo wanted (by rw [at_]; rfl) (by rw [at_]; rfl) (by simp [at_])
  | address config | adopt config pfd | register =>
      simp only [VpnService.connectStep, at_] at stepTo
      cases stepTo
      exact owing.connectTo wanted (by rw [at_]; rfl) (by rw [at_]; rfl) (by simp [at_])
  | establish config =>
      simp only [VpnService.connectStep, at_] at stepTo
      rw [if_pos succeeds] at stepTo
      cases stepTo
      exact owing.connectTo wanted (by rw [at_]; rfl) (by rw [at_]; rfl) (by simp [at_])
  | check config pfd =>
      simp only [VpnService.connectStep, at_] at stepTo
      rw [if_pos wanted] at stepTo
      cases stepTo
      exact owing.connectTo wanted (by rw [at_]; rfl) (by rw [at_]; rfl) (by simp [at_])
  | started pfd =>
      simp only [VpnService.connectStep, at_] at stepTo
      rw [if_pos wanted] at stepTo
      cases stepTo
      exact owing.connectTo wanted (by rw [at_]; rfl) (by rw [at_]; rfl) (by simp [at_])
  | replace config pfd =>
      rw [at_] at up
      simp only [VpnService.connectStep, at_] at stepTo
      split at stepTo
      next =>
        cases stepTo
        exact owing.connectTo wanted (by rw [at_]; rfl) (by rw [at_]; rfl) (by simp [at_])
      next old set =>
        rw [up.2.1] at set
        cases set
  | start config pfd =>
      rw [at_] at up
      have opened : ¬ pfd ∉ service.openFds := not_not_intro up.2.2.2.2
      have unasked := inv.unasked up.1
      simp only [VpnService.connectStep, at_] at stepTo
      rw [if_neg opened] at stepTo
      simp only [up.1, succeeds, if_true] at stepTo
      cases stepTo
      constructor
      case wake =>
        intro requested
        cases unasked.rebindRequested.symm.trans requested
      case owed =>
        intro active
        refine (owing.owed active).imp_right fun served => ?_
        rcases served with current | current | current | ⟨deferred, _⟩ | held | asked | builds
        · simp [up.1, Native.engine] at current
        · rw [wanted.2, at_] at current
          exact .ofEngine current
        · simp [unasked.worker, WorkerPc.config] at current
        · exact .ofDeferred deferred (by simp [Service.connectAt, wanted.2, ConnectPc.consumes])
        · simp [wanted.2, at_] at held
        · cases unasked.rebindRequested.symm.trans asked
        · simp [unasked.worker, WorkerPc.builds] at builds
  | _ =>
      rw [at_] at up
      exact up.elim

/-- The main looper goes on where it hands nothing over. -/
theorem looper (owing : Owing service) {main : MainPc} {lastCommand : Command}
    (handles : service.main.handles = true → service.tunnelActive = true →
      main.handles = true)
    (leaves : service.main ≠ .configClaim) :
    Owing { service with main := main, lastCommand := lastCommand } where
  owed := by
    intro active
    rcases owing.owed active with handled | served
    · exact .inl (handles handled active)
    · exact .inr served
  wake := owing.stays rfl (.inr leaves) id ⟨rfl, rfl, rfl⟩ rfl

theorem mainStep (owing : Owing service) (inv : Upright service) {input : Input}
    (served : DeferralServed service (.main input))
    (stepTo : VpnService.mainStep service input = some next) : Owing next := by
  have up := inv.main
  cases at_ : service.main with
  | idle => simp [VpnService.mainStep, at_] at stepTo
  | configActive =>
      simp only [VpnService.mainStep, at_] at stepTo
      split at stepTo
      next =>
        cases stepTo
        exact owing.looper (fun _ _ => rfl) (by simp [at_])
      next inactive =>
        cases stepTo
        exact owing.looper (fun _ active => absurd active inactive) (by simp [at_])
  | configFd | configRunning | connectIdentity | connectActive | connectStopping =>
      simp only [VpnService.mainStep, at_] at stepTo
      split at stepTo
      all_goals
        cases stepTo
        exact owing.looper (by simp [at_, MainPc.handles]) (by simp [at_])
  | configDefer =>
      simp only [VpnService.mainStep, at_] at stepTo
      cases stepTo
      exact ⟨fun _ => .inr (served at_),
        owing.stays rfl (.inr (by simp [at_])) id ⟨rfl, rfl, rfl⟩ rfl⟩
  | configRequest =>
      simp only [VpnService.mainStep, at_] at stepTo
      cases stepTo
      exact ⟨fun _ => .inr (.ofRequest rfl), fun _ => .inr (.inl rfl)⟩
  | configClaim =>
      rw [at_] at up
      obtain ⟨worker, claimed, busy, eq⟩ := claimWorker_claims service
      have active := (inv.launched up).tunnelActive
      simp only [VpnService.mainStep, at_, eq] at stepTo
      cases stepTo
      apply owing.byOther active
      case main => simp [at_, MainPc.handles]
      case native => rfl
      case claimed => exact claimed
      case requested => exact id
      case changes => rfl
      case holds => exact fun current => .ofConnect current
      case deferral => exact fun deferred consumes => .ofDeferred deferred consumes
      case consumed => exact fun consumed => .ofConsumed consumed
      case wake => exact fun _ => .inl busy
  | beginBuild =>
      simp only [VpnService.mainStep, at_] at stepTo
      split at stepTo
      next => cases stepTo
      next =>
        cases stepTo
        exact owing.looper (by simp [at_, MainPc.handles]) (by simp [at_])
  | beginActive config | beginRebind config =>
      simp only [VpnService.mainStep, at_] at stepTo
      cases stepTo
      exact ⟨fun _ => .inl rfl, owing.stays rfl (.inr (by simp [at_])) id ⟨rfl, rfl, rfl⟩ rfl⟩
  | beginAttempt config =>
      rw [at_] at up
      obtain ⟨active, first, current⟩ := up
      have idle : service.connect 1 ≠ .requestClaim := by
        intro claims
        have := (inv.only 1 (by simp [claims])).2.1
        omega
      simp only [VpnService.mainStep, at_] at stepTo
      cases stepTo
      constructor
      case owed =>
        intro _
        right
        apply Service.Served.ofConnect
        simp [ConnectPc.config, current]
      case wake =>
        exact owing.stays rfl (.inr (by simp [at_])) (fun claims => absurd claims idle)
          ⟨rfl, rfl, rfl⟩ rfl
  | _ =>
      rw [at_] at up
      exact up.elim

theorem step (owing : Owing service) (inv : Upright service) {move : Move}
    (allowed : UndisturbedServed service move)
    (stepTo : VpnService.step service move = some next) : Owing next := by
  obtain ⟨undisturbed, served⟩ := allowed
  cases move with
  | main input => exact owing.mainStep inv served stepTo
  | connect attempt input => exact owing.connectStep inv undisturbed stepTo
  | worker input => exact owing.workerStep inv undisturbed.1 undisturbed.2 stepTo
  | disconnect => simp [VpnService.step, disconnectStep, inv.disconnect.1] at stepTo
  | finishShutdown => simp [VpnService.step, inv.disconnect.2] at stepTo
  | command command =>
      simp only [VpnService.step] at stepTo
      split at stepTo
      next idle =>
        cases stepTo
        cases command with
        | disconnect => exact absurd rfl undisturbed
        | connect => exact owing.looper (by simp [idle, MainPc.handles]) (by simp [idle])
        | configChanged =>
            exact ⟨fun _ => .inl rfl,
              owing.stays rfl (.inr (by simp [idle])) id ⟨rfl, rfl, rfl⟩ rfl⟩
      next => cases stepTo
  | request =>
      simp only [VpnService.step] at stepTo
      split at stepTo
      next =>
        cases stepTo
        exact ⟨fun _ => .inr (.ofRequest rfl),
          fun _ => .inr (.inr (.inr (.inl (Nat.succ_pos _))))⟩
      next => cases stepTo
  | requestClaim | reclaim =>
      obtain ⟨worker, claimed, busy, eq⟩ := claimWorker_claims service
      simp only [VpnService.step, eq] at stepTo
      split at stepTo
      next =>
        cases stepTo
        constructor
        case wake => exact fun _ => .inl busy
        case owed =>
          intro active
          refine (owing.owed active).imp_right fun served => ?_
          rcases served with current | current | current | ⟨deferred, consumes⟩ | held | asked |
            builds
          · exact .ofEngine current
          · exact .ofConnect current
          · exact .ofPass (claimed.config.1 ▸ current)
          · exact .ofDeferred deferred consumes
          · exact .ofConsumed held
          · exact .ofRequest asked
          · exact .ofBuild (claimed.config.2.trans builds)
      next => cases stepTo
  | reread =>
      simp only [VpnService.step] at stepTo
      split at stepTo
      next =>
        cases stepTo
        refine ⟨owing.owed, fun requested => ?_⟩
        refine .inr (.inr (.inr (.inr (.inr ?_))))
        have requested : service.rebindRequested = true := requested
        simp [requested]
      next => cases stepTo

theorem initial : Owing initial where
  owed := fun active => by cases active
  wake := fun requested => by cases requested

end Owing

theorem owing_of_run {labels : List Move} {service : Service}
    (run : Run step UndisturbedServed initial labels service) :
    Upright service ∧ Owing service := by
  induction run with
  | nil => exact ⟨.initial, .initial⟩
  | snoc run allowed stepTo ih =>
      obtain ⟨inv, owing⟩ := ih
      exact ⟨inv.step allowed.1 stepTo, owing.step inv allowed stepTo⟩

/-- No settings change is lost while a tunnel is up, in every run without a
disconnect or a failing call in which each deferral still finds somebody to
serve it. -/
theorem settings_reach_engine {labels : List Move} {service : Service}
    (run : Run step UndisturbedServed initial labels service)
    (quiet : service.Quiet) (active : service.tunnelActive = true) :
    ∃ engine, service.native = .up engine ∧
      engine.config.changes = service.changes := by
  obtain ⟨inv, owing⟩ := owing_of_run run
  have one : service.connectAttempt = 1 := by
    rcases inv.attempts with ⟨inactive, _⟩ | ⟨_, one | ⟨config, begins⟩⟩
    · rw [active] at inactive
      cases inactive
    · exact one
    · simp [quiet.main] at begins
  have idle : service.connect 1 = .idle := quiet.connect 1 (Nat.le_of_eq one.symm)
  have notRequested : service.rebindRequested = false := by
    rw [Bool.eq_false_iff]
    intro requested
    have roused := owing.wake requested
    simp [Service.Roused, quiet.worker, quiet.main, idle, quiet.callers] at roused
  have served : service.Served := by
    refine (owing.owed active).resolve_left ?_
    simp [quiet.main, MainPc.handles]
  have current : service.native.engine.map (·.config.changes) = some service.changes := by
    simpa [Service.Served, one, idle, quiet.worker, notRequested, ConnectPc.config,
      ConnectPc.consumes, WorkerPc.config, WorkerPc.builds] using served
  cases native : service.native with
  | down => simp [native, Native.engine] at current
  | rebuilding engine =>
      obtain ⟨old, rebuilding⟩ := inv.rebuilding engine native
      rw [quiet.worker] at rebuilding
      cases rebuilding
  | up engine => exact ⟨engine, rfl, by simpa [native, Native.engine] using current⟩

def before : Input := .granted "relays A"

def after : Input := .granted "relays B"

/-- A Connect up to the start of its thread. -/
def beginning : List Move :=
  .command .connect :: List.replicate 7 (.main before)

/-- A settings change that reaches the connect thread inside `establish()`. -/
def changedWhileConnecting : List Move :=
  beginning ++ List.replicate 2 (.connect 1 before) ++
    .command .configChanged :: List.replicate 3 (.main before) ++
    List.replicate 10 (.connect 1 before) ++ List.replicate 12 (.worker after) ++
    [.reread]

theorem change_served_after_connect :
    ∃ service, Run step UndisturbedServed initial changedWhileConnecting service ∧
      (service.Quiet ∧ service.tunnelActive = true) ∧
      ∃ engine, service.native = .up engine ∧
        engine.config.changes = service.changes := by
  obtain ⟨service, run, quiet, active⟩ :
      ∃ service, Run step UndisturbedServed initial changedWhileConnecting service ∧
        service.Quiet ∧ service.tunnelActive = true :=
    exists_run_of_execute (fun service : Service => service.Quiet ∧ service.tunnelActive = true)
      (by decide +kernel)
  exact ⟨service, run, ⟨quiet, active⟩, settings_reach_engine run quiet active⟩

/-- A second settings change that arrives while the first one's rebind has
taken the engine down. -/
def changedWhileRebinding : List Move :=
  beginning ++ List.replicate 10 (.connect 1 before) ++
    .command .configChanged :: List.replicate 5 (.main before) ++
    List.replicate 8 (.worker after) ++
    .command .configChanged :: List.replicate 4 (.main before) ++
    List.replicate 4 (.worker after) ++ [.reread]

/-- The second change is deferred, and nobody ever serves it. -/
theorem change_lost_during_rebind :
    ∃ labels service, Run step Undisturbed initial labels service ∧
      service.Quiet ∧ service.tunnelActive = true ∧
      ¬ ∃ engine, service.native = .up engine ∧
        engine.config.changes = service.changes := by
  obtain ⟨service, run, quiet, active, stale⟩ :
      ∃ service, Run step Undisturbed initial changedWhileRebinding service ∧
        service.Quiet ∧ service.tunnelActive = true ∧
        service.native.engine.map (·.config.changes) ≠ some service.changes :=
    exists_run_of_execute (fun service : Service => service.Quiet ∧ service.tunnelActive = true ∧
      service.native.engine.map (·.config.changes) ≠ some service.changes)
      (by decide +kernel)
  refine ⟨_, service, run, quiet, active, ?_⟩
  rintro ⟨engine, up, current⟩
  simp [up, Native.engine, current] at stale

end Fips2Go.VpnService
