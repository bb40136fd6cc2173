import Fips2Go.VpnServiceDescriptors

/-!
# Disconnect is final

Whose engine runs, and on which descriptor: the session's once its attempt has
started it, and otherwise one that somebody is still going to stop.  With the
ledger of the descriptors this tells what is left when all threads are done.
-/

namespace Fips2Go.VpnService

open GuardedRuns HandleLedger

/-- The attempt has not started the engine yet. -/
def ConnectPc.connecting : ConnectPc → Bool
  | .enter _ | .address _ | .establish _ | .check _ _ | .replace _ _ | .closeOld _ _ _
  | .adopt _ _ | .start _ _ => true
  | _ => false

/-- The attempt has started the engine and will look whether it is wanted. -/
def ConnectPc.watching : ConnectPc → Bool
  | .started _ | .lateStop _ => true
  | _ => false

/-- The descriptor the worker is about to hand to the engine. -/
def WorkerPc.handles : WorkerPc → Option Nat
  | .handle _ fd _ | .notify _ fd _ => some fd
  | _ => Option.none

def WorkerPc.notifies : WorkerPc → Option Nat
  | .notify _ fd _ => some fd
  | _ => Option.none

def Native.rebuilds : Native → Option Engine
  | .rebuilding target => some target
  | _ => none

/-- A shutdown has not stopped the engine yet. -/
def Service.StopAhead (service : Service) : Prop :=
  (∃ fd, service.disconnect = .stop fd) ∨
    match service.main with
    | .shutdown .clearQueued | .shutdown .bumpAttempt | .shutdown .clearRebind
    | .shutdown .claimStopping => service.stopping = false
    | .shutdown .unregister | .shutdown .takeFd | .shutdown (.clearFd _)
    | .shutdown (.spawnStop _) => True
    | _ => False

/-- The engine of the session has the descriptor in `tunFd`, or is about to. -/
def Service.Launched (service : Service) : Prop :=
  ∃ engine fd, service.native.engine = some engine ∧
    engine.attempt = service.connectAttempt ∧ service.tunFd = some fd ∧
    fd ∈ service.openFds ∧ (engine.tun = fd ∨ service.worker.handles = some fd)

structure Sessions (service : Service) : Prop where
  engine : ∀ engine, service.native.engine = some engine →
    service.Present ∧ engine.attempt = service.connectAttempt ∨ service.StopAhead ∨
      (service.connect engine.attempt).watching = true
  starting : service.Present → ∀ config pfd,
    service.connect service.connectAttempt = .start config pfd → service.tunFd = some pfd
  before : service.Present →
    (service.connect service.connectAttempt).connecting = true → service.native = .down
  after : service.Present → service.main ≠ .shutdown .clearActive →
    (service.connect service.connectAttempt).connecting = false → service.Launched
  rebuilding : ∀ engine, service.native = .rebuilding engine →
    ∃ old, service.worker = .rebuilding old

theorem lingers_of_watching {pc : ConnectPc} (watching : pc.watching = true)
    (tunFd : Option Nat) : pc.lingers tunFd = true := by
  cases pc with
  | started pfd | lateStop pfd => rfl
  | _ => cases watching

/-! ### The guards can be evaluated -/

instance : DecidableRel Succeeds := fun service move =>
  match move with
  | .main input => inferInstanceAs (Decidable (input.ok = true))
  | .connect attempt input =>
      decidable_of_iff
        (input.ok = true ∧
          ((service.connect attempt).starting = true → service.native.isRunning = false))
        (and_congr_right fun _ => by
          cases pc : service.connect attempt <;> simp [ConnectPc.starting])
  | .worker input =>
      decidable_of_iff
        (input.ok = true ∧
          (∀ fd ∈ service.worker.notifies,
            service.native.isRunning = true → fd ∈ service.openFds) ∧
          ∀ target ∈ service.native.rebuilds, target.tun ∈ service.openFds)
        (and_congr_right fun _ => by
          cases service.worker <;> cases service.native <;>
            simp [WorkerPc.notifies, Native.rebuilds])
  | .command _ | .finishShutdown | .disconnect | .request | .requestClaim | .reread
  | .reclaim => .isTrue trivial

instance (service : Service) : Decidable service.Present :=
  inferInstanceAs (Decidable (_ ∧ _))

instance (service : Service) : Decidable service.Tended := by
  unfold Service.Tended
  split <;> infer_instance

instance (service : Service) (fd : Nat) : Decidable (service.Left fd) :=
  inferInstanceAs (Decidable (∃ attempt ≤ service.connectAttempt, _))

instance (service : Service) (old : Option Nat) : Decidable (AdoptsSafely service old) :=
  decidable_of_iff
    (service.Tended ∧
      (∀ fd ∈ service.openFds, service.tunFd = some fd → old = some fd ∨ service.Left fd) ∧
      (∀ attempt ≤ service.connectAttempt, (service.connect attempt).overwrites = false) ∧
      (service.connect service.connectAttempt).starting = false)
    ⟨fun ⟨tended, replaced, overwrites, starting⟩ => ⟨tended, replaced, overwrites, starting⟩,
      fun safely => ⟨safely.tended, safely.replaced, safely.overwrites, safely.starting⟩⟩

instance (service : Service) : DecidablePred service.BeginsAlone := fun main =>
  match main with
  | .beginAttempt _ =>
      inferInstanceAs (Decidable (∀ attempt ≤ service.connectAttempt,
        (service.connect attempt).lingers service.tunFd = false))
  | .idle | .shutdown _ | .configActive | .configFd | .configRunning | .configDefer
  | .configRequest | .configClaim | .connectIdentity | .connectActive | .connectStopping
  | .queueActive | .queueSet | .beginBuild | .beginActive _ | .beginRebind _
  | .finishStopping | .finishQueued | .finishIdentity => .isTrue trivial

instance (service : Service) : DecidablePred service.RebindsSafely := fun worker =>
  match worker with
  | .adopt _ _ old => inferInstanceAs (Decidable (AdoptsSafely service old))
  | .handle _ fd (some old) =>
      inferInstanceAs (Decidable
        (fd ∈ service.openFds ∨ old ∉ service.openFds ∨ service.Left old))
  | .notify _ fd _ =>
      inferInstanceAs (Decidable (service.Present → service.main ≠ .shutdown .clearActive →
        service.native.isRunning = true → service.tunFd = some fd))
  | .none | .poll | .settle | .active | .build | .decide _ | .establish _ | .recheck _ _
  | .closeFresh _ | .readOld _ _ | .readFd _ | .handle _ _ .none | .rebuilding _
  | .closeOld _ | .died | .release => .isTrue trivial

instance : DecidableRel Timely := fun service move =>
  match move with
  | .main _ => inferInstanceAs (Decidable (service.BeginsAlone service.main))
  | .worker _ => inferInstanceAs (Decidable (service.RebindsSafely service.worker))
  | .command _ | .finishShutdown | .connect _ _ | .disconnect | .request | .requestClaim
  | .reread | .reclaim => .isTrue trivial

section MainLooper

variable {service next : Service}

/-- The main looper starts no engine and closes nothing. -/
theorem mainStep_frame {input : Input} (stepTo : mainStep service input = some next) :
    next.native = service.native ∧ next.openFds = service.openFds ∧
      Claimed service.worker next.worker ∧
      (next.tunFd = service.tunFd ∨ ∃ fd, service.main = .shutdown (.clearFd fd)) := by
  cases at_ : service.main with
  | idle => simp [mainStep, at_] at stepTo
  | configClaim =>
      obtain ⟨worker, claimed, _, eq⟩ := claimWorker_claims service
      simp only [mainStep, at_, eq] at stepTo
      cases stepTo
      exact ⟨rfl, rfl, claimed, .inl rfl⟩
  | shutdown pc =>
      cases pc with
      | clearFd fd =>
          simp only [mainStep, at_, shutdownStep] at stepTo
          cases stepTo
          exact ⟨rfl, rfl, .inl rfl, .inr ⟨fd, rfl⟩⟩
      | claimStopping =>
          by_cases claimed : service.stopping = true
          all_goals
            simp only [mainStep, at_, shutdownStep, claimed] at stepTo
            cases stepTo
            exact ⟨rfl, rfl, .inl rfl, .inl rfl⟩
      | _ =>
          simp only [mainStep, at_, shutdownStep] at stepTo
          cases stepTo
          exact ⟨rfl, rfl, .inl rfl, .inl rfl⟩
  | _ =>
      simp only [mainStep, at_] at stepTo
      repeat' split at stepTo
      all_goals first
        | cases stepTo; done
        | cases stepTo
          exact ⟨rfl, rfl, .inl rfl, .inl rfl⟩

/-- A shutdown that has begun gets to its stop. -/
theorem mainStep_stopAhead {input : Input} (stepTo : mainStep service input = some next)
    (ahead : service.StopAhead) : next.StopAhead := by
  unfold Service.StopAhead at ahead
  cases at_ : service.main with
  | idle => simp [mainStep, at_] at stepTo
  | shutdown pc =>
      rw [at_] at ahead
      cases pc with
      | claimStopping =>
          by_cases claimed : service.stopping = true
          · simp only [mainStep, at_, shutdownStep] at stepTo
            rw [if_pos claimed] at stepTo
            cases stepTo
            rcases ahead with stops | notStopping
            · exact .inl stops
            · exact Bool.noConfusion (notStopping.symm.trans claimed)
          · simp only [mainStep, at_, shutdownStep] at stepTo
            rw [if_neg claimed] at stepTo
            cases stepTo
            exact .inr trivial
      | spawnStop fd =>
          simp only [mainStep, at_, shutdownStep] at stepTo
          cases stepTo
          exact .inl ⟨fd, rfl⟩
      | clearActive =>
          simp only [mainStep, at_, shutdownStep] at stepTo
          cases stepTo
          exact .inl (ahead.resolve_right id)
      | _ =>
          simp only [mainStep, at_, shutdownStep] at stepTo
          cases stepTo
          exact ahead
  | configClaim =>
      rw [at_] at ahead
      obtain ⟨worker, _, _, eq⟩ := claimWorker_claims service
      simp only [mainStep, at_, eq] at stepTo
      cases stepTo
      exact ahead
  | _ =>
      rw [at_] at ahead
      simp only [mainStep, at_] at stepTo
      repeat' split at stepTo
      all_goals first
        | cases stepTo; done
        | cases stepTo
          exact .inl (ahead.resolve_right id)

/-- Only a Disconnect ends a session. -/
theorem Orderly.mainStep_present (inv : Orderly service) {input : Input}
    (stepTo : VpnService.mainStep service input = some next)
    (goesOn : service.main ≠ .shutdown .clearActive) (present : service.Present) :
    next.Present ∧ next.connectAttempt = service.connectAttempt := by
  have main := inv.main
  obtain ⟨active, notStopping, notOpening⟩ := present
  cases at_ : service.main with
  | idle => simp [VpnService.mainStep, at_] at stepTo
  | shutdown pc =>
      rw [at_] at main
      cases pc with
      | clearActive => exact absurd at_ goesOn
      | _ => exact Bool.noConfusion (active.symm.trans main.2.1)
  | configClaim =>
      obtain ⟨worker, _, _, eq⟩ := claimWorker_claims service
      simp only [VpnService.mainStep, at_, eq] at stepTo
      cases stepTo
      exact ⟨⟨active, notStopping, rfl⟩, rfl⟩
  | connectStopping =>
      rw [at_] at main
      exact Bool.noConfusion (active.symm.trans main.2.1)
  | queueActive =>
      rw [at_] at main
      exact Bool.noConfusion (notStopping.symm.trans main.2.1)
  | queueSet =>
      rw [at_] at main
      exact Bool.noConfusion (notStopping.symm.trans main.2.1.1)
  | finishStopping =>
      rw [at_] at main
      exact Bool.noConfusion (notStopping.symm.trans main.2.1.1)
  | configActive | configFd | configRunning | configDefer | configRequest
  | connectIdentity | connectActive =>
      simp only [VpnService.mainStep, at_] at stepTo
      repeat' split at stepTo
      all_goals
        cases stepTo
        exact ⟨⟨active, notStopping, rfl⟩, rfl⟩
  | _ => simp [at_, MainPc.opening] at notOpening

/-- The thread of a shutdown runs only while `stopping` is set. -/
theorem Orderly.stopping_of_teardown (inv : Orderly service)
    (busy : service.disconnect ≠ .idle) : service.stopping = true := by
  have main := inv.main
  have calm : service.Calm → service.stopping = true := fun calm => absurd calm.2.1 busy
  have away : service.Away → service.stopping = true := And.left
  have tearing : service.Tearing → service.stopping = true := And.left
  have between : service.Between → service.stopping = true := by
    rintro (⟨isCalm, _⟩ | ⟨isAway, _⟩)
    · exact calm isCalm
    · exact away isAway
  cases at_ : service.main with
  | shutdown pc =>
      rw [at_] at main
      cases pc with
      | clearActive => exact between main.2
      | clearQueued => exact main.2.2.elim calm away
      | bumpAttempt => exact main.2.2.2.elim calm away
      | clearRebind | claimStopping => exact main.2.2.2.elim (fun spared => calm spared.1) away
      | _ => exact tearing main.2.2.2
  | connectIdentity | connectActive =>
      rw [at_] at main
      exact between main.2
  | connectStopping =>
      rw [at_] at main
      exact between main.2.2
  | queueActive =>
      rw [at_] at main
      exact away main.2
  | queueSet =>
      rw [at_] at main
      exact away main.2.1
  | beginBuild | beginActive config | finishIdentity | beginRebind config
  | beginAttempt config =>
      rw [at_] at main
      exact calm main.2.1
  | finishStopping =>
      rw [at_] at main
      exact tearing main.2.1
  | finishQueued =>
      rw [at_] at main
      exact absurd main.2.2.1 busy
  | _ =>
      rw [at_] at main
      exact between main.2

end MainLooper

namespace Sessions

variable {service next : Service}

theorem stopAhead_same (same : SameSession service next)
    (disconnect : next.disconnect = service.disconnect) (ahead : service.StopAhead) :
    next.StopAhead := by
  unfold Service.StopAhead
  rw [disconnect, same.1, same.2.2.2.1]
  exact ahead

theorem close_keeps {closed : Nat} (withheld : service.tunFd ≠ some closed) (fd : Nat)
    (isOpen : fd ∈ service.openFds) (current : service.tunFd = some fd) :
    fd ∈ (service.close closed).openFds := by
  have kept : fd ≠ closed := by
    rintro rfl
    exact withheld current
  simpa [Service.close, kept] using isOpen

/-- A worker that is not handing over leaves the session as it is. -/
theorem launched_same (launched : service.Launched) (native : next.native = service.native)
    (counter : next.connectAttempt = service.connectAttempt)
    (tun : next.tunFd = service.tunFd)
    (opened : ∀ fd ∈ service.openFds, service.tunFd = some fd → fd ∈ next.openFds)
    (handles : ∀ fd ∈ service.openFds, service.worker.handles = some fd →
      next.worker.handles = some fd) : next.Launched := by
  obtain ⟨engine, fd, runs, own, current, isOpen, dup⟩ := launched
  refine ⟨engine, fd, ?_, ?_, ?_, opened fd isOpen current, dup.imp_right (handles fd isOpen)⟩
  · rw [native]
    exact runs
  · rw [counter]
    exact own
  · rw [tun]
    exact current

/-- A step of nobody but the worker, which leaves the engine alone. -/
theorem aside (inv : Sessions service) (same : SameSession service next)
    (connect : next.connect = service.connect)
    (disconnect : next.disconnect = service.disconnect)
    (native : next.native = service.native) (tun : next.tunFd = service.tunFd)
    (opened : ∀ fd ∈ service.openFds, service.tunFd = some fd → fd ∈ next.openFds)
    (handles : ∀ fd ∈ service.openFds, service.worker.handles = some fd →
      next.worker.handles = some fd)
    (rebuilding : ∀ old, service.worker = .rebuilding old → next.worker = .rebuilding old) :
    Sessions next where
  engine := by
    intro engine runs
    rw [native] at runs
    rw [same.present, connect, same.2.2.1]
    exact (inv.engine engine runs).imp_right (Or.imp_left (stopAhead_same same disconnect))
  starting := by
    rw [same.present, connect, same.2.2.1, tun]
    exact inv.starting
  before := by
    rw [same.present, connect, same.2.2.1, native]
    exact inv.before
  after := by
    rw [same.present, connect, same.2.2.1, same.1]
    exact fun present goesOn connected => launched_same (inv.after present goesOn connected)
      native same.2.2.1 tun opened handles
  rebuilding := by
    rw [native]
    intro engine rebuilds
    obtain ⟨old, at_⟩ := inv.rebuilding engine rebuilds
    exact ⟨old, rebuilding old at_⟩

/-- The worker hands the engine a descriptor. -/
theorem retarget (inv : Sessions service) (same : SameSession service next)
    (connect : next.connect = service.connect)
    (disconnect : next.disconnect = service.disconnect) (tun : next.tunFd = service.tunFd)
    (opened : next.openFds = service.openFds) {engine target : Engine}
    (runs : service.native.engine = some engine) (rerun : next.native.engine = some target)
    (own : target.attempt = engine.attempt)
    (dup : service.Launched → service.Present → service.main ≠ .shutdown .clearActive →
      ∀ fd, service.tunFd = some fd → target.tun = fd)
    (rebuilding : ∀ engine, next.native = .rebuilding engine →
      ∃ old, next.worker = .rebuilding old) : Sessions next where
  engine := by
    intro other runs'
    obtain rfl : target = other := Option.some.inj (rerun.symm.trans runs')
    rw [same.present, connect, same.2.2.1, own]
    exact (inv.engine engine runs).imp_right (Or.imp_left (stopAhead_same same disconnect))
  starting := by
    rw [same.present, connect, same.2.2.1, tun]
    exact inv.starting
  before := by
    rw [same.present, connect, same.2.2.1]
    intro present connecting
    have down := inv.before present connecting
    rw [down] at runs
    cases runs
  after := by
    rw [same.present, connect, same.2.2.1, same.1]
    intro present goesOn connected
    have dup := dup (inv.after present goesOn connected) present goesOn
    obtain ⟨other, fd, runs', ownAttempt, current, isOpen, _⟩ :=
      inv.after present goesOn connected
    obtain rfl : engine = other := Option.some.inj (runs.symm.trans runs')
    refine ⟨target, fd, rerun, ?_, ?_, ?_, .inl (dup fd current)⟩
    · rw [same.2.2.1, own]
      exact ownAttempt
    · rw [tun]
      exact current
    · rw [opened]
      exact isOpen
  rebuilding := rebuilding

/-- The rebind's tunnel is the session's from the assignment on. -/
theorem workerAdopt (inv : Sessions service) (descriptors : Descriptors service)
    {config : Option Config} {fresh : Nat} {old : Option Nat}
    (at_ : service.worker = .adopt config fresh old) (safely : AdoptsSafely service old) :
    Sessions { service with tunFd := some fresh, worker := .handle config fresh old } where
  engine := inv.engine
  starting := by
    intro _ config pfd starting
    have notStarting := safely.starting
    rw [show service.connect service.connectAttempt = _ from starting] at notStarting
    cases notStarting
  before := inv.before
  after := by
    intro present goesOn connected
    obtain ⟨engine, _, runs, own, _⟩ := inv.after present goesOn connected
    have isOpen : fresh ∈ service.openFds := by
      apply (descriptors.sound.fits .rebind).alive fresh
      show service.worker.role.fresh = some fresh
      rw [at_]
      rfl
    exact ⟨engine, fresh, runs, own, rfl, isOpen, .inr rfl⟩
  rebuilding := by
    intro engine rebuilds
    obtain ⟨old, elsewhere⟩ := inv.rebuilding engine rebuilds
    rw [at_] at elsewhere
    cases elsewhere

theorem workerNotify (inv : Sessions service) {config : Option Config} {fd : Nat}
    {old : Option Nat} (at_ : service.worker = .notify config fd old) {input : Input}
    (timely : service.Present → service.main ≠ .shutdown .clearActive →
      service.native.isRunning = true → service.tunFd = some fd)
    (stepTo : VpnService.workerStep service input = some next) : Sessions next := by
  simp only [VpnService.workerStep, at_] at stepTo
  split at stepTo
  next down =>
    cases stepTo
    -- There is no engine to lose the descriptor the worker meant to hand over.
    refine ⟨inv.engine, inv.starting, inv.before, ?_, ?_⟩
    · intro present goesOn connected
      obtain ⟨engine, _, runs, _⟩ := inv.after present goesOn connected
      rw [down] at runs
      cases runs
    · rw [down]
      rintro _ ⟨⟩
  next => cases stepTo
  next engine up =>
    have runs : service.native.engine = some engine := by
      rw [up]
      rfl
    have dup (_ : service.Launched) (present : service.Present)
        (goesOn : service.main ≠ .shutdown .clearActive)
        (current : Nat) (holds : service.tunFd = some current) : fd = current :=
      Option.some.inj ((timely present goesOn (by rw [up]; rfl)).symm.trans holds)
    split at stepTo
    · cases stepTo
      refine inv.retarget ⟨rfl, rfl, rfl, rfl, rfl⟩ rfl rfl rfl rfl runs rfl rfl dup ?_
      rintro _ ⟨⟩
    · cases stepTo
      exact inv.retarget ⟨rfl, rfl, rfl, rfl, rfl⟩ rfl rfl rfl rfl runs rfl rfl dup
        (fun _ _ => ⟨old, rfl⟩)

theorem workerStep (inv : Sessions service) (descriptors : Descriptors service)
    {input : Input} (succeeds : Succeeds service (.worker input))
    (timely : Timely service (.worker input))
    (stepTo : VpnService.workerStep service input = some next) : Sessions next := by
  unfold Timely Service.RebindsSafely at timely
  cases at_ : service.worker with
  | none => simp [VpnService.workerStep, at_] at stepTo
  | adopt config fresh old =>
      rw [at_] at timely
      simp only [VpnService.workerStep, at_] at stepTo
      cases stepTo
      exact inv.workerAdopt descriptors at_ timely
  | notify config fd old =>
      rw [at_] at timely
      exact inv.workerNotify at_ timely stepTo
  | rebuilding old =>
      simp only [VpnService.workerStep, at_] at stepTo
      split at stepTo
      next target rebuilds =>
        cases stepTo
        rw [if_pos ⟨succeeds.1, succeeds.2.2 target rebuilds⟩]
        have runs : service.native.engine = some target := by
          rw [rebuilds]
          rfl
        refine inv.retarget ⟨rfl, rfl, rfl, rfl, rfl⟩ rfl rfl rfl rfl runs rfl rfl ?_ ?_
        · rintro ⟨engine, own, runs', _, holds, _, dup | handled⟩ _ _ fd current
          · obtain rfl : target = engine := Option.some.inj (runs.symm.trans runs')
            exact dup.trans (Option.some.inj (holds.symm.trans current))
          · rw [at_] at handled
            cases handled
        · rintro _ ⟨⟩
      next => cases stepTo
  | establish config =>
      simp only [VpnService.workerStep, at_] at stepTo
      split at stepTo
      all_goals
        cases stepTo
        refine inv.aside ⟨rfl, rfl, rfl, rfl, rfl⟩ rfl rfl rfl rfl (fun _ isOpen _ => ?_)
          (by simp [at_, WorkerPc.handles]) (by simp [at_])
        first
          | exact List.mem_cons_of_mem _ isOpen
          | exact isOpen
  | closeFresh fresh =>
      have unpublished : service.tunFd ≠ some fresh := by
        apply (descriptors.sound.fits .rebind).unpublished fresh
        show service.worker.role.fresh = some fresh
        rw [at_]
        rfl
      simp only [VpnService.workerStep, at_] at stepTo
      cases stepTo
      exact inv.aside ⟨rfl, rfl, rfl, rfl, rfl⟩ rfl rfl rfl rfl (close_keeps unpublished)
        (by simp [at_, WorkerPc.handles]) (by simp [at_])
  | closeOld old =>
      simp only [VpnService.workerStep, at_] at stepTo
      cases stepTo
      cases old with
      | none =>
          exact inv.aside ⟨rfl, rfl, rfl, rfl, rfl⟩ rfl rfl rfl rfl (fun _ isOpen _ => isOpen)
            (by simp [at_, WorkerPc.handles]) (by simp [at_])
      | some old =>
          have withheld : service.tunFd ≠ some old := by
            apply (descriptors.sound.fits .rebind).withheld old
            show service.worker.role.due = some old
            rw [at_]
            rfl
          exact inv.aside ⟨rfl, rfl, rfl, rfl, rfl⟩ rfl rfl rfl rfl (close_keeps withheld)
            (by simp [at_, WorkerPc.handles]) (by simp [at_])
  | handle config fd old =>
      simp only [VpnService.workerStep, at_] at stepTo
      split at stepTo
      next =>
        cases stepTo
        exact inv.aside ⟨rfl, rfl, rfl, rfl, rfl⟩ rfl rfl rfl rfl (fun _ isOpen _ => isOpen)
          (by simp [at_, WorkerPc.handles]) (by simp [at_])
      next closed =>
        cases stepTo
        refine inv.aside ⟨rfl, rfl, rfl, rfl, rfl⟩ rfl rfl rfl rfl (fun _ isOpen _ => isOpen)
          ?_ (by simp [at_])
        rintro other isOpen handled
        rw [at_] at handled
        cases handled
        exact absurd isOpen closed
  | _ =>
      simp only [VpnService.workerStep, at_] at stepTo
      repeat' split at stepTo
      all_goals first
        | cases stepTo; done
        | cases stepTo
          exact inv.aside ⟨rfl, rfl, rfl, rfl, rfl⟩ rfl rfl rfl rfl (fun _ isOpen _ => isOpen)
            (by simp [at_, WorkerPc.handles]) (by simp [at_])

theorem disconnectStep (inv : Sessions service) (order : Orderly service)
    (stepTo : VpnService.disconnectStep service = some next) : Sessions next := by
  have absent (busy : service.disconnect ≠ .idle) : ¬ service.Present := by
    intro present
    have stopping := order.stopping_of_teardown busy
    rw [present.2.1] at stopping
    cases stopping
  rcases disconnectStep_cases stepTo with ⟨fd, at_, _, rfl⟩ | ⟨fd, at_, rfl⟩
  · have absent := absent (by simp [at_])
    refine ⟨?_, ?_, fun _ _ => rfl, ?_, ?_⟩
    · rintro _ ⟨⟩
    · exact fun present => absurd present absent
    · exact fun present => absurd present absent
    · rintro _ ⟨⟩
  · have absent := absent (by simp [at_])
    obtain ⟨openFds, closed⟩ := closeOpt_eq service fd
    rw [closed]
    refine ⟨?_, ?_, ?_, ?_, inv.rebuilding⟩
    · intro engine runs
      rcases inv.engine engine runs with ⟨present, _⟩ | (⟨_, stops⟩ | ahead) | watching
      · exact absurd present absent
      · rw [at_] at stops
        cases stops
      · exact .inr (.inl (.inr ahead))
      · exact .inr (.inr watching)
    · exact fun present => absurd present absent
    · exact fun present => absurd present absent
    · exact fun present => absurd present absent

/-- The main looper, as long as it starts no attempt. -/
theorem mainAside (inv : Sessions service) (order : Orderly service) {input : Input}
    (stepTo : VpnService.mainStep service input = some next)
    (waits : ∀ config, service.main ≠ .beginAttempt config)
    (connect : next.connect = service.connect) : Sessions next := by
  obtain ⟨native, opened, claimed, tun⟩ := mainStep_frame stepTo
  have rises (present : next.Present) := order.mainStep_rises stepTo waits present
  have goesOn (present : next.Present) : service.main ≠ .shutdown .clearActive := by
    intro at_
    simp only [VpnService.mainStep, at_, shutdownStep] at stepTo
    cases stepTo
    exact Bool.noConfusion present.1
  have tun (present : next.Present) : next.tunFd = service.tunFd := by
    refine tun.resolve_right ?_
    rintro ⟨fd, at_⟩
    have main := order.main
    rw [at_] at main
    exact Bool.noConfusion ((rises present).1.1.symm.trans main.2.1)
  constructor
  case engine =>
    intro engine runs
    rw [native] at runs
    rw [connect]
    rcases inv.engine engine runs with ⟨present, own⟩ | ahead | watching
    · by_cases ends : service.main = .shutdown .clearActive
      · refine .inr (.inl ?_)
        simp only [VpnService.mainStep, ends, shutdownStep] at stepTo
        cases stepTo
        exact .inr present.2.1
      · obtain ⟨present, counter⟩ := order.mainStep_present stepTo ends present
        exact .inl ⟨present, own.trans counter.symm⟩
    · exact .inr (.inl (mainStep_stopAhead stepTo ahead))
    · exact .inr (.inr watching)
  case starting =>
    intro present
    rw [tun present, (rises present).2, connect]
    exact inv.starting (rises present).1
  case before =>
    intro present
    rw [(rises present).2, connect, native]
    exact inv.before (rises present).1
  case after =>
    intro present _
    rw [(rises present).2, connect]
    intro connected
    have launched := inv.after (rises present).1 (goesOn present) connected
    refine launched_same launched native (rises present).2 (tun present) ?_ ?_
    · rw [opened]
      exact fun _ isOpen _ => isOpen
    · rcases claimed with same | ⟨free, _⟩
      · rw [same]
        exact fun _ _ => id
      · rw [free]
        rintro _ _ ⟨⟩
  case rebuilding =>
    rw [native]
    intro engine rebuilds
    obtain ⟨old, at_⟩ := inv.rebuilding engine rebuilds
    rcases claimed with same | ⟨free, _⟩
    · exact ⟨old, same.trans at_⟩
    · rw [free] at at_
      cases at_

/-- A new attempt finds no engine. -/
theorem mainBeginAttempt (inv : Sessions service) (order : Orderly service)
    {config : Config} (at_ : service.main = .beginAttempt config)
    (cleared : ∀ attempt ≤ service.connectAttempt,
      (service.connect attempt).lingers service.tunFd = false) :
    Sessions { service with
      connectAttempt := service.connectAttempt + 1
      connect := Function.update service.connect (service.connectAttempt + 1)
        (.enter config)
      main := .idle } := by
  have main := order.main
  rw [at_] at main
  have down : service.native = .down := by
    cases native : service.native.engine with
    | none =>
        cases kind : service.native with
        | down => rfl
        | _ =>
            rw [kind] at native
            cases native
    | some engine =>
        rcases inv.engine engine native with ⟨present, _⟩ | (⟨fd, stops⟩ | ahead) | watching
        · have opening := present.2.2
          rw [at_] at opening
          cases opening
        · rw [main.2.1.2.1] at stops
          cases stops
        · rw [at_] at ahead
          exact ahead.elim
        · have busy : service.connect engine.attempt ≠ .idle := by
            intro idle
            rw [idle] at watching
            cases watching
          have lingers := lingers_of_watching watching service.tunFd
          rw [cleared _ (order.spawned _ busy)] at lingers
          cases lingers
  refine ⟨?_, ?_, fun _ _ => down, ?_, ?_⟩
  · simp [down, Native.engine]
  · simp
  · simp [ConnectPc.connecting]
  · simp [down]

theorem mainStep (inv : Sessions service) (order : Orderly service) {input : Input}
    (timely : Timely service (.main input))
    (stepTo : VpnService.mainStep service input = some next) : Sessions next := by
  by_cases starts : ∃ config, service.main = .beginAttempt config
  · obtain ⟨config, at_⟩ := starts
    simp only [Timely, Service.BeginsAlone, at_] at timely
    simp only [VpnService.mainStep, at_] at stepTo
    cases stepTo
    exact inv.mainBeginAttempt order at_ timely
  · have waits : ∀ config, service.main ≠ .beginAttempt config := not_exists.mp starts
    obtain ⟨_, connect | ⟨_, config, at_, _⟩⟩ := Orderly.mainStep_threads stepTo
    · exact inv.mainAside order stepTo waits connect
    · exact absurd at_ (waits config)

/-- A connect thread that neither starts nor stops the engine. -/
theorem attempt (inv : Sessions service) {attempt : Nat} {pc : ConnectPc}
    (same : SameSession service next)
    (moved : next.connect = Function.update service.connect attempt pc)
    (disconnect : next.disconnect = service.disconnect)
    (worker : Claimed service.worker next.worker) (native : next.native = service.native)
    (watching : (service.connect attempt).watching = true →
      pc.watching = true ∨ service.Present ∧ attempt = service.connectAttempt)
    (connecting : service.Present → attempt = service.connectAttempt →
      pc.connecting = (service.connect attempt).connecting)
    (starting : ∀ config pfd, pc = .start config pfd → next.tunFd = some pfd)
    (kept : service.Present →
      attempt = service.connectAttempt ∧ pc.connecting = true ∨
        next.tunFd = service.tunFd ∧
          ∀ fd ∈ service.openFds, service.tunFd = some fd → fd ∈ next.openFds) :
    Sessions next where
  engine := by
    intro engine runs
    rw [native] at runs
    rw [same.present, same.2.2.1, moved]
    rcases inv.engine engine runs with session | ahead | watches
    · exact .inl session
    · exact .inr (.inl (stopAhead_same same disconnect ahead))
    · by_cases own : engine.attempt = attempt
      · rw [own] at watches ⊢
        rcases watching watches with watches | session
        · rw [Function.update_self]
          exact .inr (.inr watches)
        · exact .inl session
      · rw [Function.update_of_ne own]
        exact .inr (.inr watches)
  starting := by
    rw [same.present, same.2.2.1, moved]
    intro present config pfd starts
    by_cases own : service.connectAttempt = attempt
    · rw [own, Function.update_self] at starts
      exact starting config pfd starts
    · rw [Function.update_of_ne own] at starts
      rcases kept present with ⟨isOwn, _⟩ | ⟨tun, _⟩
      · exact absurd isOwn.symm own
      · rw [tun]
        exact inv.starting present config pfd starts
  before := by
    rw [same.present, same.2.2.1, moved, native]
    intro present connects
    by_cases own : service.connectAttempt = attempt
    · rw [own, Function.update_self, connecting present own.symm, ← own] at connects
      exact inv.before present connects
    · rw [Function.update_of_ne own] at connects
      exact inv.before present connects
  after := by
    rw [same.present, same.2.2.1, same.1, moved]
    intro present goesOn unmoved
    have connected : attempt = service.connectAttempt → pc.connecting = false := by
      rintro rfl
      rwa [Function.update_self] at unmoved
    have before : (service.connect service.connectAttempt).connecting = false := by
      by_cases own : attempt = service.connectAttempt
      · rw [← own, ← connecting present own]
        exact connected own
      · rwa [Function.update_of_ne (Ne.symm own)] at unmoved
    rcases kept present with ⟨own, connects⟩ | ⟨tun, opened⟩
    · rw [connected own] at connects
      cases connects
    · refine launched_same (inv.after present goesOn before) native same.2.2.1 tun opened ?_
      rcases worker with same | ⟨free, _⟩
      · rw [same]
        exact fun _ _ => id
      · rw [free]
        rintro _ _ ⟨⟩
  rebuilding := by
    rw [native]
    intro engine rebuilds
    obtain ⟨old, at_⟩ := inv.rebuilding engine rebuilds
    rcases worker with same | ⟨free, _⟩
    · exact ⟨old, same.trans at_⟩
    · rw [free] at at_
      cases at_

/-- A connect thread before its start and after its looks leaves everything. -/
theorem attemptStill (inv : Sessions service) {attempt : Nat} {pc : ConnectPc}
    (same : SameSession service next)
    (moved : next.connect = Function.update service.connect attempt pc)
    (disconnect : next.disconnect = service.disconnect)
    (worker : Claimed service.worker next.worker) (native : next.native = service.native)
    (tun : next.tunFd = service.tunFd)
    (opened : ∀ fd ∈ service.openFds, service.tunFd = some fd → fd ∈ next.openFds)
    (watching : (service.connect attempt).watching = true →
      pc.watching = true ∨ service.Present ∧ attempt = service.connectAttempt)
    (connecting : pc.connecting = (service.connect attempt).connecting)
    (starting : ∀ config pfd, pc ≠ .start config pfd) : Sessions next := by
  refine inv.attempt same moved disconnect worker native watching (fun _ _ => connecting) ?_
    (fun _ => .inr ⟨tun, opened⟩)
  exact fun config pfd starts => absurd starts (starting config pfd)

/-- The attempt starts the engine on its tunnel. -/
theorem attemptStarts (inv : Sessions service) (descriptors : Descriptors service)
    {attempt pfd : Nat} {config : Config}
    (at_ : service.connect attempt = .start config pfd) (isOpen : pfd ∈ service.openFds) :
    Sessions ({ service with native := .up ⟨pfd, config, attempt⟩ }.connectAt attempt
      (.started pfd)) := by
  have newest (present : service.Present) : attempt = service.connectAttempt :=
    descriptors.present present attempt (by rw [at_]; rfl)
  have moved (present : service.Present) :
      Function.update service.connect attempt (.started pfd) service.connectAttempt =
        .started pfd := by
    rw [← newest present, Function.update_self]
  constructor
  case engine =>
    rintro _ ⟨⟩
    refine .inr (.inr ?_)
    show (Function.update service.connect attempt _ attempt).watching = true
    rw [Function.update_self]
    rfl
  case starting =>
    intro present _ _ starts
    cases (moved present).symm.trans starts
  case before =>
    intro present connects
    have connected := congrArg ConnectPc.connecting (moved present)
    exact Bool.noConfusion (connected.symm.trans connects)
  case after =>
    intro present _ _
    have own := newest present
    have current := inv.starting present config pfd (own ▸ at_)
    exact ⟨⟨pfd, config, attempt⟩, pfd, rfl, own, current, isOpen, .inl rfl⟩
  case rebuilding => rintro _ ⟨⟩

/-- A cancelled attempt stops the engine, which is no session's. -/
theorem attemptStops (descriptors : Descriptors service)
    {attempt pfd : Nat} (at_ : service.connect attempt = .lateStop pfd) :
    Sessions ({ service with native := .down }.connectAt attempt (.disown pfd)) := by
  have absent : ¬ service.Present := by
    intro present
    have own := descriptors.present present attempt (by rw [at_]; rfl)
    exact descriptors.late attempt (by rw [at_]; rfl) ⟨present.1, own.symm⟩
  refine ⟨?_, ?_, fun _ _ => rfl, ?_, ?_⟩
  · rintro _ ⟨⟩
  · exact fun present => absurd present absent
  · exact fun present => absurd present absent
  · rintro _ ⟨⟩

theorem connectStep (inv : Sessions service) (order : Orderly service)
    (descriptors : Descriptors service) {attempt : Nat} {input : Input}
    (succeeds : Succeeds service (.connect attempt input))
    (stepTo : VpnService.connectStep service attempt input = some next) : Sessions next := by
  have newest (present : service.Present)
      (lingers : (service.connect attempt).lingers service.tunFd = true) :
      attempt = service.connectAttempt :=
    descriptors.present present attempt lingers
  cases at_ : service.connect attempt with
  | idle => simp [VpnService.connectStep, at_] at stepTo
  | failing pc => exact absurd at_ (order.successful attempt pc)
  | enter config =>
      simp only [VpnService.connectStep, at_] at stepTo
      split at stepTo
      next running =>
        cases stepTo
        refine inv.attempt ⟨rfl, rfl, rfl, rfl, rfl⟩ rfl rfl (.inl rfl) rfl
          (by simp [at_, ConnectPc.watching]) ?_ (by simp)
          (fun _ => .inr ⟨rfl, fun _ isOpen _ => isOpen⟩)
        intro present own
        have down := inv.before present (by rw [← own, at_]; rfl)
        rw [down] at running
        cases running
      next =>
        cases stepTo
        exact inv.attemptStill ⟨rfl, rfl, rfl, rfl, rfl⟩ rfl rfl (.inl rfl) rfl rfl
          (fun _ isOpen _ => isOpen) (by simp [at_, ConnectPc.watching]) (by rw [at_]; rfl)
          (by simp)
  | establish config =>
      simp only [VpnService.connectStep, at_] at stepTo
      rw [if_pos succeeds.1] at stepTo
      cases stepTo
      exact inv.attemptStill ⟨rfl, rfl, rfl, rfl, rfl⟩ rfl rfl (.inl rfl) rfl rfl
        (fun _ isOpen _ => List.mem_cons_of_mem _ isOpen) (by simp [at_, ConnectPc.watching])
        (by rw [at_]; rfl) (by simp)
  | check config pfd =>
      simp only [VpnService.connectStep, at_] at stepTo
      split at stepTo
      next =>
        cases stepTo
        exact inv.attemptStill ⟨rfl, rfl, rfl, rfl, rfl⟩ rfl rfl (.inl rfl) rfl rfl
          (fun _ isOpen _ => isOpen) (by simp [at_, ConnectPc.watching]) (by rw [at_]; rfl)
          (by simp)
      next unwanted =>
        cases stepTo
        refine inv.attempt ⟨rfl, rfl, rfl, rfl, rfl⟩ rfl rfl (.inl rfl) rfl
          (by simp [at_, ConnectPc.watching]) ?_ (by simp)
          (fun _ => .inr ⟨rfl, fun _ isOpen _ => isOpen⟩)
        exact fun present own => absurd ⟨present.1, own.symm⟩ unwanted
  | closeOld config pfd old =>
      have lingers : (service.connect attempt).lingers service.tunFd = true := by
        rw [at_]
        rfl
      simp only [VpnService.connectStep, at_] at stepTo
      cases stepTo
      exact inv.attempt ⟨rfl, rfl, rfl, rfl, rfl⟩ rfl rfl (.inl rfl) rfl
        (by simp [at_, ConnectPc.watching]) (fun _ _ => by rw [at_]; rfl) (by simp)
        (fun present => .inl ⟨newest present lingers, rfl⟩)
  | adopt config pfd =>
      have lingers : (service.connect attempt).lingers service.tunFd = true := by
        rw [at_]
        rfl
      simp only [VpnService.connectStep, at_] at stepTo
      cases stepTo
      refine inv.attempt ⟨rfl, rfl, rfl, rfl, rfl⟩ rfl rfl (.inl rfl) rfl
        (by simp [at_, ConnectPc.watching]) (fun _ _ => by rw [at_]; rfl) ?_
        (fun present => .inl ⟨newest present lingers, rfl⟩)
      rintro _ _ ⟨⟩
      rfl
  | start config pfd =>
      have notRunning := succeeds.2 config pfd at_
      simp only [VpnService.connectStep, at_] at stepTo
      split at stepTo
      next => cases stepTo
      next isOpen =>
        split at stepTo
        next => cases stepTo
        next engine up =>
          rw [up] at notRunning
          cases notRunning
        next =>
          rw [if_pos succeeds.1] at stepTo
          cases stepTo
          exact inv.attemptStarts descriptors at_ (not_not.mp isOpen)
  | started pfd =>
      simp only [VpnService.connectStep, at_] at stepTo
      split at stepTo
      next wanted =>
        cases stepTo
        have present := order.present_of_wanted wanted (by simp [at_])
        exact inv.attemptStill ⟨rfl, rfl, rfl, rfl, rfl⟩ rfl rfl (.inl rfl) rfl rfl
          (fun _ isOpen _ => isOpen) (fun _ => .inr ⟨present, wanted.2.symm⟩)
          (by rw [at_]; rfl) (by simp)
      next =>
        cases stepTo
        exact inv.attemptStill ⟨rfl, rfl, rfl, rfl, rfl⟩ rfl rfl (.inl rfl) rfl rfl
          (fun _ isOpen _ => isOpen) (fun _ => .inl rfl) (by rw [at_]; rfl) (by simp)
  | lateStop pfd =>
      simp only [VpnService.connectStep, at_] at stepTo
      split at stepTo
      next => cases stepTo
      next =>
        cases stepTo
        exact attemptStops descriptors at_
  | disownSet pfd =>
      have lingers : (service.connect attempt).lingers service.tunFd = true := by
        rw [at_]
        rfl
      have unwanted := descriptors.late attempt (by rw [at_]; rfl)
      simp only [VpnService.connectStep, at_] at stepTo
      cases stepTo
      refine inv.attempt ⟨rfl, rfl, rfl, rfl, rfl⟩ rfl rfl (.inl rfl) rfl
        (by simp [at_, ConnectPc.watching]) (fun _ _ => by rw [at_]; rfl) (by simp) ?_
      exact fun present => absurd ⟨present.1, (newest present lingers).symm⟩ unwanted
  | closeOwn pfd =>
      have withheld : service.tunFd ≠ some pfd := by
        apply (descriptors.sound.fits (.attempt attempt)).withheld pfd
        show (service.connect attempt).role.due = some pfd
        rw [at_]
        rfl
      simp only [VpnService.connectStep, at_] at stepTo
      cases stepTo
      exact inv.attemptStill ⟨rfl, rfl, rfl, rfl, rfl⟩ rfl rfl (.inl rfl) rfl rfl
        (close_keeps withheld) (by simp [at_, ConnectPc.watching]) (by rw [at_]; rfl) (by simp)
  | consume =>
      simp only [VpnService.connectStep, at_] at stepTo
      cases stepTo
      split
      all_goals
        exact inv.attemptStill ⟨rfl, rfl, rfl, rfl, rfl⟩ rfl rfl (.inl rfl) rfl rfl
          (fun _ isOpen _ => isOpen) (by simp [at_, ConnectPc.watching]) (by rw [at_]; rfl)
          (by simp)
  | requestClaim =>
      obtain ⟨worker, claimed, _, eq⟩ := claimWorker_claims service
      simp only [VpnService.connectStep, at_, eq] at stepTo
      cases stepTo
      exact inv.attemptStill ⟨rfl, rfl, rfl, rfl, rfl⟩ rfl rfl claimed rfl rfl
        (fun _ isOpen _ => isOpen) (by simp [at_, ConnectPc.watching]) (by rw [at_]; rfl)
        (by simp)
  | _ =>
      simp only [VpnService.connectStep, at_] at stepTo
      repeat' split at stepTo
      all_goals
        cases stepTo
        exact inv.attemptStill ⟨rfl, rfl, rfl, rfl, rfl⟩ rfl rfl (.inl rfl) rfl rfl
          (fun _ isOpen _ => isOpen) (by simp [at_, ConnectPc.watching]) (by rw [at_]; rfl)
          (by simp)

/-- Between two messages the main looper takes the next one. -/
theorem message (inv : Sessions service) {main : MainPc} {lastCommand : Command}
    {changes : Nat} {finishPosted : Bool} (idle : service.main = .idle)
    (notOpening : main.opening = false) :
    Sessions { service with
      main := main, lastCommand := lastCommand, changes := changes
      finishPosted := finishPosted } := by
  have opening : service.main.opening = false := by
    rw [idle]
    rfl
  have present (active : service.tunnelActive = true ∧ service.stopping = false ∧
      main.opening = false) : service.Present :=
    ⟨active.1, active.2.1, opening⟩
  refine ⟨?_, ?_, ?_, ?_, inv.rebuilding⟩
  · intro engine runs
    rcases inv.engine engine runs with ⟨present, own⟩ | (stops | ahead) | watching
    · exact .inl ⟨⟨present.1, present.2.1, notOpening⟩, own⟩
    · exact .inr (.inl (.inl stops))
    · rw [idle] at ahead
      exact ahead.elim
    · exact .inr (.inr watching)
  · exact fun isPresent => inv.starting (present isPresent)
  · exact fun isPresent => inv.before (present isPresent)
  · exact fun isPresent _ => inv.after (present isPresent) (by simp [idle])

theorem step (inv : Sessions service) (order : Orderly service)
    (descriptors : Descriptors service) {move : Move} (succeeds : Succeeds service move)
    (timely : Timely service move) (stepTo : VpnService.step service move = some next) :
    Sessions next := by
  cases move with
  | main input => exact inv.mainStep order timely stepTo
  | connect attempt input => exact inv.connectStep order descriptors succeeds stepTo
  | disconnect => exact inv.disconnectStep order stepTo
  | worker input => exact inv.workerStep descriptors succeeds timely stepTo
  | command command =>
      simp only [VpnService.step] at stepTo
      split at stepTo
      next idle =>
        cases stepTo
        cases command with
        | _ => exact inv.message idle rfl
      next => cases stepTo
  | finishShutdown =>
      simp only [VpnService.step] at stepTo
      split at stepTo
      next posted =>
        cases stepTo
        exact inv.message posted.1 rfl
      next => cases stepTo
  | request | reread =>
      simp only [VpnService.step] at stepTo
      split at stepTo
      next =>
        cases stepTo
        exact inv.aside ⟨rfl, rfl, rfl, rfl, rfl⟩ rfl rfl rfl rfl (fun _ isOpen _ => isOpen)
          (fun _ _ => id) (fun _ => id)
      next => cases stepTo
  | requestClaim | reclaim =>
      obtain ⟨worker, claimed, _, eq⟩ := claimWorker_claims service
      simp only [VpnService.step, eq] at stepTo
      split at stepTo
      next =>
        cases stepTo
        refine inv.aside ⟨rfl, rfl, rfl, rfl, rfl⟩ rfl rfl rfl rfl
          (fun _ isOpen _ => isOpen) ?_ ?_
        all_goals
          rcases claimed with rfl | ⟨free, _⟩
          · simp
          · simp [free, WorkerPc.handles]
      next => cases stepTo

end Sessions

/-! ### What is left when all threads are done -/

/-- A service on which a connect is through: nobody is under way, and the
engine runs on a dup of the only open descriptor. -/
structure Service.Connected (service : Service) : Prop where
  idle : service.main = .idle ∧ service.disconnect = .idle ∧ service.worker = .none ∧
    ∀ attempt, service.connect attempt = .idle
  calm : service.stopping = false ∧ service.finishPosted = false ∧
    service.connectQueued = false
  wanted : service.tunnelActive = true ∧ service.lastCommand = .connect
  running : ∃ engine, service.native = .up engine ∧
    engine.attempt = service.connectAttempt ∧ service.tunFd = some engine.tun ∧
    service.openFds = [engine.tun] ∧ engine.tun < service.nextFd

/-- What the user's last command asks for, once nobody is under way. -/
def Service.Settled (service : Service) : Prop :=
  (service.lastCommand = .disconnect → service.native = .down ∧ service.openFds = []) ∧
    (service.lastCommand = .connect → ∃ engine, service.native = .up engine ∧
      service.tunFd = some engine.tun ∧ ∀ fd, fd ∈ service.openFds ↔ fd = engine.tun)

namespace Service.Connected

variable {service : Service}

theorem orderly (connected : service.Connected) : Orderly service := by
  obtain ⟨main, disconnect, _, threads⟩ := connected.idle
  obtain ⟨notStopping, notPosted, notQueued⟩ := connected.calm
  refine ⟨fun attempt busy => absurd (threads attempt) busy, ?_, ?_⟩
  · simp [threads]
  · rw [main]
    refine ⟨?_, .inl ⟨⟨notStopping, disconnect, notPosted, notQueued⟩, fun _ => threads _⟩⟩
    simp [Service.Obeyed, connected.wanted.1, connected.wanted.2]

theorem descriptors (connected : service.Connected) : Descriptors service := by
  obtain ⟨main, disconnect, worker, threads⟩ := connected.idle
  obtain ⟨engine, _, _, current, opened, earlier⟩ := connected.running
  have idle (holder : Holder) : service.role holder = .nothing := by
    cases holder <;>
      simp [Service.role, main, disconnect, worker, threads, MainPc.role, DisconnectPc.role,
        WorkerPc.role, ConnectPc.role]
  constructor
  case sound =>
    constructor
    case published =>
      rintro fd holds
      obtain rfl : engine.tun = fd := Option.some.inj (current.symm.trans holds)
      exact earlier
    case acquired => simpa [Service.ledger, opened] using earlier
    case fits =>
      intro holder
      constructor <;> simp [Service.ledger, idle, Role.nothing, Role.Mentions]
    case alone => simp [Service.ledger, idle, Role.nothing]
    case accounted => simp [Service.ledger, opened, current]
  case late => simp [threads, ConnectPc.late]
  case overwritten => simp [threads, ConnectPc.overwrites]
  case alone => simp [threads, ConnectPc.lingers]
  case present => simp [threads, ConnectPc.lingers]
  case untended =>
    intro fd _
    left
    unfold Service.Tended
    rw [main]
    exact ⟨connected.calm.1, connected.wanted.1⟩

theorem sessions (connected : service.Connected) : Sessions service := by
  obtain ⟨main, _, _, threads⟩ := connected.idle
  obtain ⟨engine, up, own, current, opened, _⟩ := connected.running
  have present : service.Present := by
    refine ⟨connected.wanted.1, connected.calm.1, ?_⟩
    rw [main]
    rfl
  have runs : service.native.engine = some engine := by
    rw [up]
    rfl
  constructor
  case engine =>
    intro other runs'
    obtain rfl : engine = other := Option.some.inj (runs.symm.trans runs')
    exact .inl ⟨present, own⟩
  case starting => simp [threads]
  case before => simp [threads, ConnectPc.connecting]
  case after =>
    intro _ _ _
    exact ⟨engine, engine.tun, runs, own, current, by simp [opened], .inl rfl⟩
  case rebuilding => simp [up]

end Service.Connected

/-- Every call succeeds, and each step finds what it takes for granted. -/
def Punctual (service : Service) (move : Move) : Prop :=
  Succeeds service move ∧ Timely service move

instance : DecidableRel Punctual := fun _ _ => inferInstanceAs (Decidable (_ ∧ _))

theorem invariants_of_run {start final : Service} {moves : List Move}
    (connected : start.Connected) (run : Run step Punctual start moves final) :
    Orderly final ∧ Descriptors final ∧ Sessions final := by
  induction run with
  | nil => exact ⟨connected.orderly, connected.descriptors, connected.sessions⟩
  | snoc _ allowed stepTo ih =>
      obtain ⟨order, descriptors, sessions⟩ := ih
      obtain ⟨succeeds, timely⟩ := allowed
      exact ⟨order.step succeeds stepTo, descriptors.step order succeeds timely stepTo,
        sessions.step order descriptors succeeds timely stepTo⟩

section Quiet

variable {service : Service}

theorem idle_of_quiet (order : Orderly service) (quiet : service.Quiet) (attempt : Nat) :
    service.connect attempt = .idle := by
  by_contra busy
  exact busy (quiet.connect attempt (order.spawned attempt busy))

/-- Nobody is left to close a descriptor but the session. -/
theorem held_of_quiet (order : Orderly service) (descriptors : Descriptors service)
    (quiet : service.Quiet) {fd : Nat} (isOpen : fd ∈ service.openFds) :
    service.tunFd = some fd ∧ service.tunnelActive = true := by
  have idle := idle_of_quiet order quiet
  have nothing (holder : Holder) : service.role holder = .nothing := by
    cases holder <;>
      simp [Service.role, quiet.main, quiet.disconnect, quiet.worker, idle, MainPc.role,
        DisconnectPc.role, WorkerPc.role, ConnectPc.role]
  rcases descriptors.sound.accounted fd isOpen with current | ⟨holder, owes⟩ | ⟨attempt, owes, _⟩
  · refine ⟨current, ?_⟩
    rcases descriptors.untended fd current with tended | seen | ⟨attempt, adopted⟩
    · unfold Service.Tended at tended
      rw [quiet.main] at tended
      exact tended.2
    · rw [quiet.main] at seen
      cases seen
    · rw [idle] at adopted
      cases adopted
  · rw [show service.ledger.role holder = _ from nothing holder] at owes
    rcases owes with ⟨⟨⟩⟩ | ⟨⟨⟩⟩
  · rw [idle] at owes
    cases owes

theorem disconnected_of_quiet (order : Orderly service) (descriptors : Descriptors service)
    (sessions : Sessions service) (quiet : service.Quiet)
    (last : service.lastCommand = .disconnect) :
    service.native = .down ∧ service.openFds = [] := by
  have obeyed := (order.between quiet.main).1
  have inactive : service.tunnelActive ≠ true := by
    intro active
    cases last.symm.trans (obeyed.mp active)
  constructor
  · cases runs : service.native.engine with
    | none =>
        cases native : service.native with
        | down => rfl
        | _ =>
            rw [native] at runs
            cases runs
    | some engine =>
        rcases sessions.engine engine runs with ⟨present, _⟩ | (⟨fd, stops⟩ | ahead) | watching
        · exact absurd present.1 inactive
        · rw [quiet.disconnect] at stops
          cases stops
        · rw [quiet.main] at ahead
          exact ahead.elim
        · rw [idle_of_quiet order quiet] at watching
          cases watching
  · rw [List.eq_nil_iff_forall_not_mem]
    exact fun fd isOpen => inactive (held_of_quiet order descriptors quiet isOpen).2

theorem connected_of_quiet (order : Orderly service) (descriptors : Descriptors service)
    (sessions : Sessions service) (quiet : service.Quiet)
    (last : service.lastCommand = .connect) :
    ∃ engine, service.native = .up engine ∧ service.tunFd = some engine.tun ∧
      ∀ fd, fd ∈ service.openFds ↔ fd = engine.tun := by
  obtain ⟨obeyed, between⟩ := order.between quiet.main
  have notStopping : service.stopping = false := by
    rcases between with ⟨calm, _⟩ | ⟨⟨_, ⟨busy, _⟩ | ⟨_, posted⟩, _⟩, _⟩
    · exact calm.1
    · exact absurd quiet.disconnect busy
    · exact Bool.noConfusion (quiet.posted.symm.trans posted)
  have present : service.Present := by
    refine ⟨obeyed.mpr last, notStopping, ?_⟩
    rw [quiet.main]
    rfl
  have connected : (service.connect service.connectAttempt).connecting = false := by
    rw [idle_of_quiet order quiet]
    rfl
  obtain ⟨engine, fd, runs, _, current, isOpen, dup⟩ :=
    sessions.after present (by simp [quiet.main]) connected
  have dup : engine.tun = fd := by
    refine dup.resolve_right ?_
    rw [quiet.worker]
    rintro ⟨⟩
  subst dup
  refine ⟨engine, ?_, current, fun other => ⟨fun isOpen => ?_, ?_⟩⟩
  · cases native : service.native with
    | down =>
        rw [native] at runs
        cases runs
    | up _ =>
        rw [native] at runs
        cases runs
        rfl
    | rebuilding _ =>
        obtain ⟨old, at_⟩ := sessions.rebuilding _ native
        rw [quiet.worker] at at_
        cases at_
  · have held := (held_of_quiet order descriptors quiet isOpen).1
    exact Option.some.inj (held.symm.trans current)
  · rintro rfl
    exact isOpen

end Quiet

/-- After a punctual run the last command of the user has its way. -/
theorem last_command_settles {start final : Service} {moves : List Move}
    (connected : start.Connected) (run : Run step Punctual start moves final)
    (quiet : final.Quiet) : final.Settled := by
  obtain ⟨order, descriptors, sessions⟩ := invariants_of_run connected run
  exact ⟨disconnected_of_quiet order descriptors sessions quiet,
    connected_of_quiet order descriptors sessions quiet⟩

/-- The service attempt 1 has connected. -/
def connected : Service :=
  { initial with
    tunFd := some 0
    connectAttempt := 1
    tunnelActive := true
    meshAddress := true
    monitoring := true
    native := .up ⟨0, ⟨"{}", 0⟩, 1⟩
    openFds := [0]
    nextFd := 1
    lastCommand := .connect }

theorem connected_is_connected : connected.Connected where
  idle := ⟨rfl, rfl, rfl, fun _ => rfl⟩
  calm := ⟨rfl, rfl, rfl⟩
  wanted := ⟨rfl, rfl⟩
  running := ⟨⟨0, ⟨"{}", 0⟩, 1⟩, rfl, rfl, rfl, rfl, by decide⟩

def smooth : Input := .granted "{}"

def rerouted : Input := { smooth with ipv6Flipped := true }

/-- A Disconnect, a Connect that waits for its end, and then a rebind onto a
new tunnel. -/
def reconnectAndRebind : List Move :=
  .command .disconnect :: List.replicate 9 (.main smooth) ++
    .command .connect :: List.replicate 5 (.main smooth) ++
    [.disconnect, .disconnect, .finishShutdown] ++ List.replicate 7 (.main smooth) ++
    List.replicate 10 (.connect 3 smooth) ++ [.request, .requestClaim] ++
    List.replicate 14 (.worker rerouted) ++ [.reread]

theorem reconnect_and_rebind_settle :
    ∃ final, Run step Punctual connected reconnectAndRebind final ∧ final.Quiet ∧
      final.lastCommand = .connect ∧ final.Settled := by
  obtain ⟨final, run, quiet, last⟩ :
      ∃ final, Run step Punctual connected reconnectAndRebind final ∧ final.Quiet ∧
        final.lastCommand = .connect :=
    exists_run_of_execute (fun final : Service => final.Quiet ∧ final.lastCommand = .connect)
      (by decide +kernel)
  exact ⟨final, run, quiet, last, last_command_settles connected_is_connected run quiet⟩

/-- A rebind that has seen the tunnel active, the whole Disconnect, and the rest
of the rebind. -/
def rebindAcrossDisconnect : List Move :=
  [.request, .requestClaim] ++ List.replicate 7 (.worker rerouted) ++
    .command .disconnect :: List.replicate 9 (.main smooth) ++
    [.disconnect, .disconnect, .finishShutdown, .main smooth, .main smooth] ++
    List.replicate 7 (.worker rerouted) ++ [.reread]

/-- The tunnel of the rebind stays open in `tunFd` after the Disconnect. -/
theorem rebind_outlives_disconnect :
    ∃ start moves final, start.Connected ∧ Run step Succeeds start moves final ∧
      final.Quiet ∧ ¬ final.Settled := by
  obtain ⟨final, run, quiet, last, left⟩ :
      ∃ final, Run step Succeeds connected rebindAcrossDisconnect final ∧ final.Quiet ∧
        final.lastCommand = .disconnect ∧ final.openFds = [1] :=
    exists_run_of_execute (fun final : Service => final.Quiet ∧ final.lastCommand = .disconnect ∧
      final.openFds = [1]) (by decide +kernel)
  refine ⟨connected, _, final, connected_is_connected, run, quiet, fun settled => ?_⟩
  have closed := (settled.1 last).2
  rw [left] at closed
  cases closed

end Fips2Go.VpnService
