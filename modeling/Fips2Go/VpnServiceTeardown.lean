import Fips2Go.VpnService
import Mathlib.Data.Option.Basic

/-!
# One teardown at a time

Where the engine calls succeed, `stopping` accounts for exactly one teardown:
it is with the main looper, with the thread of the shutdown, or in the posted
`finishShutdown`, and until it is over no attempt has a thread.
-/

namespace Fips2Go.VpnService

open GuardedRuns

/-- `establish()` answers with a descriptor, and every engine call succeeds. -/
def Succeeds (service : Service) : Move → Prop
  | .main input => input.ok = true
  | .connect attempt input =>
      input.ok = true ∧
        ∀ config pfd, service.connect attempt = .start config pfd →
          service.native.isRunning = false
  | .worker input =>
      input.ok = true ∧
        (∀ config fd old, service.worker = .notify config fd old →
          service.native.isRunning = true → fd ∈ service.openFds) ∧
        ∀ target, service.native = .rebuilding target → target.tun ∈ service.openFds
  | _ => True

/-- What the last command was, as far as the main looper has obeyed it. -/
def Service.Obeyed (service : Service) : Prop :=
  service.tunnelActive = true ↔ service.lastCommand = .connect

/-- The attempt with the present number has no thread. -/
def Service.Unspawned (service : Service) : Prop :=
  service.connect service.connectAttempt = .idle

/-- No teardown is under way. -/
def Service.Calm (service : Service) : Prop :=
  service.stopping = false ∧ service.disconnect = .idle ∧
    service.finishPosted = false ∧ service.connectQueued = false

/-- A teardown is with its own thread or waits in the message queue. -/
def Service.Away (service : Service) : Prop :=
  service.stopping = true ∧
    (service.disconnect ≠ .idle ∧ service.finishPosted = false ∨
      service.disconnect = .idle ∧ service.finishPosted = true) ∧
    service.Unspawned

/-- A teardown is with the main looper. -/
def Service.Tearing (service : Service) : Prop :=
  service.stopping = true ∧ service.disconnect = .idle ∧
    service.finishPosted = false ∧ service.Unspawned

/-- Between two messages: no teardown, or one that a queued connect may await. -/
def Service.Between (service : Service) : Prop :=
  service.Calm ∧ (service.tunnelActive = false → service.Unspawned) ∨
    service.Away ∧ (service.connectQueued = true ↔ service.tunnelActive = true)

/-- What is so where the main looper stands. -/
def MainOrder (service : Service) : MainPc → Prop
  | .shutdown .clearActive => service.lastCommand = .disconnect ∧ service.Between
  | .shutdown .clearQueued =>
      service.lastCommand = .disconnect ∧ service.tunnelActive = false ∧
        (service.Calm ∨ service.Away)
  | .shutdown .bumpAttempt =>
      service.lastCommand = .disconnect ∧ service.tunnelActive = false ∧
        service.connectQueued = false ∧ (service.Calm ∨ service.Away)
  | .shutdown .clearRebind | .shutdown .claimStopping =>
      service.lastCommand = .disconnect ∧ service.tunnelActive = false ∧
        service.connectQueued = false ∧ (service.Calm ∧ service.Unspawned ∨ service.Away)
  | .shutdown _ =>
      service.lastCommand = .disconnect ∧ service.tunnelActive = false ∧
        service.connectQueued = false ∧ service.Tearing
  | .connectIdentity | .connectActive => service.lastCommand = .connect ∧ service.Between
  | .connectStopping =>
      service.lastCommand = .connect ∧ service.tunnelActive = false ∧ service.Between
  | .queueActive => service.lastCommand = .connect ∧ service.Away
  | .queueSet =>
      service.lastCommand = .connect ∧ service.Away ∧ service.tunnelActive = true
  | .beginBuild | .beginActive _ | .finishIdentity =>
      service.lastCommand = .connect ∧ service.Calm ∧ service.Unspawned
  | .beginRebind _ | .beginAttempt _ =>
      service.lastCommand = .connect ∧ service.Calm ∧ service.Unspawned ∧
        service.tunnelActive = true
  | .finishStopping =>
      service.Obeyed ∧ service.Tearing ∧
        (service.connectQueued = true ↔ service.tunnelActive = true)
  | .finishQueued =>
      service.Obeyed ∧ service.stopping = false ∧ service.disconnect = .idle ∧
        service.finishPosted = false ∧ service.Unspawned ∧
        (service.connectQueued = true ↔ service.tunnelActive = true)
  | _ => service.Obeyed ∧ service.Between

/-- The place of the main looper survives what other threads do. -/
theorem MainOrder.mono {service next : Service} {pc : MainPc} (order : MainOrder service pc)
    (active : next.tunnelActive = service.tunnelActive)
    (queued : next.connectQueued = service.connectQueued)
    (last : next.lastCommand = service.lastCommand)
    (cleared : service.stopping = false ∧ service.disconnect = .idle ∧
        service.finishPosted = false →
      next.stopping = false ∧ next.disconnect = .idle ∧ next.finishPosted = false)
    (away : service.Away → next.Away) (tearing : service.Tearing → next.Tearing)
    (unspawned : service.Unspawned → next.Unspawned) : MainOrder next pc := by
  have calm : service.Calm → next.Calm := by
    rintro ⟨notStopping, idle, notPosted, notQueued⟩
    obtain ⟨notStopping, idle, notPosted⟩ := cleared ⟨notStopping, idle, notPosted⟩
    exact ⟨notStopping, idle, notPosted, queued.trans notQueued⟩
  have obeyed : service.Obeyed → next.Obeyed := by
    unfold Service.Obeyed
    rw [active, last]
    exact id
  have between : service.Between → next.Between := by
    unfold Service.Between
    rw [active, queued]
    exact Or.imp (And.imp calm (fun spawns inactive => unspawned (spawns inactive)))
      (And.imp away id)
  cases pc with
  | shutdown pc =>
      cases pc with
      | clearActive => exact order.imp last.trans between
      | clearQueued =>
          exact order.imp last.trans (And.imp active.trans (Or.imp calm away))
      | bumpAttempt =>
          exact order.imp last.trans
            (And.imp active.trans (And.imp queued.trans (Or.imp calm away)))
      | clearRebind | claimStopping =>
          exact order.imp last.trans (And.imp active.trans
            (And.imp queued.trans (Or.imp (And.imp calm unspawned) away)))
      | _ =>
          exact order.imp last.trans (And.imp active.trans (And.imp queued.trans tearing))
  | connectIdentity | connectActive => exact order.imp last.trans between
  | connectStopping => exact order.imp last.trans (And.imp active.trans between)
  | queueActive => exact order.imp last.trans away
  | queueSet => exact order.imp last.trans (And.imp away active.trans)
  | beginBuild | beginActive config | finishIdentity =>
      exact order.imp last.trans (And.imp calm unspawned)
  | beginRebind config | beginAttempt config =>
      exact order.imp last.trans (And.imp calm (And.imp unspawned active.trans))
  | finishStopping =>
      obtain ⟨obeys, tears, waits⟩ := order
      refine ⟨obeyed obeys, tearing tears, ?_⟩
      rw [queued, active]
      exact waits
  | finishQueued =>
      obtain ⟨obeys, notStopping, idle, notPosted, unspawns, waits⟩ := order
      obtain ⟨notStopping, idle, notPosted⟩ := cleared ⟨notStopping, idle, notPosted⟩
      refine ⟨obeyed obeys, notStopping, idle, notPosted, unspawned unspawns, ?_⟩
      rw [queued, active]
      exact waits
  | _ => exact order.imp obeyed between

structure Orderly (service : Service) : Prop where
  spawned : ∀ attempt, service.connect attempt ≠ .idle → attempt ≤ service.connectAttempt
  successful : ∀ attempt pc, service.connect attempt ≠ .failing pc
  main : MainOrder service service.main

namespace Orderly

variable {service next : Service}

/-- Beyond the counter there are no threads. -/
theorem beyond (inv : Orderly service) :
    service.connect (service.connectAttempt + 1) = .idle := by
  by_contra busy
  have := inv.spawned _ busy
  omega

theorem mainShutdown (inv : Orderly service) {pc : ShutdownPc}
    (at_ : service.main = .shutdown pc) {input : Input}
    (stepTo : mainStep service input = some next) : MainOrder next next.main := by
  have main := inv.main
  rw [at_] at main
  cases pc with
  | clearActive =>
      obtain ⟨last, between⟩ := main
      simp only [mainStep, at_, shutdownStep] at stepTo
      cases stepTo
      refine ⟨last, rfl, ?_⟩
      rcases between with ⟨calm, _⟩ | ⟨away, _⟩
      · exact .inl calm
      · exact .inr away
  | clearQueued =>
      obtain ⟨last, inactive, under⟩ := main
      simp only [mainStep, at_, shutdownStep] at stepTo
      cases stepTo
      refine ⟨last, inactive, rfl, ?_⟩
      rcases under with ⟨notStopping, idle, notPosted, _⟩ | away
      · exact .inl ⟨notStopping, idle, notPosted, rfl⟩
      · exact .inr away
  | bumpAttempt =>
      obtain ⟨last, inactive, notQueued, under⟩ := main
      simp only [mainStep, at_, shutdownStep] at stepTo
      cases stepTo
      refine ⟨last, inactive, notQueued, ?_⟩
      rcases under with calm | ⟨stopping, token, _⟩
      · exact .inl ⟨calm, inv.beyond⟩
      · exact .inr ⟨stopping, token, inv.beyond⟩
  | clearRebind =>
      simp only [mainStep, at_, shutdownStep] at stepTo
      cases stepTo
      exact main
  | claimStopping =>
      obtain ⟨last, inactive, notQueued, under⟩ := main
      by_cases claimed : service.stopping = true
      · simp only [mainStep, at_, shutdownStep] at stepTo
        rw [if_pos claimed] at stepTo
        cases stepTo
        have obeyed : service.Obeyed := by simp [Service.Obeyed, inactive, last]
        rcases under with ⟨⟨notStopping, _⟩, _⟩ | away
        · rw [claimed] at notStopping
          cases notStopping
        · exact ⟨obeyed, .inr ⟨away, by simp [inactive, notQueued]⟩⟩
      · simp only [mainStep, at_, shutdownStep] at stepTo
        rw [if_neg claimed] at stepTo
        cases stepTo
        rcases under with ⟨⟨_, idle, notPosted, _⟩, unspawned⟩ | ⟨stopping, _⟩
        · exact ⟨last, inactive, notQueued, rfl, idle, notPosted, unspawned⟩
        · exact absurd stopping claimed
  | spawnStop fd =>
      obtain ⟨last, inactive, notQueued, stopping, _, notPosted, unspawned⟩ := main
      simp only [mainStep, at_, shutdownStep] at stepTo
      cases stepTo
      have obeyed : service.Obeyed := by simp [Service.Obeyed, inactive, last]
      have away : Service.Away { service with disconnect := .stop fd } :=
        ⟨stopping, .inl ⟨by simp, notPosted⟩, unspawned⟩
      exact ⟨obeyed, .inr ⟨away, by simp [inactive, notQueued]⟩⟩
  | _ =>
      simp only [mainStep, at_, shutdownStep] at stepTo
      cases stepTo
      exact main

/-- The main looper starts at most the next attempt. -/
theorem mainStep_threads {input : Input} (stepTo : mainStep service input = some next) :
    service.connectAttempt ≤ next.connectAttempt ∧
      (next.connect = service.connect ∨
        next.connectAttempt = service.connectAttempt + 1 ∧
          ∃ config, service.main = .beginAttempt config ∧
            next.connect = Function.update service.connect (service.connectAttempt + 1)
              (.enter config)) := by
  cases at_ : service.main with
  | idle => simp [mainStep, at_] at stepTo
  | beginAttempt config =>
      simp only [mainStep, at_] at stepTo
      cases stepTo
      exact ⟨Nat.le_succ _, .inr ⟨rfl, config, rfl, rfl⟩⟩
  | configClaim =>
      obtain ⟨worker, _, _, eq⟩ := claimWorker_claims service
      simp only [mainStep, at_, eq] at stepTo
      cases stepTo
      exact ⟨Nat.le_refl _, .inl rfl⟩
  | shutdown pc =>
      cases pc with
      | bumpAttempt =>
          simp only [mainStep, at_, shutdownStep] at stepTo
          cases stepTo
          exact ⟨Nat.le_succ _, .inl rfl⟩
      | claimStopping =>
          by_cases claimed : service.stopping = true
          all_goals
            simp only [mainStep, at_, shutdownStep, claimed] at stepTo
            cases stepTo
            exact ⟨Nat.le_refl _, .inl rfl⟩
      | _ =>
          simp only [mainStep, at_, shutdownStep] at stepTo
          cases stepTo
          exact ⟨Nat.le_refl _, .inl rfl⟩
  | _ =>
      simp only [mainStep, at_] at stepTo
      repeat' split at stepTo
      all_goals first
        | cases stepTo; done
        | cases stepTo
          exact ⟨Nat.le_refl _, .inl rfl⟩

/-- Each step of the main looper leads to where it says it stands. -/
theorem mainStep (inv : Orderly service) {input : Input} (succeeds : input.ok = true)
    (stepTo : VpnService.mainStep service input = some next) : MainOrder next next.main := by
  have main := inv.main
  cases at_ : service.main with
  | idle => simp [VpnService.mainStep, at_] at stepTo
  | shutdown pc => exact inv.mainShutdown at_ stepTo
  | configActive | configFd | configRunning =>
      rw [at_] at main
      simp only [VpnService.mainStep, at_] at stepTo
      split at stepTo
      all_goals
        cases stepTo
        exact main
  | configDefer | configRequest =>
      rw [at_] at main
      simp only [VpnService.mainStep, at_] at stepTo
      cases stepTo
      exact main
  | configClaim =>
      rw [at_] at main
      obtain ⟨worker, _, _, eq⟩ := claimWorker_claims service
      simp only [VpnService.mainStep, at_, eq] at stepTo
      cases stepTo
      exact main
  | connectIdentity =>
      rw [at_] at main
      simp only [VpnService.mainStep, at_] at stepTo
      rw [if_pos succeeds] at stepTo
      cases stepTo
      exact main
  | connectActive =>
      rw [at_] at main
      obtain ⟨last, between⟩ := main
      simp only [VpnService.mainStep, at_] at stepTo
      split at stepTo
      next active =>
        cases stepTo
        have obeyed : service.Obeyed := by simp [Service.Obeyed, active, last]
        exact ⟨obeyed, between⟩
      next inactive =>
        cases stepTo
        exact ⟨last, by simpa using inactive, between⟩
  | connectStopping =>
      rw [at_] at main
      obtain ⟨last, inactive, between⟩ := main
      simp only [VpnService.mainStep, at_] at stepTo
      split at stepTo
      next stopping =>
        cases stepTo
        rcases between with ⟨⟨notStopping, _⟩, _⟩ | ⟨away, _⟩
        · rw [stopping] at notStopping
          cases notStopping
        · exact ⟨last, away⟩
      next notStopping =>
        cases stepTo
        rcases between with ⟨calm, unspawned⟩ | ⟨⟨stopping, _⟩, _⟩
        · exact ⟨last, calm, unspawned inactive⟩
        · exact absurd stopping notStopping
  | queueActive =>
      rw [at_] at main
      obtain ⟨last, away⟩ := main
      simp only [VpnService.mainStep, at_] at stepTo
      cases stepTo
      exact ⟨last, away, rfl⟩
  | queueSet =>
      rw [at_] at main
      obtain ⟨last, away, active⟩ := main
      simp only [VpnService.mainStep, at_] at stepTo
      cases stepTo
      have obeyed : service.Obeyed := by simp [Service.Obeyed, active, last]
      have queued : true = true ↔ service.tunnelActive = true := by simp [active]
      exact ⟨obeyed, .inr ⟨away, queued⟩⟩
  | beginBuild =>
      rw [at_] at main
      simp only [VpnService.mainStep, at_] at stepTo
      split at stepTo
      next => cases stepTo
      next =>
        cases stepTo
        exact main
  | beginActive config =>
      rw [at_] at main
      obtain ⟨last, calm, unspawned⟩ := main
      simp only [VpnService.mainStep, at_] at stepTo
      cases stepTo
      exact ⟨last, calm, unspawned, rfl⟩
  | beginRebind config =>
      rw [at_] at main
      simp only [VpnService.mainStep, at_] at stepTo
      cases stepTo
      exact main
  | beginAttempt config =>
      rw [at_] at main
      obtain ⟨last, calm, _, active⟩ := main
      simp only [VpnService.mainStep, at_] at stepTo
      cases stepTo
      have obeyed : service.Obeyed := by simp [Service.Obeyed, active, last]
      refine ⟨obeyed, .inl ⟨calm, fun inactive => ?_⟩⟩
      exact Bool.noConfusion (active.symm.trans inactive)
  | finishStopping =>
      rw [at_] at main
      obtain ⟨obeyed, ⟨_, idle, notPosted, unspawned⟩, queued⟩ := main
      simp only [VpnService.mainStep, at_] at stepTo
      cases stepTo
      exact ⟨obeyed, rfl, idle, notPosted, unspawned, queued⟩
  | finishQueued =>
      rw [at_] at main
      obtain ⟨obeyed, notStopping, idle, notPosted, unspawned, queued⟩ := main
      simp only [VpnService.mainStep, at_] at stepTo
      cases stepTo
      by_cases waiting : service.connectQueued = true
      · simp only [waiting, if_true]
        exact ⟨obeyed.mp (queued.mp waiting), ⟨notStopping, idle, notPosted, rfl⟩, unspawned⟩
      · simp only [waiting]
        exact ⟨obeyed, .inl ⟨⟨notStopping, idle, notPosted, rfl⟩, fun _ => unspawned⟩⟩
  | finishIdentity =>
      rw [at_] at main
      simp only [VpnService.mainStep, at_] at stepTo
      rw [if_pos succeeds] at stepTo
      cases stepTo
      exact main

theorem spawned_update (inv : Orderly service) {attempt : Nat} (pc : ConnectPc)
    (busy : service.connect attempt ≠ .idle) (other : Nat)
    (running : Function.update service.connect attempt pc other ≠ .idle) :
    other ≤ service.connectAttempt := by
  by_cases own : other = attempt
  · exact own ▸ inv.spawned attempt busy
  · rw [Function.update_of_ne own] at running
    exact inv.spawned other running

/-- A connect thread that succeeds leaves the orders alone. -/
theorem connectStep_frame {attempt : Nat} {input : Input}
    (successful : ∀ pc, service.connect attempt ≠ .failing pc)
    (succeeds : Succeeds service (.connect attempt input))
    (stepTo : connectStep service attempt input = some next) :
    service.connect attempt ≠ .idle ∧
      (∃ pc, next.connect = Function.update service.connect attempt pc ∧
        ∀ failure, pc ≠ .failing failure) ∧
      next.main = service.main ∧ next.connectAttempt = service.connectAttempt ∧
      next.tunnelActive = service.tunnelActive ∧
      next.connectQueued = service.connectQueued ∧ next.stopping = service.stopping ∧
      next.disconnect = service.disconnect ∧ next.finishPosted = service.finishPosted ∧
      next.lastCommand = service.lastCommand := by
  cases at_ : service.connect attempt with
  | idle => simp [connectStep, at_] at stepTo
  | failing pc => exact absurd at_ (successful pc)
  | requestClaim =>
      obtain ⟨worker, _, _, eq⟩ := claimWorker_claims service
      simp only [connectStep, at_, eq] at stepTo
      cases stepTo
      exact ⟨by simp, ⟨.idle, rfl, by simp⟩, rfl, rfl, rfl, rfl, rfl, rfl, rfl, rfl⟩
  | establish config =>
      simp only [connectStep, at_] at stepTo
      rw [if_pos succeeds.1] at stepTo
      cases stepTo
      exact ⟨by simp, ⟨_, rfl, by simp⟩, rfl, rfl, rfl, rfl, rfl, rfl, rfl, rfl⟩
  | start config pfd =>
      have notRunning := succeeds.2 config pfd at_
      simp only [connectStep, at_] at stepTo
      split at stepTo
      next => cases stepTo
      next =>
        split at stepTo
        next => cases stepTo
        next engine up =>
          rw [up] at notRunning
          cases notRunning
        next =>
          rw [if_pos succeeds.1] at stepTo
          cases stepTo
          exact ⟨by simp, ⟨_, rfl, by simp⟩, rfl, rfl, rfl, rfl, rfl, rfl, rfl, rfl⟩
  | consume =>
      simp only [connectStep, at_] at stepTo
      cases stepTo
      refine ⟨by simp, ⟨_, rfl, ?_⟩, rfl, rfl, rfl, rfl, rfl, rfl, rfl, rfl⟩
      split <;> simp
  | _ =>
      simp only [connectStep, at_] at stepTo
      repeat' split at stepTo
      all_goals first
        | cases stepTo; done
        | cases stepTo
          exact ⟨by simp, ⟨_, rfl, by simp⟩, rfl, rfl, rfl, rfl, rfl, rfl, rfl, rfl⟩

theorem connectStep (inv : Orderly service) {attempt : Nat} {input : Input}
    (succeeds : Succeeds service (.connect attempt input))
    (stepTo : VpnService.connectStep service attempt input = some next) : Orderly next := by
  obtain ⟨busy, ⟨pc, moved, goesOn⟩, main, counter, active, queued, stopping, disconnect,
    posted, last⟩ := connectStep_frame (inv.successful attempt) succeeds stepTo
  have unspawned : service.Unspawned → next.Unspawned := by
    intro unspawned
    have other : service.connectAttempt ≠ attempt := fun own => busy (own ▸ unspawned)
    unfold Service.Unspawned
    rw [moved, counter, Function.update_of_ne other]
    exact unspawned
  constructor
  case spawned =>
    rw [moved, counter]
    exact inv.spawned_update pc busy
  case successful =>
    intro other failure
    rw [moved]
    by_cases own : other = attempt
    · rw [own, Function.update_self]
      exact goesOn failure
    · rw [Function.update_of_ne own]
      exact inv.successful other failure
  case main =>
    rw [main]
    apply inv.main.mono active queued last _ _ _ unspawned
    · rw [stopping, disconnect, posted]
      exact id
    · rintro ⟨stops, token, unspawns⟩
      exact ⟨stopping.trans stops, by rwa [disconnect, posted], unspawned unspawns⟩
    · rintro ⟨stops, idle, notPosted, unspawns⟩
      exact ⟨stopping.trans stops, disconnect.trans idle, posted.trans notPosted,
        unspawned unspawns⟩

/-- The thread of a shutdown ends by posting `finishShutdown`. -/
theorem disconnectStep (inv : Orderly service)
    (stepTo : VpnService.disconnectStep service = some next) : Orderly next := by
  have handsOn {disconnect : DisconnectPc} {finishPosted : Bool} {native : Native}
      {openFds : List Nat} (busy : service.disconnect ≠ .idle)
      (token : service.finishPosted = false →
        disconnect ≠ .idle ∧ finishPosted = false ∨
          disconnect = .idle ∧ finishPosted = true) :
      Orderly { service with
        disconnect := disconnect, finishPosted := finishPosted, native := native
        openFds := openFds } := by
    refine ⟨inv.spawned, inv.successful, inv.main.mono rfl rfl rfl ?_ ?_ ?_ id⟩
    · exact fun cleared => absurd cleared.2.1 busy
    · rintro ⟨stopping, ⟨_, notPosted⟩ | ⟨idle, _⟩, unspawned⟩
      · exact ⟨stopping, token notPosted, unspawned⟩
      · exact absurd idle busy
    · exact fun tearing => absurd tearing.2.1 busy
  rcases disconnectStep_cases stepTo with ⟨fd, at_, _, rfl⟩ | ⟨fd, at_, rfl⟩
  · exact handsOn (by simp [at_]) (fun notPosted => .inl ⟨by simp, notPosted⟩)
  · obtain ⟨openFds, closed⟩ := closeOpt_eq service fd
    rw [closed]
    exact handsOn (by simp [at_]) (fun _ => .inr ⟨rfl, rfl⟩)

theorem workerStep (inv : Orderly service) {input : Input}
    (stepTo : VpnService.workerStep service input = some next) : Orderly next := by
  obtain ⟨_, _, _, _, _, _, _, rfl⟩ := workerStep_frame stepTo
  exact ⟨inv.spawned, inv.successful, inv.main⟩

/-- Commands and messages are taken between two others. -/
theorem between (inv : Orderly service) (idle : service.main = .idle) :
    service.Obeyed ∧ service.Between := by
  have main := inv.main
  rw [idle] at main
  exact main

theorem step (inv : Orderly service) {move : Move} (succeeds : Succeeds service move)
    (stepTo : VpnService.step service move = some next) : Orderly next := by
  cases move with
  | connect attempt input => exact inv.connectStep succeeds stepTo
  | disconnect => exact inv.disconnectStep stepTo
  | worker input => exact inv.workerStep stepTo
  | main input =>
      obtain ⟨counter, same | ⟨counted, config, _, started⟩⟩ := mainStep_threads stepTo
      · refine ⟨fun attempt busy => ?_, same ▸ inv.successful, inv.mainStep succeeds stepTo⟩
        exact Nat.le_trans (inv.spawned attempt (same ▸ busy)) counter
      · refine ⟨?_, ?_, inv.mainStep succeeds stepTo⟩
        · intro attempt busy
          rw [counted]
          by_cases own : attempt = service.connectAttempt + 1
          · exact Nat.le_of_eq own
          · rw [started, Function.update_of_ne own] at busy
            exact Nat.le_succ_of_le (inv.spawned attempt busy)
        · intro attempt failure
          rw [started]
          by_cases own : attempt = service.connectAttempt + 1
          · simp [own]
          · rw [Function.update_of_ne own]
            exact inv.successful attempt failure
  | command command =>
      simp only [VpnService.step] at stepTo
      split at stepTo
      next idle =>
        obtain ⟨obeyed, between⟩ := inv.between idle
        cases stepTo
        cases command with
        | connect => exact ⟨inv.spawned, inv.successful, rfl, between⟩
        | disconnect => exact ⟨inv.spawned, inv.successful, rfl, between⟩
        | configChanged => exact ⟨inv.spawned, inv.successful, obeyed, between⟩
      next => cases stepTo
  | finishShutdown =>
      simp only [VpnService.step] at stepTo
      split at stepTo
      next posted =>
        obtain ⟨obeyed, between⟩ := inv.between posted.1
        cases stepTo
        rcases between with ⟨⟨_, _, notPosted, _⟩, _⟩ |
          ⟨⟨stopping, ⟨_, notPosted⟩ | ⟨idle, _⟩, unspawned⟩, waits⟩
        · rw [notPosted] at posted
          cases posted.2
        · rw [notPosted] at posted
          cases posted.2
        · exact ⟨inv.spawned, inv.successful, obeyed, ⟨stopping, idle, rfl, unspawned⟩, waits⟩
      next => cases stepTo
  | request | reread =>
      simp only [VpnService.step] at stepTo
      split at stepTo
      next =>
        cases stepTo
        exact ⟨inv.spawned, inv.successful, inv.main⟩
      next => cases stepTo
  | requestClaim | reclaim =>
      obtain ⟨worker, _, _, eq⟩ := claimWorker_claims service
      simp only [VpnService.step, eq] at stepTo
      split at stepTo
      next =>
        cases stepTo
        exact ⟨inv.spawned, inv.successful, inv.main⟩
      next => cases stepTo

end Orderly

end Fips2Go.VpnService
