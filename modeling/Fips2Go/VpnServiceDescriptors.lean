import Fips2Go.HandleLedger
import Fips2Go.VpnServiceTeardown

/-!
# Who closes which descriptor

The threads of the service and `tunFd` as a ledger of handles: `tunFd` is the
slot, an established descriptor is fresh until it is assigned, and whoever has
taken one out of `tunFd` owes its closing.  The guards of this file are the
places where the code acts on an older look at the state.
-/

namespace Fips2Go.VpnService

open GuardedRuns HandleLedger

inductive Holder where
  | looper
  | teardown
  | rebind
  | attempt (number : Nat)
  deriving DecidableEq, Repr

def ConnectPc.role : ConnectPc → Role
  | .check _ pfd | .replace _ pfd | .adopt _ pfd => ⟨some pfd, none, none⟩
  | .closeOld _ pfd old => ⟨some pfd, some old, none⟩
  | .start _ pfd | .started pfd | .lateStop pfd | .disown pfd | .disownSet pfd =>
      ⟨none, some pfd, none⟩
  | .closeOwn pfd => ⟨none, none, some pfd⟩
  | _ => .nothing

def WorkerPc.role : WorkerPc → Role
  | .recheck _ fresh | .closeFresh fresh | .readOld _ fresh =>
      ⟨some fresh, Option.none, Option.none⟩
  | .adopt _ fresh old => ⟨some fresh, old, Option.none⟩
  | .handle _ _ old | .notify _ _ old | .rebuilding old | .closeOld old =>
      ⟨Option.none, Option.none, old⟩
  | _ => .nothing

def MainPc.role : MainPc → Role
  | .shutdown (.clearFd fd) => ⟨none, fd, none⟩
  | .shutdown (.spawnStop fd) => ⟨none, none, fd⟩
  | _ => .nothing

def DisconnectPc.role : DisconnectPc → Role
  | .idle => .nothing
  | .stop fd | .close fd => ⟨none, none, fd⟩

def Service.role (service : Service) : Holder → Role
  | .looper => service.main.role
  | .teardown => service.disconnect.role
  | .rebind => service.worker.role
  | .attempt number => (service.connect number).role

def Service.ledger (service : Service) : Ledger Holder where
  slot := service.tunFd
  opened := service.openFds
  next := service.nextFd
  role := service.role

/-- The descriptor a connect thread has assigned to `tunFd` and goes on with. -/
def ConnectPc.adopted : ConnectPc → Option Nat
  | .start _ pfd | .started pfd | .lateStop pfd | .disown pfd | .disownSet pfd => some pfd
  | _ => none

/-- The thread has found that it is not wanted any more. -/
def ConnectPc.late : ConnectPc → Bool
  | .lateStop _ | .disown _ | .disownSet _ | .closeOwn _ => true
  | _ => false

/-- A superseded attempt will close the descriptor at its end. -/
def Service.Answered (service : Service) (fd : Nat) : Prop :=
  ∃ attempt, (service.connect attempt).adopted = some fd ∧ ¬ service.stillWanted attempt

/-- The same once an attempt has moved. -/
def Service.AnsweredAfter (service : Service) (attempt : Nat) (pc : ConnectPc)
    (fd : Nat) : Prop :=
  ∃ other, (Function.update service.connect attempt pc other).adopted = some fd ∧
    ¬ service.stillWanted other

/-- The thread is between its first look at `tunFd` and its last one. -/
def ConnectPc.lingers (tunFd : Option Nat) : ConnectPc → Bool
  | .replace _ _ | .closeOld _ _ _ | .adopt _ _ | .start _ _ | .started _ | .lateStop _
  | .disownSet _ => true
  | .disown pfd => tunFd = some pfd
  | _ => false

/-- The thread is about to assign to `tunFd` whatever it holds by then. -/
def ConnectPc.overwrites : ConnectPc → Bool
  | .closeOld _ _ _ | .adopt _ _ | .disownSet _ => true
  | _ => false

/-- The descriptor in `tunFd` that the assignment takes into account. -/
def ConnectPc.overwritten : ConnectPc → Option Nat
  | .closeOld _ _ old => some old
  | .disownSet pfd => some pfd
  | _ => none

def ConnectPc.starting : ConnectPc → Bool
  | .start _ _ => true
  | _ => false

/-- The main looper is on its way from the end of a teardown, or from the check
that there is none, to the next attempt. -/
def MainPc.opening : MainPc → Bool
  | .beginBuild | .beginActive _ | .beginRebind _ | .beginAttempt _ | .finishQueued
  | .finishIdentity => true
  | _ => false

/-- The attempt with the present number is the session the user wants. -/
def Service.Present (service : Service) : Prop :=
  service.tunnelActive = true ∧ service.stopping = false ∧ service.main.opening = false

/-- Somebody will still look at `tunFd`: a session, the connect about to begin,
or the shutdown that has not taken it yet. -/
def Service.Tended (service : Service) : Prop :=
  match service.main with
  | .shutdown .clearActive | .shutdown .clearQueued | .shutdown .bumpAttempt
  | .shutdown .clearRebind | .shutdown .claimStopping
  | .connectIdentity | .connectActive | .connectStopping => service.stopping = false
  | .shutdown .unregister | .shutdown .takeFd => True
  | .shutdown _ | .queueActive | .queueSet => False
  | .beginBuild | .beginActive _ | .beginRebind _ | .beginAttempt _ | .finishIdentity => True
  | .finishStopping | .finishQueued => service.connectQueued = true
  | _ => service.stopping = false ∧ service.tunnelActive = true

/-- Some attempt that is not wanted is left with the descriptor. -/
def Service.Left (service : Service) (fd : Nat) : Prop :=
  ∃ attempt ≤ service.connectAttempt, ¬ service.stillWanted attempt ∧
    ((service.connect attempt).adopted = some fd ∨ service.connect attempt = .closeOwn fd)

/-- The rebind's assignment to `tunFd` is looked after, and overwrites neither
a descriptor that nobody closes nor an attempt's own view of `tunFd`. -/
structure AdoptsSafely (service : Service) (old : Option Nat) : Prop where
  tended : service.Tended
  replaced : ∀ fd ∈ service.openFds, service.tunFd = some fd →
    old = some fd ∨ service.Left fd
  overwrites : ∀ attempt ≤ service.connectAttempt,
    (service.connect attempt).overwrites = false
  starting : (service.connect service.connectAttempt).starting = false

/-- No thread of an older attempt lingers when a new one starts. -/
def Service.BeginsAlone (service : Service) : MainPc → Prop
  | .beginAttempt _ => ∀ attempt ≤ service.connectAttempt,
      (service.connect attempt).lingers service.tunFd = false
  | _ => True

/-- The rebind adopts safely; it can close the old descriptor if the new one was
closed behind its back; and in a session it hands over the one in `tunFd`. -/
def Service.RebindsSafely (service : Service) : WorkerPc → Prop
  | .adopt _ _ old => AdoptsSafely service old
  | .handle _ fd (some old) =>
      fd ∈ service.openFds ∨ old ∉ service.openFds ∨ service.Left old
  | .notify _ fd _ =>
      service.Present → service.main ≠ .shutdown .clearActive →
        service.native.isRunning = true → service.tunFd = some fd
  | _ => True

/-- What the main looper and the worker must find for their next step. -/
def Timely (service : Service) : Move → Prop
  | .main _ => service.BeginsAlone service.main
  | .worker _ => service.RebindsSafely service.worker
  | _ => True

structure Descriptors (service : Service) : Prop where
  sound : Sound service.ledger service.Answered
  late : ∀ attempt, (service.connect attempt).late = true → ¬ service.stillWanted attempt
  overwritten : ∀ attempt, (service.connect attempt).overwrites = true →
    ∀ fd ∈ service.openFds, service.tunFd = some fd →
      (service.connect attempt).overwritten = some fd
  alone : ∀ attempt other, (service.connect attempt).lingers service.tunFd = true →
    (service.connect other).lingers service.tunFd = true → attempt = other
  present : service.Present → ∀ attempt,
    (service.connect attempt).lingers service.tunFd = true →
      attempt = service.connectAttempt
  untended : ∀ fd, service.tunFd = some fd →
    service.Tended ∨ service.main.role.seen = some fd ∨
      ∃ attempt, (service.connect attempt).adopted = some fd

/-! ### The threads as holders -/

section Roles

variable (service : Service) {next : Service}

theorem role_connect {attempt : Nat} {pc : ConnectPc}
    (moved : next.connect = Function.update service.connect attempt pc)
    (main : next.main = service.main) (disconnect : next.disconnect = service.disconnect)
    (worker : next.worker.role = service.worker.role) :
    next.role = Function.update service.role (.attempt attempt) pc.role := by
  funext holder
  cases holder with
  | attempt number =>
      by_cases own : number = attempt
      · subst own
        simp [Service.role, moved]
      · have other : Holder.attempt number ≠ Holder.attempt attempt := by simpa using own
        simp [Service.role, moved, Function.update_of_ne own, Function.update_of_ne other]
  | looper => simp [Service.role, main]
  | teardown => simp [Service.role, disconnect]
  | rebind => simp [Service.role, worker]

theorem role_worker {role : Role} (moved : next.worker.role = role)
    (main : next.main = service.main) (disconnect : next.disconnect = service.disconnect)
    (connect : next.connect = service.connect) :
    next.role = Function.update service.role .rebind role := by
  funext holder
  cases holder with
  | attempt number => simp [Service.role, connect]
  | looper => simp [Service.role, main]
  | teardown => simp [Service.role, disconnect]
  | rebind => simp [Service.role, moved]

theorem role_main {role : Role} (moved : next.main.role = role)
    (disconnect : next.disconnect = service.disconnect)
    (worker : next.worker.role = service.worker.role)
    (connect : ∀ attempt, (next.connect attempt).role = (service.connect attempt).role) :
    next.role = Function.update service.role .looper role := by
  funext holder
  cases holder with
  | attempt number => simp [Service.role, connect]
  | looper => simp [Service.role, moved]
  | teardown => simp [Service.role, disconnect]
  | rebind => simp [Service.role, worker]

theorem role_disconnect {role : Role} (moved : next.disconnect.role = role)
    (main : next.main = service.main) (worker : next.worker = service.worker)
    (connect : next.connect = service.connect) :
    next.role = Function.update service.role .teardown role := by
  funext holder
  cases holder with
  | attempt number => simp [Service.role, connect]
  | looper => simp [Service.role, main]
  | teardown => simp [Service.role, moved]
  | rebind => simp [Service.role, worker]

theorem sound_moved {holder : Holder} {role : Role} {answered : Nat → Prop}
    (sound : Sound
      ⟨next.tunFd, next.openFds, next.nextFd, Function.update service.role holder role⟩
      answered)
    (moved : next.role = Function.update service.role holder role) :
    Sound next.ledger answered := by
  rw [Service.ledger, moved]
  exact sound

variable {service}

/-- A holder that keeps its role leaves the ledger alone. -/
theorem ledger_same {holder : Holder} {role : Role}
    (moved : next.role = Function.update service.role holder role)
    (same : role = service.role holder) (tun : next.tunFd = service.tunFd)
    (opened : next.openFds = service.openFds) (nextFd : next.nextFd = service.nextFd) :
    next.ledger = service.ledger := by
  rw [Service.ledger, moved, same, Function.update_eq_self, tun, opened, nextFd]
  rfl

theorem idle_of_adopted {pc : ConnectPc} {fd : Nat} (adopted : pc.adopted = some fd) :
    pc ≠ .idle := by
  rintro rfl
  cases adopted

/-- `tunFd` may change to a descriptor of which the thread knows nothing. -/
theorem lingers_mono {before after : Option Nat} {pc : ConnectPc}
    (lingers : pc.lingers after = true)
    (known : ∀ fd, pc.role.Mentions fd → after = some fd → before = some fd) :
    pc.lingers before = true := by
  cases pc with
  | disown pfd =>
      have current : after = some pfd := by simpa [ConnectPc.lingers] using lingers
      simpa [ConnectPc.lingers] using known pfd (.inr (.inl rfl)) current
  | _ => exact lingers

end Roles

/-! ### The session the user wants -/

namespace Orderly

variable {service next : Service}

/-- The attempt with the present number runs only as a session. -/
theorem present_of_wanted (inv : Orderly service) {attempt : Nat}
    (wanted : service.stillWanted attempt) (busy : service.connect attempt ≠ .idle) :
    service.Present := by
  obtain ⟨active, rfl⟩ := wanted
  have main := inv.main
  have calm : service.Calm → service.stopping = false := And.left
  have notAway : ¬ service.Away := fun away => busy away.2.2
  have notTearing : ¬ service.Tearing := fun tearing => busy tearing.2.2.2
  have between : service.Between → service.stopping = false := by
    rintro (⟨calms, _⟩ | ⟨away, _⟩)
    · exact calm calms
    · exact absurd away notAway
  cases at_ : service.main with
  | shutdown pc =>
      rw [at_] at main
      cases pc with
      | clearActive => exact ⟨active, between main.2, by simp [at_, MainPc.opening]⟩
      | _ => exact Bool.noConfusion (active.symm.trans main.2.1)
  | connectIdentity | connectActive =>
      rw [at_] at main
      exact ⟨active, between main.2, by simp [at_, MainPc.opening]⟩
  | connectStopping =>
      rw [at_] at main
      exact Bool.noConfusion (active.symm.trans main.2.1)
  | queueActive =>
      rw [at_] at main
      exact absurd main.2 notAway
  | queueSet =>
      rw [at_] at main
      exact absurd main.2.1 notAway
  | beginBuild | beginActive config | finishIdentity =>
      rw [at_] at main
      exact absurd main.2.2 busy
  | beginRebind config | beginAttempt config =>
      rw [at_] at main
      exact absurd main.2.2.1 busy
  | finishStopping =>
      rw [at_] at main
      exact absurd main.2.1 notTearing
  | finishQueued =>
      rw [at_] at main
      exact absurd main.2.2.2.2.1 busy
  | _ =>
      rw [at_] at main
      exact ⟨active, between main.2, by simp [at_, MainPc.opening]⟩

/-- A session looks at `tunFd`. -/
theorem tended_of_present (inv : Orderly service) (present : service.Present) :
    service.Tended := by
  obtain ⟨active, notStopping, notOpening⟩ := present
  have main := inv.main
  unfold Service.Tended
  cases at_ : service.main with
  | shutdown pc =>
      rw [at_] at main
      cases pc with
      | clearActive => exact notStopping
      | _ => exact Bool.noConfusion (active.symm.trans main.2.1)
  | queueActive =>
      rw [at_] at main
      exact Bool.noConfusion (notStopping.symm.trans main.2.1)
  | queueSet =>
      rw [at_] at main
      exact Bool.noConfusion (notStopping.symm.trans main.2.1.1)
  | finishStopping =>
      rw [at_] at main
      exact Bool.noConfusion (notStopping.symm.trans main.2.1.1)
  | connectIdentity | connectActive | connectStopping => exact notStopping
  | idle | configActive | configFd | configRunning | configDefer | configRequest
  | configClaim => exact ⟨notStopping, active⟩
  | _ => simp [at_, MainPc.opening] at notOpening

/-- No attempt that has a thread comes to be wanted. -/
theorem mainStep_wanes (inv : Orderly service) {input : Input}
    (stepTo : VpnService.mainStep service input = some next) {attempt : Nat}
    (busy : service.connect attempt ≠ .idle) (wanted : next.stillWanted attempt) :
    service.stillWanted attempt := by
  have main := inv.main
  have older : attempt ≠ service.connectAttempt + 1 := by
    rintro rfl
    exact busy inv.beyond
  cases at_ : service.main with
  | idle => simp [VpnService.mainStep, at_] at stepTo
  | shutdown pc =>
      cases pc with
      | clearActive =>
          simp only [VpnService.mainStep, at_, shutdownStep] at stepTo
          cases stepTo
          exact Bool.noConfusion wanted.1
      | bumpAttempt =>
          simp only [VpnService.mainStep, at_, shutdownStep] at stepTo
          cases stepTo
          exact absurd wanted.2.symm older
      | claimStopping =>
          simp only [VpnService.mainStep, at_, shutdownStep] at stepTo
          by_cases claimed : service.stopping = true
          · rw [if_pos claimed] at stepTo
            cases stepTo
            exact wanted
          · rw [if_neg claimed] at stepTo
            cases stepTo
            exact wanted
      | _ =>
          simp only [VpnService.mainStep, at_, shutdownStep] at stepTo
          cases stepTo
          exact wanted
  | configClaim =>
      obtain ⟨worker, _, _, eq⟩ := claimWorker_claims service
      simp only [VpnService.mainStep, at_, eq] at stepTo
      cases stepTo
      exact wanted
  | queueActive =>
      rw [at_] at main
      simp only [VpnService.mainStep, at_] at stepTo
      cases stepTo
      obtain ⟨_, rfl⟩ := wanted
      exact absurd main.2.2.2 busy
  | beginActive config =>
      rw [at_] at main
      simp only [VpnService.mainStep, at_] at stepTo
      cases stepTo
      obtain ⟨_, rfl⟩ := wanted
      exact absurd main.2.2 busy
  | beginAttempt config =>
      simp only [VpnService.mainStep, at_] at stepTo
      cases stepTo
      exact absurd wanted.2.symm older
  | finishIdentity =>
      simp only [VpnService.mainStep, at_] at stepTo
      split at stepTo
      · cases stepTo
        exact wanted
      · cases stepTo
        exact Bool.noConfusion wanted.1
  | _ =>
      simp only [VpnService.mainStep, at_] at stepTo
      repeat' split at stepTo
      all_goals first
        | cases stepTo; done
        | cases stepTo
          exact wanted

/-- Only the start of an attempt makes a session. -/
theorem mainStep_rises (inv : Orderly service) {input : Input}
    (stepTo : VpnService.mainStep service input = some next)
    (waits : ∀ config, service.main ≠ .beginAttempt config) (present : next.Present) :
    service.Present ∧ next.connectAttempt = service.connectAttempt := by
  have main := inv.main
  obtain ⟨active, notStopping, notOpening⟩ := present
  cases at_ : service.main with
  | idle => simp [VpnService.mainStep, at_] at stepTo
  | beginAttempt config => exact absurd at_ (waits config)
  | shutdown pc =>
      rw [at_] at main
      have inactive : pc ≠ .clearActive → service.tunnelActive = false := by
        intro later
        cases pc with
        | clearActive => exact absurd rfl later
        | _ => exact main.2.1
      cases pc with
      | clearActive =>
          simp only [VpnService.mainStep, at_, shutdownStep] at stepTo
          cases stepTo
          exact Bool.noConfusion active
      | claimStopping =>
          by_cases claimed : service.stopping = true
          all_goals
            simp only [VpnService.mainStep, at_, shutdownStep, claimed] at stepTo
            cases stepTo
            exact Bool.noConfusion (active.symm.trans (inactive (by simp)))
      | _ =>
          simp only [VpnService.mainStep, at_, shutdownStep] at stepTo
          cases stepTo
          exact Bool.noConfusion (active.symm.trans (inactive (by simp)))
  | configClaim =>
      obtain ⟨worker, _, _, eq⟩ := claimWorker_claims service
      simp only [VpnService.mainStep, at_, eq] at stepTo
      cases stepTo
      exact ⟨⟨active, notStopping, by simp [at_, MainPc.opening]⟩, rfl⟩
  | configActive | configFd | configRunning | configDefer | configRequest
  | connectIdentity | connectActive =>
      simp only [VpnService.mainStep, at_] at stepTo
      repeat' split at stepTo
      all_goals
        cases stepTo
        exact ⟨⟨active, notStopping, by simp [at_, MainPc.opening]⟩, rfl⟩
  | connectStopping =>
      rw [at_] at main
      simp only [VpnService.mainStep, at_] at stepTo
      split at stepTo
      all_goals
        cases stepTo
        exact Bool.noConfusion (active.symm.trans main.2.1)
  | queueActive =>
      rw [at_] at main
      simp only [VpnService.mainStep, at_] at stepTo
      cases stepTo
      exact Bool.noConfusion (notStopping.symm.trans main.2.1)
  | queueSet =>
      rw [at_] at main
      simp only [VpnService.mainStep, at_] at stepTo
      cases stepTo
      exact Bool.noConfusion (notStopping.symm.trans main.2.1.1)
  | finishQueued =>
      rw [at_] at main
      simp only [VpnService.mainStep, at_] at stepTo
      cases stepTo
      have queued : service.connectQueued = true := main.2.2.2.2.2.mpr active
      simp [queued, MainPc.opening] at notOpening
  | finishIdentity =>
      simp only [VpnService.mainStep, at_] at stepTo
      split at stepTo
      · cases stepTo
        simp [MainPc.opening] at notOpening
      · cases stepTo
        exact Bool.noConfusion active
  | _ =>
      simp only [VpnService.mainStep, at_] at stepTo
      repeat' split at stepTo
      all_goals first
        | cases stepTo; done
        | cases stepTo
          simp [MainPc.opening] at notOpening

/-- The main looper looks after `tunFd` until it takes what is in it. -/
theorem mainStep_tended (inv : Orderly service) {input : Input} (succeeds : input.ok = true)
    (stepTo : VpnService.mainStep service input = some next) (tended : service.Tended) :
    next.Tended ∨ next.main.role.seen = service.tunFd := by
  have main := inv.main
  unfold Service.Tended at tended
  cases at_ : service.main with
  | idle => simp [VpnService.mainStep, at_] at stepTo
  | shutdown pc =>
      rw [at_] at main tended
      cases pc with
      | claimStopping =>
          simp only [VpnService.mainStep, at_, shutdownStep] at stepTo
          rw [if_neg (by simp [tended])] at stepTo
          cases stepTo
          exact .inl trivial
      | takeFd =>
          simp only [VpnService.mainStep, at_, shutdownStep] at stepTo
          cases stepTo
          exact .inr rfl
      | clearFd fd | spawnStop fd => exact tended.elim
      | _ =>
          simp only [VpnService.mainStep, at_, shutdownStep] at stepTo
          cases stepTo
          exact .inl tended
  | configClaim =>
      rw [at_] at tended
      obtain ⟨worker, _, _, eq⟩ := claimWorker_claims service
      simp only [VpnService.mainStep, at_, eq] at stepTo
      cases stepTo
      exact .inl tended
  | connectIdentity =>
      rw [at_] at tended
      simp only [VpnService.mainStep, at_] at stepTo
      rw [if_pos succeeds] at stepTo
      cases stepTo
      exact .inl tended
  | connectActive =>
      rw [at_] at tended
      simp only [VpnService.mainStep, at_] at stepTo
      split at stepTo
      next active =>
        cases stepTo
        exact .inl ⟨tended, active⟩
      next =>
        cases stepTo
        exact .inl tended
  | connectStopping =>
      rw [at_] at tended
      simp only [VpnService.mainStep, at_] at stepTo
      rw [if_neg (by simp [tended])] at stepTo
      cases stepTo
      exact .inl trivial
  | queueActive | queueSet =>
      rw [at_] at tended
      exact tended.elim
  | beginBuild =>
      simp only [VpnService.mainStep, at_] at stepTo
      split at stepTo
      next => cases stepTo
      next =>
        cases stepTo
        exact .inl trivial
  | beginActive config | beginRebind config =>
      simp only [VpnService.mainStep, at_] at stepTo
      cases stepTo
      exact .inl trivial
  | beginAttempt config =>
      rw [at_] at main
      simp only [VpnService.mainStep, at_] at stepTo
      cases stepTo
      exact .inl ⟨main.2.1.1, main.2.2.2⟩
  | finishStopping =>
      rw [at_] at tended
      simp only [VpnService.mainStep, at_] at stepTo
      cases stepTo
      exact .inl tended
  | finishQueued =>
      rw [at_] at tended
      simp only [VpnService.mainStep, at_] at stepTo
      cases stepTo
      simp only [tended, if_true]
      exact .inl trivial
  | finishIdentity =>
      simp only [VpnService.mainStep, at_] at stepTo
      rw [if_pos succeeds] at stepTo
      cases stepTo
      exact .inl trivial
  | _ =>
      rw [at_] at tended
      simp only [VpnService.mainStep, at_] at stepTo
      repeat' split at stepTo
      all_goals
        cases stepTo
        exact .inl tended

end Orderly

/-- What only the main looper changes. -/
def SameSession (service next : Service) : Prop :=
  next.main = service.main ∧ next.tunnelActive = service.tunnelActive ∧
    next.connectAttempt = service.connectAttempt ∧ next.stopping = service.stopping ∧
    next.connectQueued = service.connectQueued

namespace SameSession

variable {service next : Service}

theorem stillWanted (same : SameSession service next) (attempt : Nat) :
    next.stillWanted attempt ↔ service.stillWanted attempt := by
  obtain ⟨_, active, counter, _, _⟩ := same
  simp [Service.stillWanted, active, counter]

theorem present (same : SameSession service next) : next.Present ↔ service.Present := by
  obtain ⟨main, active, _, stopping, _⟩ := same
  simp [Service.Present, main, active, stopping]

theorem tended (same : SameSession service next) : next.Tended ↔ service.Tended := by
  obtain ⟨main, active, _, stopping, queued⟩ := same
  unfold Service.Tended
  rw [main, active, stopping, queued]

end SameSession

namespace Descriptors

variable {service next : Service}

/-- A step of anybody but a connect thread. -/
theorem elsewhere (inv : Descriptors service) (connect : next.connect = service.connect)
    (sound : Sound next.ledger service.Answered)
    (wanes : ∀ attempt, service.connect attempt ≠ .idle → next.stillWanted attempt →
      service.stillWanted attempt)
    (overwritten : ∀ attempt, (service.connect attempt).overwrites = true →
      ∀ fd ∈ next.openFds, next.tunFd = some fd →
        fd ∈ service.openFds ∧ service.tunFd = some fd)
    (known : ∀ attempt fd, (service.connect attempt).role.Mentions fd →
      next.tunFd = some fd → service.tunFd = some fd)
    (rises : next.Present →
      service.Present ∧ next.connectAttempt = service.connectAttempt)
    (untended : ∀ fd, next.tunFd = some fd →
      next.Tended ∨ next.main.role.seen = some fd ∨
        ∃ attempt, (service.connect attempt).adopted = some fd) : Descriptors next where
  sound := by
    refine sound.mono ?_
    rintro fd _ ⟨attempt, adopted, unwanted⟩
    refine ⟨attempt, connect ▸ adopted, fun wanted => unwanted ?_⟩
    exact wanes attempt (idle_of_adopted adopted) wanted
  late := by
    intro attempt late wanted
    rw [connect] at late
    have busy : service.connect attempt ≠ .idle := by
      intro idle
      rw [idle] at late
      cases late
    exact inv.late attempt late (wanes attempt busy wanted)
  overwritten := by
    intro attempt overwrites fd isOpen current
    rw [connect] at overwrites ⊢
    obtain ⟨isOpen, current⟩ := overwritten attempt overwrites fd isOpen current
    exact inv.overwritten attempt overwrites fd isOpen current
  alone := by
    intro attempt other lingers lingers'
    rw [connect] at lingers lingers'
    exact inv.alone attempt other (lingers_mono lingers (known attempt))
      (lingers_mono lingers' (known other))
  present := by
    intro present attempt lingers
    obtain ⟨present, counter⟩ := rises present
    rw [connect] at lingers
    rw [counter]
    exact inv.present present attempt (lingers_mono lingers (known attempt))
  untended := by
    rw [connect]
    exact untended

/-- The worker and the thread of a shutdown, as long as they leave `tunFd`. -/
theorem aside (inv : Descriptors service) (same : SameSession service next)
    (connect : next.connect = service.connect) (sound : Sound next.ledger service.Answered)
    (tun : next.tunFd = service.tunFd)
    (opened : ∀ fd ∈ next.openFds, service.tunFd = some fd → fd ∈ service.openFds) :
    Descriptors next := by
  apply inv.elsewhere connect sound
  case wanes => exact fun attempt _ => (same.stillWanted attempt).mp
  case overwritten =>
    intro _ _ fd isOpen current
    rw [tun] at current
    exact ⟨opened fd isOpen current, current⟩
  case known => exact fun _ _ _ current => tun.symm.trans current
  case rises => exact fun present => ⟨same.present.mp present, same.2.2.1⟩
  case untended =>
    intro fd current
    rw [same.tended, same.1]
    exact inv.untended fd (tun.symm.trans current)

/-- A step after which everybody has the descriptors he had. -/
theorem still (inv : Descriptors service) (same : SameSession service next)
    (connect : next.connect = service.connect) (ledger : next.ledger = service.ledger) :
    Descriptors next := by
  refine inv.aside same connect (ledger ▸ inv.sound) ?_ ?_
  · exact congrArg Ledger.slot ledger
  · have opened : next.openFds = service.openFds := congrArg Ledger.opened ledger
    exact fun fd isOpen _ => opened ▸ isOpen

theorem workerStill (inv : Descriptors service) (same : SameSession service next)
    (connect : next.connect = service.connect)
    (disconnect : next.disconnect = service.disconnect)
    (worker : next.worker.role = service.worker.role) (tun : next.tunFd = service.tunFd)
    (opened : next.openFds = service.openFds) (nextFd : next.nextFd = service.nextFd) :
    Descriptors next :=
  inv.still same connect
    (ledger_same (role_worker service rfl same.1 disconnect connect) worker tun opened nextFd)

/-- A slot that is claimed was empty or had a thread. -/
theorem role_claimed {worker : WorkerPc} (claimed : Claimed service.worker worker) :
    worker.role = service.worker.role := by
  rcases claimed with rfl | ⟨free, rfl⟩
  · rfl
  · rw [free]
    rfl

theorem disconnectStep (inv : Descriptors service)
    (stepTo : VpnService.disconnectStep service = some next) : Descriptors next := by
  rcases disconnectStep_cases stepTo with ⟨fd, at_, _, rfl⟩ | ⟨fd, at_, rfl⟩
  · refine inv.still ⟨rfl, rfl, rfl, rfl, rfl⟩ rfl ?_
    refine ledger_same (role_disconnect service rfl rfl rfl rfl) ?_ rfl rfl rfl
    simp [Service.role, at_, DisconnectPc.role]
  · cases fd with
    | none =>
        refine inv.still ⟨rfl, rfl, rfl, rfl, rfl⟩ rfl ?_
        refine ledger_same (role_disconnect service rfl rfl rfl rfl) ?_ rfl rfl rfl
        simp [Service.role, at_, DisconnectPc.role, Role.nothing]
    | some fd =>
        have owes : service.ledger.role .teardown = ⟨none, none, some fd⟩ := by
          simp [Service.ledger, Service.role, at_, DisconnectPc.role]
        have due : (service.ledger.role .teardown).Mentions fd := by simp [owes, Role.Mentions]
        refine inv.aside ⟨rfl, rfl, rfl, rfl, rfl⟩ rfl ?_ rfl ?_
        · refine sound_moved service ?_ (role_disconnect service rfl rfl rfl rfl)
          refine inv.sound.discard due (by simp [DisconnectPc.role, Role.nothing]) rfl rfl ?_
          intro handle _ kept
          simp [owes, Ne.symm kept]
        · exact fun _ isOpen _ => List.mem_of_mem_filter isOpen

/-- The replacement tunnel is established. -/
theorem workerEstablish (inv : Descriptors service) {config : Option Config}
    (at_ : service.worker = .establish config) :
    Descriptors { service.establish with worker := .recheck config service.nextFd } := by
  have idle : service.ledger.role .rebind = .nothing := by
    simp [Service.ledger, Service.role, at_, WorkerPc.role]
  refine inv.aside ⟨rfl, rfl, rfl, rfl, rfl⟩ rfl ?_ rfl ?_
  · refine sound_moved service ?_ (role_worker service rfl rfl rfl rfl)
    exact inv.sound.acquire idle rfl
  · intro fd isOpen current
    rcases List.mem_cons.mp isOpen with rfl | earlier
    · exact absurd (inv.sound.published _ current) (Nat.lt_irrefl _)
    · exact earlier

theorem workerClose (inv : Descriptors service) {fd : Nat}
    (closes : service.worker.role = ⟨some fd, none, none⟩ ∨
      service.worker.role = ⟨none, none, some fd⟩) :
    Descriptors { service.close fd with worker := .poll } := by
  have mentions : (service.ledger.role .rebind).Mentions fd := by
    show service.worker.role.Mentions fd
    rcases closes with role | role <;> simp [role, Role.Mentions]
  refine inv.aside ⟨rfl, rfl, rfl, rfl, rfl⟩ rfl ?_ rfl ?_
  · refine sound_moved service ?_ (role_worker service rfl rfl rfl rfl)
    refine inv.sound.discard mentions (by simp [WorkerPc.role, Role.nothing]) rfl rfl ?_
    intro handle _ kept
    show service.worker.role.fresh = some handle ∨ service.worker.role.due = some handle → _
    rcases closes with role | role <;> simp [role, Ne.symm kept]
  · exact fun _ isOpen _ => List.mem_of_mem_filter isOpen

theorem workerReadOld (inv : Descriptors service) {config : Option Config} {fresh : Nat}
    (at_ : service.worker = .readOld config fresh) :
    Descriptors { service with worker := .adopt config fresh service.tunFd } := by
  have role : service.ledger.role .rebind = ⟨some fresh, none, none⟩ := by
    simp [Service.ledger, Service.role, at_, WorkerPc.role]
  have unpublished : service.tunFd ≠ some fresh :=
    (inv.sound.fits .rebind).unpublished fresh (by rw [role])
  refine inv.aside ⟨rfl, rfl, rfl, rfl, rfl⟩ rfl ?_ rfl (fun _ isOpen _ => isOpen)
  refine sound_moved service ?_ (role_worker service rfl rfl rfl rfl)
  apply inv.sound.turn
  case fresh =>
    rintro _ ⟨⟩
    exact ⟨by rw [role], unpublished, by simp [WorkerPc.role]⟩
  case known =>
    rintro fd (seen | ⟨⟨⟩⟩)
    exact .inr (.inl seen)
  case withheld => rintro _ ⟨⟩
  case settled =>
    intro fd _
    rw [role]
    rintro (isFresh | ⟨⟨⟩⟩ | answered)
    · exact .inr (.inl (Sound.owed_self (.inl isFresh)))
    · exact .inr (.inr answered)

/-- The rebind assigns its tunnel; the one it replaces is its own to close, or
left to an attempt that is not wanted. -/
theorem workerAdopt (inv : Descriptors service) (order : Orderly service)
    {config : Option Config} {fresh : Nat} {old : Option Nat}
    (at_ : service.worker = .adopt config fresh old) (safely : AdoptsSafely service old) :
    Descriptors { service with tunFd := some fresh, worker := .handle config fresh old } := by
  have role : service.ledger.role .rebind = ⟨some fresh, old, none⟩ := by
    simp [Service.ledger, Service.role, at_, WorkerPc.role]
  have isFresh : (service.ledger.role .rebind).fresh = some fresh := by rw [role]
  have strange (attempt : Nat) : ¬ (service.connect attempt).role.Mentions fresh :=
    inv.sound.alone .rebind fresh isFresh (.attempt attempt) (by simp)
  apply inv.elsewhere
  case connect => rfl
  case sound =>
    refine sound_moved service ?_ (role_worker service rfl rfl rfl rfl)
    refine inv.sound.publish isFresh rfl ?_ ?_ ?_
    · have unseen := ((inv.sound.fits .rebind).unseen fresh isFresh).1
      rwa [role] at unseen
    · rintro fd (⟨⟨⟩⟩ | due)
      rw [role]
      exact .inr (.inl due)
    · intro fd isOpen
      rw [role]
      rintro (current | ⟨⟨⟩⟩ | answered)
      · rcases safely.replaced fd isOpen current with due | ⟨attempt, _, unwanted, left⟩
        · exact .inl (Sound.owed_self (.inr due))
        · rcases left with adopted | closing
          · exact .inr ⟨attempt, adopted, unwanted⟩
          · have owes : (service.role (.attempt attempt)).due = some fd := by
              simp [Service.role, closing, ConnectPc.role]
            exact .inl (Sound.owed_other (by simp) (.inr owes))
      · exact .inr answered
  case wanes => exact fun _ _ => id
  case overwritten =>
    intro attempt overwrites
    have busy : service.connect attempt ≠ .idle := by
      intro idle
      rw [idle] at overwrites
      cases overwrites
    rw [safely.overwrites attempt (order.spawned attempt busy)] at overwrites
    cases overwrites
  case known =>
    rintro attempt _ mentions ⟨⟩
    exact absurd mentions (strange attempt)
  case rises => exact fun present => ⟨present, rfl⟩
  case untended => exact fun _ _ => .inl safely.tended

/-- `.fd` throws: the old tunnel is closed, or left to somebody. -/
theorem workerDies (inv : Descriptors service) {config : Option Config} {fd : Nat}
    {old : Option Nat} (at_ : service.worker = .handle config fd old)
    (settled : ∀ previous, old = some previous →
      previous ∉ service.openFds ∨ service.Left previous) :
    Descriptors { service with worker := .died } := by
  have role : service.ledger.role .rebind = ⟨none, none, old⟩ := by
    simp [Service.ledger, Service.role, at_, WorkerPc.role]
  refine inv.aside ⟨rfl, rfl, rfl, rfl, rfl⟩ rfl ?_ rfl (fun _ isOpen _ => isOpen)
  refine sound_moved service ?_ (role_worker service rfl rfl rfl rfl)
  apply inv.sound.turn
  case fresh => rintro _ ⟨⟩
  case known => rintro _ (⟨⟨⟩⟩ | ⟨⟨⟩⟩)
  case withheld => rintro _ ⟨⟩
  case settled =>
    intro handle isOpen
    rw [role]
    rintro (⟨⟨⟩⟩ | due | answered)
    · rcases settled handle due with closed | ⟨attempt, _, unwanted, adopted | closing⟩
      · exact absurd isOpen closed
      · exact .inr (.inr ⟨attempt, adopted, unwanted⟩)
      · have owes : (service.role (.attempt attempt)).due = some handle := by
          simp [Service.role, closing, ConnectPc.role]
        exact .inr (.inl (Sound.owed_other (by simp) (.inr owes)))
    · exact .inr (.inr answered)

theorem workerStep (inv : Descriptors service) (order : Orderly service) {input : Input}
    (timely : Timely service (.worker input))
    (stepTo : VpnService.workerStep service input = some next) : Descriptors next := by
  unfold Timely Service.RebindsSafely at timely
  cases at_ : service.worker with
  | none => simp [VpnService.workerStep, at_] at stepTo
  | establish config =>
      simp only [VpnService.workerStep, at_] at stepTo
      split at stepTo
      next =>
        cases stepTo
        exact inv.workerEstablish at_
      next =>
        cases stepTo
        exact inv.workerStill ⟨rfl, rfl, rfl, rfl, rfl⟩ rfl rfl (by rw [at_]; rfl) rfl rfl rfl
  | closeFresh fresh =>
      simp only [VpnService.workerStep, at_] at stepTo
      cases stepTo
      exact inv.workerClose (.inl (by rw [at_]; rfl))
  | readOld config fresh =>
      simp only [VpnService.workerStep, at_] at stepTo
      cases stepTo
      exact inv.workerReadOld at_
  | adopt config fresh old =>
      rw [at_] at timely
      simp only [VpnService.workerStep, at_] at stepTo
      cases stepTo
      exact inv.workerAdopt order at_ timely
  | handle config fd old =>
      rw [at_] at timely
      simp only [VpnService.workerStep, at_] at stepTo
      split at stepTo
      next =>
        cases stepTo
        exact inv.workerStill ⟨rfl, rfl, rfl, rfl, rfl⟩ rfl rfl (by rw [at_]; rfl) rfl rfl rfl
      next closed =>
        cases stepTo
        apply inv.workerDies at_
        rintro previous rfl
        exact timely.resolve_left closed
  | closeOld old =>
      simp only [VpnService.workerStep, at_] at stepTo
      cases stepTo
      cases old with
      | none =>
          exact inv.workerStill ⟨rfl, rfl, rfl, rfl, rfl⟩ rfl rfl (by rw [at_]; rfl) rfl rfl rfl
      | some old => exact inv.workerClose (.inr (by rw [at_]; rfl))
  | _ =>
      simp only [VpnService.workerStep, at_] at stepTo
      repeat' split at stepTo
      all_goals first
        | cases stepTo; done
        | cases stepTo
          exact inv.workerStill ⟨rfl, rfl, rfl, rfl, rfl⟩ rfl rfl (by rw [at_]; rfl)
            rfl rfl rfl

/-- The main looper, as long as it leaves `tunFd` and the attempts. -/
theorem mainAside (inv : Descriptors service) (order : Orderly service) {input : Input}
    (succeeds : input.ok = true) (stepTo : VpnService.mainStep service input = some next)
    (waits : ∀ config, service.main ≠ .beginAttempt config)
    (unseen : service.main.role.seen = none) (connect : next.connect = service.connect)
    (sound : Sound next.ledger service.Answered) (tun : next.tunFd = service.tunFd)
    (opened : next.openFds = service.openFds) : Descriptors next := by
  apply inv.elsewhere connect sound
  case wanes => exact fun attempt busy wanted => order.mainStep_wanes stepTo busy wanted
  case overwritten =>
    rw [opened, tun]
    exact fun _ _ fd isOpen current => ⟨isOpen, current⟩
  case known =>
    rw [tun]
    exact fun _ _ _ current => current
  case rises => exact order.mainStep_rises stepTo waits
  case untended =>
    rw [tun]
    intro fd current
    rcases inv.untended fd current with tended | seen | adopted
    · rcases order.mainStep_tended succeeds stepTo tended with tended | taken
      · exact .inl tended
      · exact .inr (.inl (taken.trans current))
    · rw [unseen] at seen
      cases seen
    · exact .inr (.inr adopted)

theorem mainStill (inv : Descriptors service) (order : Orderly service) {input : Input}
    (succeeds : input.ok = true) (stepTo : VpnService.mainStep service input = some next)
    (waits : ∀ config, service.main ≠ .beginAttempt config)
    (role : service.main.role = .nothing) (main : next.main.role = .nothing)
    (connect : next.connect = service.connect)
    (disconnect : next.disconnect = service.disconnect)
    (worker : next.worker.role = service.worker.role) (tun : next.tunFd = service.tunFd)
    (opened : next.openFds = service.openFds) (nextFd : next.nextFd = service.nextFd) :
    Descriptors next := by
  refine inv.mainAside order succeeds stepTo waits (by rw [role]; rfl) connect ?_ tun opened
  have same : next.ledger = service.ledger := by
    refine ledger_same (role_main service main disconnect worker ?_) role.symm tun opened nextFd
    rw [connect]
    exact fun _ => rfl
  exact same ▸ inv.sound

/-- The shutdown reads `tunFd`. -/
theorem mainTakeFd (inv : Descriptors service) (at_ : service.main = .shutdown .takeFd) :
    Sound { service with main := .shutdown (.clearFd service.tunFd) }.ledger
      service.Answered := by
  have role : service.ledger.role .looper = .nothing := by
    simp [Service.ledger, Service.role, at_, MainPc.role]
  refine sound_moved service ?_ (role_main service rfl rfl rfl (fun _ => rfl))
  apply inv.sound.turn
  case fresh => rintro _ ⟨⟩
  case known =>
    rintro fd (seen | ⟨⟨⟩⟩)
    exact .inr (.inl seen)
  case withheld => rintro _ ⟨⟩
  case settled =>
    intro fd _
    rw [role]
    rintro (⟨⟨⟩⟩ | ⟨⟨⟩⟩ | answered)
    exact .inr (.inr answered)

/-- The shutdown empties `tunFd`; what an attempt has put there since is that
attempt's to close. -/
theorem mainClearFd (inv : Descriptors service) (order : Orderly service)
    {fd : Option Nat} (at_ : service.main = .shutdown (.clearFd fd)) :
    Descriptors { service with tunFd := none, main := .shutdown (.spawnStop fd) } := by
  have main := order.main
  rw [at_] at main
  have inactive : service.tunnelActive = false := main.2.1
  have role : service.ledger.role .looper = ⟨none, fd, none⟩ := by
    simp [Service.ledger, Service.role, at_, MainPc.role]
  apply inv.elsewhere
  case connect => rfl
  case sound =>
    refine sound_moved service ?_ (role_main service rfl rfl rfl (fun _ => rfl))
    refine inv.sound.withdraw rfl ?_ ?_
    · rintro other (⟨⟨⟩⟩ | due)
      rw [role]
      exact .inr (.inl due)
    · intro other _
      rw [role]
      rintro (current | ⟨⟨⟩⟩ | ⟨⟨⟩⟩ | answered)
      · rcases inv.untended other current with tended | seen | ⟨attempt, adopted⟩
        · simp [Service.Tended, at_] at tended
        · rw [at_] at seen
          exact .inl (Sound.owed_self (.inr seen))
        · refine .inr ⟨attempt, adopted, fun wanted => ?_⟩
          exact Bool.noConfusion (inactive.symm.trans wanted.1)
      · exact .inr answered
  case wanes => exact fun _ _ => id
  case overwritten => rintro _ _ _ _ ⟨⟩
  case known => rintro _ _ _ ⟨⟩
  case rises => exact fun present => Bool.noConfusion (inactive.symm.trans present.1)
  case untended => rintro _ ⟨⟩

/-- The thread of the shutdown takes over the closing. -/
theorem mainSpawnStop (inv : Descriptors service) (order : Orderly service)
    {fd : Option Nat} (at_ : service.main = .shutdown (.spawnStop fd)) :
    Sound { service with disconnect := .stop fd, main := .idle }.ledger
      service.Answered := by
  have main := order.main
  rw [at_] at main
  have looper : service.ledger.role .looper = ⟨none, none, fd⟩ := by
    simp [Service.ledger, Service.role, at_, MainPc.role]
  have teardown : service.ledger.role .teardown = .nothing := by
    simp [Service.ledger, Service.role, main.2.2.2.2.1, DisconnectPc.role]
  have shared : Sound { service with disconnect := .stop fd }.ledger service.Answered := by
    refine sound_moved service ?_ (role_disconnect service rfl rfl rfl rfl)
    apply inv.sound.turn
    case fresh => rintro _ ⟨⟩
    case known =>
      rintro handle (⟨⟨⟩⟩ | due)
      exact .inr (.inr ⟨.looper, by rw [looper]; exact due⟩)
    case withheld =>
      intro handle due
      exact (inv.sound.fits .looper).withheld handle (by rw [looper]; exact due)
    case settled =>
      intro handle _
      rw [teardown]
      rintro (⟨⟨⟩⟩ | ⟨⟨⟩⟩ | answered)
      exact .inr (.inr answered)
  refine sound_moved { service with disconnect := .stop fd } ?_
    (role_main _ rfl rfl rfl (fun _ => rfl))
  apply shared.turn
  case fresh => rintro _ ⟨⟩
  case known => rintro _ (⟨⟨⟩⟩ | ⟨⟨⟩⟩)
  case withheld => rintro _ ⟨⟩
  case settled =>
    intro handle _
    change (service.ledger.role .looper).fresh = _ ∨ (service.ledger.role .looper).due = _ ∨ _ → _
    rw [looper]
    rintro (⟨⟨⟩⟩ | due | answered)
    · exact .inr (.inl ⟨.teardown, .inr due⟩)
    · exact .inr (.inr answered)

/-- A new attempt starts where no older one lingers. -/
theorem mainBeginAttempt (inv : Descriptors service) (order : Orderly service)
    {config : Config}
    (cleared : ∀ attempt ≤ service.connectAttempt,
      (service.connect attempt).lingers service.tunFd = false)
    (counter : next.connectAttempt = service.connectAttempt + 1)
    (started : next.connect = Function.update service.connect (service.connectAttempt + 1)
      (.enter config))
    (ledger : next.ledger = service.ledger) (tended : next.Tended) : Descriptors next := by
  have tun : next.tunFd = service.tunFd := congrArg Ledger.slot ledger
  have opened : next.openFds = service.openFds := congrArg Ledger.opened ledger
  have threads (attempt : Nat) : next.connect attempt = .enter config ∨
      next.connect attempt = service.connect attempt ∧ ¬ next.stillWanted attempt := by
    rw [started]
    by_cases own : attempt = service.connectAttempt + 1
    · exact .inl (by rw [own, Function.update_self])
    · exact .inr ⟨Function.update_of_ne own .., fun wanted => own (wanted.2.symm.trans counter)⟩
  have still (attempt : Nat) : (next.connect attempt).lingers next.tunFd = false := by
    rcases threads attempt with new | ⟨same, _⟩
    · rw [new]
      rfl
    · rw [same, tun]
      by_cases idle : service.connect attempt = .idle
      · rw [idle]
        rfl
      · exact cleared attempt (order.spawned attempt idle)
  constructor
  case sound =>
    rw [ledger]
    refine inv.sound.mono ?_
    rintro fd _ ⟨attempt, adopted, _⟩
    have older : attempt ≠ service.connectAttempt + 1 := by
      rintro rfl
      exact idle_of_adopted adopted order.beyond
    refine ⟨attempt, ?_, fun wanted => older (wanted.2.symm.trans counter)⟩
    rw [started, Function.update_of_ne older]
    exact adopted
  case late =>
    intro attempt late
    rcases threads attempt with new | ⟨_, unwanted⟩
    · rw [new] at late
      cases late
    · exact unwanted
  case overwritten =>
    intro attempt overwrites
    rcases threads attempt with new | ⟨same, _⟩
    · rw [new] at overwrites
      cases overwrites
    · rw [same] at overwrites ⊢
      rw [opened, tun]
      exact inv.overwritten attempt overwrites
  case alone =>
    intro attempt _ lingers
    exact Bool.noConfusion ((still attempt).symm.trans lingers)
  case present =>
    intro _ attempt lingers
    exact Bool.noConfusion ((still attempt).symm.trans lingers)
  case untended => exact fun _ _ => .inl tended

theorem mainStep (inv : Descriptors service) (order : Orderly service) {input : Input}
    (succeeds : input.ok = true) (timely : Timely service (.main input))
    (stepTo : VpnService.mainStep service input = some next) : Descriptors next := by
  have moved := stepTo
  unfold Timely Service.BeginsAlone at timely
  cases at_ : service.main with
  | idle => simp [VpnService.mainStep, at_] at stepTo
  | beginAttempt config =>
      have main := order.main
      rw [at_] at timely main
      simp only [VpnService.mainStep, at_] at stepTo
      cases stepTo
      refine inv.mainBeginAttempt order timely rfl rfl ?_ ⟨main.2.1.1, main.2.2.2⟩
      refine ledger_same (role_main service rfl rfl rfl fun attempt => ?_) ?_ rfl rfl rfl
      · by_cases own : attempt = service.connectAttempt + 1
        · simp [own, order.beyond, ConnectPc.role]
        · simp [Function.update_of_ne own]
      · simp [Service.role, at_, MainPc.role]
  | configClaim =>
      obtain ⟨worker, claimed, _, eq⟩ := claimWorker_claims service
      simp only [VpnService.mainStep, at_, eq] at stepTo
      cases stepTo
      exact inv.mainStill order succeeds moved (by simp [at_]) (by rw [at_]; rfl) rfl rfl rfl
        (role_claimed claimed) rfl rfl rfl
  | finishQueued =>
      simp only [VpnService.mainStep, at_] at stepTo
      cases stepTo
      exact inv.mainStill order succeeds moved (by simp [at_]) (by rw [at_]; rfl)
        (by simp only; split <;> rfl) rfl rfl rfl rfl rfl rfl
  | shutdown pc =>
      cases pc with
      | takeFd =>
          simp only [VpnService.mainStep, at_, shutdownStep] at stepTo
          cases stepTo
          exact inv.mainAside order succeeds moved (by simp [at_]) (by rw [at_]; rfl) rfl
            (inv.mainTakeFd at_) rfl rfl
      | clearFd fd =>
          simp only [VpnService.mainStep, at_, shutdownStep] at stepTo
          cases stepTo
          exact inv.mainClearFd order at_
      | spawnStop fd =>
          simp only [VpnService.mainStep, at_, shutdownStep] at stepTo
          cases stepTo
          exact inv.mainAside order succeeds moved (by simp [at_]) (by rw [at_]; rfl) rfl
            (inv.mainSpawnStop order at_) rfl rfl
      | claimStopping =>
          by_cases claimed : service.stopping = true
          all_goals
            simp only [VpnService.mainStep, at_, shutdownStep, claimed] at stepTo
            cases stepTo
            exact inv.mainStill order succeeds moved (by simp [at_]) (by rw [at_]; rfl) rfl rfl
              rfl rfl rfl rfl rfl
      | _ =>
          simp only [VpnService.mainStep, at_, shutdownStep] at stepTo
          cases stepTo
          exact inv.mainStill order succeeds moved (by simp [at_]) (by rw [at_]; rfl) rfl rfl
            rfl rfl rfl rfl rfl
  | _ =>
      simp only [VpnService.mainStep, at_] at stepTo
      repeat' split at stepTo
      all_goals first
        | cases stepTo; done
        | cases stepTo
          exact inv.mainStill order succeeds moved (by simp [at_]) (by rw [at_]; rfl) rfl rfl
            rfl rfl rfl rfl rfl

theorem answered_after {attempt : Nat} {pc : ConnectPc} {fd : Nat}
    (own : (service.connect attempt).adopted = some fd → ¬ service.stillWanted attempt →
      pc.adopted = some fd) (answered : service.Answered fd) :
    service.AnsweredAfter attempt pc fd := by
  obtain ⟨other, adopted, unwanted⟩ := answered
  refine ⟨other, ?_, unwanted⟩
  by_cases same : other = attempt
  · subst same
    rw [Function.update_self]
    exact own adopted unwanted
  · rw [Function.update_of_ne same]
    exact adopted

/-- A step of a connect thread. -/
theorem attempt (inv : Descriptors service) (order : Orderly service) {attempt : Nat}
    {pc : ConnectPc} (busy : service.connect attempt ≠ .idle)
    (same : SameSession service next)
    (moved : next.connect = Function.update service.connect attempt pc)
    (sound : Sound next.ledger (service.AnsweredAfter attempt pc))
    (late : pc.late = true → ¬ service.stillWanted attempt)
    (overwritten : pc.overwrites = true → ∀ fd ∈ next.openFds, next.tunFd = some fd →
      pc.overwritten = some fd)
    (others : ∀ other ≠ attempt, (service.connect other).overwrites = true →
      ∀ fd ∈ next.openFds, next.tunFd = some fd →
        fd ∈ service.openFds ∧ service.tunFd = some fd)
    (known : ∀ other ≠ attempt, ∀ fd, (service.connect other).role.Mentions fd →
      next.tunFd = some fd → service.tunFd = some fd)
    (lingers : pc.lingers next.tunFd = true →
      (service.connect attempt).lingers service.tunFd = true ∨ service.stillWanted attempt)
    (untended : ∀ fd, next.tunFd = some fd →
      service.Tended ∨ service.main.role.seen = some fd ∨ pc.adopted = some fd ∨
        ∃ other ≠ attempt, (service.connect other).adopted = some fd) :
    Descriptors next := by
  have lingered (other : Nat) (lingering : (next.connect other).lingers next.tunFd = true) :
      (service.connect other).lingers service.tunFd = true ∨
        other = attempt ∧ service.stillWanted attempt := by
    by_cases own : other = attempt
    · subst own
      rw [moved, Function.update_self] at lingering
      exact (lingers lingering).imp_right (fun wanted => ⟨rfl, wanted⟩)
    · rw [moved, Function.update_of_ne own] at lingering
      exact .inl (lingers_mono lingering (known other own))
  have newest (wanted : service.stillWanted attempt) (other : Nat)
      (lingering : (service.connect other).lingers service.tunFd = true) : other = attempt :=
    (inv.present (order.present_of_wanted wanted busy) other lingering).trans wanted.2
  constructor
  case sound =>
    refine sound.mono ?_
    rintro fd _ ⟨other, adopted, unwanted⟩
    rw [← moved] at adopted
    exact ⟨other, adopted, fun wanted => unwanted ((same.stillWanted other).mp wanted)⟩
  case late =>
    intro other isLate
    rw [same.stillWanted]
    by_cases own : other = attempt
    · subst own
      rw [moved, Function.update_self] at isLate
      exact late isLate
    · rw [moved, Function.update_of_ne own] at isLate
      exact inv.late other isLate
  case overwritten =>
    intro other overwrites fd isOpen current
    by_cases own : other = attempt
    · subst own
      rw [moved, Function.update_self] at overwrites ⊢
      exact overwritten overwrites fd isOpen current
    · rw [moved, Function.update_of_ne own] at overwrites ⊢
      obtain ⟨isOpen, current⟩ := others other own overwrites fd isOpen current
      exact inv.overwritten other overwrites fd isOpen current
  case alone =>
    intro one other first second
    rcases lingered one first with first | ⟨rfl, wanted⟩
    · rcases lingered other second with second | ⟨rfl, wanted⟩
      · exact inv.alone one other first second
      · exact newest wanted one first
    · rcases lingered other second with second | ⟨rfl, _⟩
      · exact (newest wanted other second).symm
      · rfl
  case present =>
    intro present other lingering
    rw [same.2.2.1]
    rcases lingered other lingering with lingering | ⟨rfl, wanted⟩
    · exact inv.present (same.present.mp present) other lingering
    · exact wanted.2.symm
  case untended =>
    intro fd current
    rw [same.tended, same.1]
    rcases untended fd current with tended | seen | adopted | ⟨other, distinct, adopted⟩
    · exact .inl tended
    · exact .inr (.inl seen)
    · exact .inr (.inr ⟨attempt, by rwa [moved, Function.update_self]⟩)
    · exact .inr (.inr ⟨other, by rwa [moved, Function.update_of_ne distinct]⟩)

/-- A connect thread that leaves `tunFd` and closes nothing. -/
theorem attemptTurn (inv : Descriptors service) (order : Orderly service) {attempt : Nat}
    {pc : ConnectPc} (busy : service.connect attempt ≠ .idle)
    (same : SameSession service next)
    (moved : next.connect = Function.update service.connect attempt pc)
    (tun : next.tunFd = service.tunFd)
    (opened : ∀ fd ∈ next.openFds, service.tunFd = some fd → fd ∈ service.openFds)
    (sound : Sound next.ledger (service.AnsweredAfter attempt pc))
    (late : pc.late = true → ¬ service.stillWanted attempt)
    (overwritten : pc.overwrites = true → ∀ fd ∈ next.openFds, service.tunFd = some fd →
      pc.overwritten = some fd)
    (lingers : pc.lingers service.tunFd = true →
      (service.connect attempt).lingers service.tunFd = true ∨ service.stillWanted attempt)
    (adopted : ∀ fd, service.tunFd = some fd →
      (service.connect attempt).adopted = some fd → pc.adopted = some fd ∨ service.Tended) :
    Descriptors next := by
  apply inv.attempt order busy same moved sound late
  case overwritten =>
    rw [tun]
    exact overwritten
  case others =>
    rw [tun]
    exact fun _ _ _ fd isOpen current => ⟨opened fd isOpen current, current⟩
  case known =>
    rw [tun]
    exact fun _ _ _ _ current => current
  case lingers =>
    rw [tun]
    exact lingers
  case untended =>
    rw [tun]
    intro fd current
    rcases inv.untended fd current with tended | seen | ⟨other, adopts⟩
    · exact .inl tended
    · exact .inr (.inl seen)
    · by_cases own : other = attempt
      · subst own
        rcases adopted fd current adopts with adopts | tended
        · exact .inr (.inr (.inl adopts))
        · exact .inl tended
      · exact .inr (.inr (.inr ⟨other, own, adopts⟩))

/-- A connect thread that keeps its role. -/
theorem attemptStill (inv : Descriptors service) (order : Orderly service) {attempt : Nat}
    {pc : ConnectPc} (busy : service.connect attempt ≠ .idle)
    (same : SameSession service next)
    (moved : next.connect = Function.update service.connect attempt pc)
    (disconnect : next.disconnect = service.disconnect)
    (worker : next.worker.role = service.worker.role) (tun : next.tunFd = service.tunFd)
    (opened : next.openFds = service.openFds) (nextFd : next.nextFd = service.nextFd)
    (role : pc.role = (service.connect attempt).role)
    (adopted : pc.adopted = (service.connect attempt).adopted)
    (late : pc.late = true → ¬ service.stillWanted attempt)
    (overwritten : pc.overwrites = true → ∀ fd ∈ service.openFds, service.tunFd = some fd →
      pc.overwritten = some fd)
    (lingers : pc.lingers service.tunFd = true →
      (service.connect attempt).lingers service.tunFd = true ∨ service.stillWanted attempt) :
    Descriptors next := by
  refine inv.attemptTurn order busy same moved tun ?_ ?_ late ?_ lingers ?_
  · rw [opened]
    exact fun _ isOpen _ => isOpen
  · have kept : next.ledger = service.ledger :=
      ledger_same (role_connect service moved same.1 disconnect worker) role tun opened nextFd
    rw [kept]
    refine inv.sound.mono fun fd _ => answered_after ?_
    rw [adopted]
    exact fun adopts _ => adopts
  · rw [opened]
    exact overwritten
  · rw [adopted]
    exact fun _ _ => .inl

theorem attemptEstablish (inv : Descriptors service) (order : Orderly service)
    {attempt : Nat} {config : Config} (at_ : service.connect attempt = .establish config) :
    Descriptors (service.establish.connectAt attempt (.check config service.nextFd)) := by
  have idle : service.ledger.role (.attempt attempt) = .nothing := by
    simp [Service.ledger, Service.role, at_, ConnectPc.role]
  refine inv.attemptTurn order (by simp [at_]) ⟨rfl, rfl, rfl, rfl, rfl⟩ rfl rfl ?_ ?_
    (by simp [ConnectPc.late]) (by simp [ConnectPc.overwrites]) (by simp [ConnectPc.lingers])
    (by simp [at_, ConnectPc.adopted])
  · intro fd isOpen current
    rcases List.mem_cons.mp isOpen with rfl | earlier
    · exact absurd (inv.sound.published _ current) (Nat.lt_irrefl _)
    · exact earlier
  · refine sound_moved service ?_ (role_connect service rfl rfl rfl rfl)
    refine (inv.sound.acquire idle rfl).mono fun fd _ => ?_
    exact answered_after (by simp [at_, ConnectPc.adopted])

/-- The attempt owes the closing of its own descriptor. -/
theorem attemptOwes (inv : Descriptors service) (order : Orderly service) {attempt pfd : Nat}
    (mentions : (service.connect attempt).role.Mentions pfd)
    (withheld : service.tunFd ≠ some pfd) (unwanted : ¬ service.stillWanted attempt)
    (only : ∀ fd, (service.connect attempt).role.fresh = some fd ∨
      (service.connect attempt).role.due = some fd ∨
        (service.connect attempt).adopted = some fd → fd = pfd) :
    Descriptors (service.connectAt attempt (.closeOwn pfd)) := by
  have busy : service.connect attempt ≠ .idle := by
    intro idle
    rw [idle] at mentions
    simp [ConnectPc.role, Role.nothing, Role.Mentions] at mentions
  refine inv.attemptTurn order busy ⟨rfl, rfl, rfl, rfl, rfl⟩ rfl rfl
    (fun _ isOpen _ => isOpen) ?_ (fun _ => unwanted) (by simp [ConnectPc.overwrites])
    (by simp [ConnectPc.lingers]) ?_
  · refine sound_moved service ?_ (role_connect service rfl rfl rfl rfl)
    apply inv.sound.turn
    case fresh => rintro _ ⟨⟩
    case known =>
      rintro _ (⟨⟨⟩⟩ | ⟨⟨⟩⟩)
      exact .inl mentions
    case withheld =>
      rintro _ ⟨⟩
      exact withheld
    case settled =>
      have owes {fd : Nat} (own : fd = pfd) : Owed (Function.update service.role
          (.attempt attempt) (ConnectPc.closeOwn pfd).role) fd :=
        Sound.owed_self (.inr (by rw [own]; rfl))
      rintro fd _ (isFresh | due | ⟨other, adopted, unwanted⟩)
      · exact .inr (.inl (owes (only fd (.inl isFresh))))
      · exact .inr (.inl (owes (only fd (.inr (.inl due)))))
      · by_cases own : other = attempt
        · subst own
          exact .inr (.inl (owes (only fd (.inr (.inr adopted)))))
        · refine .inr (.inr ⟨other, ?_, unwanted⟩)
          rw [Function.update_of_ne own]
          exact adopted
  · intro fd current adopted
    exact absurd (only fd (.inr (.inr adopted)) ▸ current) withheld

theorem attemptSeesOld (inv : Descriptors service) (order : Orderly service)
    {attempt pfd old : Nat} {config : Config}
    (at_ : service.connect attempt = .replace config pfd)
    (current : service.tunFd = some old) (distinct : old ≠ pfd) :
    Descriptors (service.connectAt attempt (.closeOld config pfd old)) := by
  have role : service.ledger.role (.attempt attempt) = ⟨some pfd, none, none⟩ := by
    simp [Service.ledger, Service.role, at_, ConnectPc.role]
  refine inv.attemptTurn order (by simp [at_]) ⟨rfl, rfl, rfl, rfl, rfl⟩ rfl rfl
    (fun _ isOpen _ => isOpen) ?_ (by simp [ConnectPc.late]) ?_
    (by simp [at_, ConnectPc.lingers]) (by simp [at_, ConnectPc.adopted])
  · refine sound_moved service ?_ (role_connect service rfl rfl rfl rfl)
    apply inv.sound.turn
    case fresh =>
      rintro _ ⟨⟩
      exact ⟨by rw [role], by simpa [ConnectPc.role] using distinct, by simp [ConnectPc.role]⟩
    case known =>
      rintro _ (⟨⟨⟩⟩ | ⟨⟨⟩⟩)
      exact .inr (.inl current)
    case withheld => rintro _ ⟨⟩
    case settled =>
      intro fd _
      rw [role]
      rintro (isFresh | ⟨⟨⟩⟩ | answered)
      · exact .inr (.inl (Sound.owed_self (.inl isFresh)))
      · refine .inr (.inr (answered_after ?_ answered))
        simp [at_, ConnectPc.adopted]
  · intro _ fd _ present
    exact current.symm.trans present

theorem attemptClosesOld (inv : Descriptors service) (order : Orderly service)
    {attempt pfd old : Nat} {config : Config}
    (at_ : service.connect attempt = .closeOld config pfd old) :
    Descriptors ((service.close old).connectAt attempt (.adopt config pfd)) := by
  have role : service.ledger.role (.attempt attempt) = ⟨some pfd, some old, none⟩ := by
    simp [Service.ledger, Service.role, at_, ConnectPc.role]
  have unseen := ((inv.sound.fits (.attempt attempt)).unseen pfd (by rw [role])).1
  rw [role] at unseen
  refine inv.attemptTurn order (by simp [at_]) ⟨rfl, rfl, rfl, rfl, rfl⟩ rfl rfl
    (fun _ isOpen _ => List.mem_of_mem_filter isOpen) ?_ (by simp [ConnectPc.late]) ?_
    (by simp [at_, ConnectPc.lingers]) (by simp [at_, ConnectPc.adopted])
  · have mentions : (service.ledger.role (.attempt attempt)).Mentions old := by
      simp [role, Role.Mentions]
    refine sound_moved service ?_ (role_connect service rfl rfl rfl rfl)
    refine Sound.mono (inv.sound.discard mentions ?_ rfl rfl ?_) fun fd _ => ?_
    · rintro _ ⟨⟩
      exact ⟨by rw [role], fun same => unseen (by rw [same])⟩
    · intro fd _ _
      rw [role]
      rintro (isFresh | ⟨⟨⟩⟩)
      exact isFresh
    · exact answered_after (by simp [at_, ConnectPc.adopted])
  · intro _ fd isOpen current
    obtain ⟨isOpen, kept⟩ : fd ∈ service.openFds ∧ fd ≠ old := by
      simpa [Service.connectAt, Service.close] using isOpen
    have replaced := inv.overwritten attempt (by rw [at_]; rfl) fd isOpen current
    rw [at_] at replaced
    cases replaced
    exact absurd rfl kept

/-- The attempt assigns its tunnel over one that is closed. -/
theorem attemptAdopts (inv : Descriptors service) (order : Orderly service)
    {attempt pfd : Nat} {config : Config}
    (at_ : service.connect attempt = .adopt config pfd) :
    Descriptors ({ service with tunFd := some pfd }.connectAt attempt
      (.start config pfd)) := by
  have role : service.ledger.role (.attempt attempt) = ⟨some pfd, none, none⟩ := by
    simp [Service.ledger, Service.role, at_, ConnectPc.role]
  have isFresh : (service.ledger.role (.attempt attempt)).fresh = some pfd := by rw [role]
  have lingering : (service.connect attempt).lingers service.tunFd = true := by
    rw [at_]
    rfl
  refine inv.attempt order (by simp [at_]) ⟨rfl, rfl, rfl, rfl, rfl⟩ rfl ?_
    (by simp [ConnectPc.late]) (by simp [ConnectPc.overwrites]) ?_ ?_
    (fun _ => .inl lingering) ?_
  · refine sound_moved service ?_ (role_connect service rfl rfl rfl rfl)
    refine Sound.mono (inv.sound.publish isFresh rfl (by simp [ConnectPc.role]) ?_ ?_)
      (fun fd _ => answered_after (by simp [at_, ConnectPc.adopted]))
    · rintro _ (⟨⟨⟩⟩ | ⟨⟨⟩⟩)
      exact .inl isFresh
    · intro fd isOpen
      rw [role]
      rintro (current | ⟨⟨⟩⟩ | answered)
      · have replaced := inv.overwritten attempt (by rw [at_]; rfl) fd isOpen current
        rw [at_] at replaced
        cases replaced
      · exact .inr answered
  · intro other distinct overwrites
    have lingers : (service.connect other).lingers service.tunFd = true := by
      cases pc : service.connect other <;> simp_all [ConnectPc.overwrites, ConnectPc.lingers]
    exact absurd (inv.alone other attempt lingers lingering) distinct
  · rintro other distinct _ mentions ⟨⟩
    exact absurd mentions
      (inv.sound.alone (.attempt attempt) pfd isFresh (.attempt other) (by simpa using distinct))
  · exact fun _ current => .inr (.inr (.inl current))

/-- A wanted attempt whose engine runs leaves its tunnel to the session. -/
theorem attemptSettles (inv : Descriptors service) (order : Orderly service)
    {attempt pfd : Nat} (at_ : service.connect attempt = .started pfd)
    (wanted : service.stillWanted attempt) :
    Descriptors (service.connectAt attempt .register) := by
  have role : service.ledger.role (.attempt attempt) = ⟨none, some pfd, none⟩ := by
    simp [Service.ledger, Service.role, at_, ConnectPc.role]
  have present := order.present_of_wanted wanted (by simp [at_])
  refine inv.attemptTurn order (by simp [at_]) ⟨rfl, rfl, rfl, rfl, rfl⟩ rfl rfl
    (fun _ isOpen _ => isOpen) ?_ (by simp [ConnectPc.late]) (by simp [ConnectPc.overwrites])
    (by simp [ConnectPc.lingers]) (fun _ _ _ => .inr (order.tended_of_present present))
  refine sound_moved service ?_ (role_connect service rfl rfl rfl rfl)
  apply inv.sound.turn
  case fresh => rintro _ ⟨⟩
  case known => rintro _ (⟨⟨⟩⟩ | ⟨⟨⟩⟩)
  case withheld => rintro _ ⟨⟩
  case settled =>
    intro fd _
    rw [role]
    rintro (⟨⟨⟩⟩ | ⟨⟨⟩⟩ | answered)
    refine .inr (.inr (answered_after ?_ answered))
    exact fun _ unwanted => absurd wanted unwanted

/-- A cancelled attempt empties `tunFd`. -/
theorem attemptDisowns (inv : Descriptors service) (order : Orderly service)
    {attempt pfd : Nat} (at_ : service.connect attempt = .disownSet pfd) :
    Descriptors ({ service with tunFd := none }.connectAt attempt (.closeOwn pfd)) := by
  have role : service.ledger.role (.attempt attempt) = ⟨none, some pfd, none⟩ := by
    simp [Service.ledger, Service.role, at_, ConnectPc.role]
  refine inv.attempt order (by simp [at_]) ⟨rfl, rfl, rfl, rfl, rfl⟩ rfl ?_
    (fun _ => inv.late attempt (by rw [at_]; rfl)) (by simp [ConnectPc.overwrites])
    (by rintro _ _ _ _ _ ⟨⟩) (by rintro _ _ _ _ ⟨⟩) (by simp [ConnectPc.lingers])
    (by rintro _ ⟨⟩)
  refine sound_moved service ?_ (role_connect service rfl rfl rfl rfl)
  refine inv.sound.withdraw rfl ?_ ?_
  · rintro _ (⟨⟨⟩⟩ | ⟨⟨⟩⟩)
    rw [role]
    exact .inr (.inl rfl)
  · intro fd isOpen
    rw [role]
    have owes (own : fd = pfd) : Owed (Function.update service.role (.attempt attempt)
        (ConnectPc.closeOwn pfd).role) fd :=
      Sound.owed_self (.inr (by rw [own]; rfl))
    rintro (current | ⟨⟨⟩⟩ | ⟨⟨⟩⟩ | ⟨other, adopted, unwanted⟩)
    · have replaced := inv.overwritten attempt (by rw [at_]; rfl) fd isOpen current
      rw [at_] at replaced
      cases replaced
      exact .inl (owes rfl)
    · by_cases own : other = attempt
      · subst own
        rw [at_] at adopted
        cases adopted
        exact .inl (owes rfl)
      · refine .inr ⟨other, ?_, unwanted⟩
        rw [Function.update_of_ne own]
        exact adopted

theorem attemptClosesOwn (inv : Descriptors service) (order : Orderly service)
    {attempt pfd : Nat} (at_ : service.connect attempt = .closeOwn pfd) :
    Descriptors ((service.close pfd).connectAt attempt .idle) := by
  have role : service.ledger.role (.attempt attempt) = ⟨none, none, some pfd⟩ := by
    simp [Service.ledger, Service.role, at_, ConnectPc.role]
  refine inv.attemptTurn order (by simp [at_]) ⟨rfl, rfl, rfl, rfl, rfl⟩ rfl rfl
    (fun _ isOpen _ => List.mem_of_mem_filter isOpen) ?_ (by simp [ConnectPc.late])
    (by simp [ConnectPc.overwrites]) (by simp [ConnectPc.lingers])
    (by simp [at_, ConnectPc.adopted])
  have mentions : (service.ledger.role (.attempt attempt)).Mentions pfd := by
    simp [role, Role.Mentions]
  refine sound_moved service ?_ (role_connect service rfl rfl rfl rfl)
  refine Sound.mono (inv.sound.discard mentions (by rintro _ ⟨⟩) rfl rfl ?_) fun fd _ => ?_
  · intro fd _ kept
    simp [role, Ne.symm kept]
  · exact answered_after (by simp [at_, ConnectPc.adopted])

theorem connectStep (inv : Descriptors service) (order : Orderly service) {attempt : Nat}
    {input : Input} (succeeds : Succeeds service (.connect attempt input))
    (stepTo : VpnService.connectStep service attempt input = some next) :
    Descriptors next := by
  cases at_ : service.connect attempt with
  | idle => simp [VpnService.connectStep, at_] at stepTo
  | failing pc => exact absurd at_ (order.successful attempt pc)
  | enter config =>
      simp only [VpnService.connectStep, at_] at stepTo
      split at stepTo
      all_goals
        cases stepTo
        exact inv.attemptStill order (by simp [at_]) ⟨rfl, rfl, rfl, rfl, rfl⟩ rfl rfl rfl rfl
          rfl rfl (by rw [at_]; rfl) (by rw [at_]; rfl) (by simp [ConnectPc.late])
          (by simp [ConnectPc.overwrites]) (by simp [ConnectPc.lingers])
  | address config =>
      simp only [VpnService.connectStep, at_] at stepTo
      cases stepTo
      exact inv.attemptStill order (by simp [at_]) ⟨rfl, rfl, rfl, rfl, rfl⟩ rfl rfl rfl rfl
        rfl rfl (by rw [at_]; rfl) (by rw [at_]; rfl) (by simp [ConnectPc.late])
        (by simp [ConnectPc.overwrites]) (by simp [ConnectPc.lingers])
  | establish config =>
      simp only [VpnService.connectStep, at_] at stepTo
      rw [if_pos succeeds.1] at stepTo
      cases stepTo
      exact inv.attemptEstablish order at_
  | check config pfd =>
      have fresh : (service.ledger.role (.attempt attempt)).fresh = some pfd := by
        show (service.connect attempt).role.fresh = some pfd
        rw [at_]
        rfl
      simp only [VpnService.connectStep, at_] at stepTo
      split at stepTo
      next wanted =>
        cases stepTo
        exact inv.attemptStill order (by simp [at_]) ⟨rfl, rfl, rfl, rfl, rfl⟩ rfl rfl rfl rfl
          rfl rfl (by rw [at_]; rfl) (by rw [at_]; rfl) (by simp [ConnectPc.late])
          (by simp [ConnectPc.overwrites]) (fun _ => .inr wanted)
      next unwanted =>
        cases stepTo
        refine inv.attemptOwes order (.inl fresh)
          ((inv.sound.fits (.attempt attempt)).unpublished pfd fresh) unwanted ?_
        simp [at_, ConnectPc.role, ConnectPc.adopted]
  | replace config pfd =>
      have fresh : (service.ledger.role (.attempt attempt)).fresh = some pfd := by
        show (service.connect attempt).role.fresh = some pfd
        rw [at_]
        rfl
      have unpublished := (inv.sound.fits (.attempt attempt)).unpublished pfd fresh
      simp only [VpnService.connectStep, at_] at stepTo
      split at stepTo
      next empty =>
        cases stepTo
        exact inv.attemptStill order (by simp [at_]) ⟨rfl, rfl, rfl, rfl, rfl⟩ rfl rfl rfl rfl
          rfl rfl (by rw [at_]; rfl) (by rw [at_]; rfl) (by simp [ConnectPc.late])
          (by simp [empty]) (by simp [at_, ConnectPc.lingers])
      next old current =>
        split at stepTo
        next own => exact absurd (own ▸ current) unpublished
        next distinct =>
          cases stepTo
          exact inv.attemptSeesOld order at_ current distinct
  | closeOld config pfd old =>
      simp only [VpnService.connectStep, at_] at stepTo
      cases stepTo
      exact inv.attemptClosesOld order at_
  | adopt config pfd =>
      simp only [VpnService.connectStep, at_] at stepTo
      cases stepTo
      exact inv.attemptAdopts order at_
  | start config pfd =>
      have notRunning := succeeds.2 config pfd at_
      simp only [VpnService.connectStep, at_] at stepTo
      split at stepTo
      next => cases stepTo
      next =>
        split at stepTo
        next => cases stepTo
        next engine up =>
          rw [up] at notRunning
          cases notRunning
        next =>
          rw [if_pos succeeds.1] at stepTo
          cases stepTo
          exact inv.attemptStill order (by simp [at_]) ⟨rfl, rfl, rfl, rfl, rfl⟩ rfl rfl rfl
            rfl rfl rfl (by rw [at_]; rfl) (by rw [at_]; rfl) (by simp [ConnectPc.late])
            (by simp [ConnectPc.overwrites]) (by simp [at_, ConnectPc.lingers])
  | started pfd =>
      simp only [VpnService.connectStep, at_] at stepTo
      split at stepTo
      next wanted =>
        cases stepTo
        exact inv.attemptSettles order at_ wanted
      next unwanted =>
        cases stepTo
        exact inv.attemptStill order (by simp [at_]) ⟨rfl, rfl, rfl, rfl, rfl⟩ rfl rfl rfl rfl
          rfl rfl (by rw [at_]; rfl) (by rw [at_]; rfl) (fun _ => unwanted)
          (by simp [ConnectPc.overwrites]) (by simp [at_, ConnectPc.lingers])
  | lateStop pfd =>
      have unwanted := inv.late attempt (by rw [at_]; rfl)
      simp only [VpnService.connectStep, at_] at stepTo
      split at stepTo
      next => cases stepTo
      next =>
        cases stepTo
        exact inv.attemptStill order (by simp [at_]) ⟨rfl, rfl, rfl, rfl, rfl⟩ rfl rfl rfl rfl
          rfl rfl (by rw [at_]; rfl) (by rw [at_]; rfl) (fun _ => unwanted)
          (by simp [ConnectPc.overwrites]) (by simp [at_, ConnectPc.lingers])
  | disown pfd =>
      have unwanted := inv.late attempt (by rw [at_]; rfl)
      simp only [VpnService.connectStep, at_] at stepTo
      split at stepTo
      next current =>
        cases stepTo
        exact inv.attemptStill order (by simp [at_]) ⟨rfl, rfl, rfl, rfl, rfl⟩ rfl rfl rfl rfl
          rfl rfl (by rw [at_]; rfl) (by rw [at_]; rfl) (fun _ => unwanted)
          (fun _ fd _ present => current.symm.trans present)
          (by simp [at_, ConnectPc.lingers, current])
      next other =>
        cases stepTo
        refine inv.attemptOwes order ?_ other unwanted ?_
        · simp [at_, ConnectPc.role, Role.Mentions]
        · simp [at_, ConnectPc.role, ConnectPc.adopted]
  | disownSet pfd =>
      simp only [VpnService.connectStep, at_] at stepTo
      cases stepTo
      exact inv.attemptDisowns order at_
  | closeOwn pfd =>
      simp only [VpnService.connectStep, at_] at stepTo
      cases stepTo
      exact inv.attemptClosesOwn order at_
  | register | requestSet =>
      simp only [VpnService.connectStep, at_] at stepTo
      cases stepTo
      exact inv.attemptStill order (by simp [at_]) ⟨rfl, rfl, rfl, rfl, rfl⟩ rfl rfl rfl rfl
        rfl rfl (by rw [at_]; rfl) (by rw [at_]; rfl) (by simp [ConnectPc.late])
        (by simp [ConnectPc.overwrites]) (by simp [ConnectPc.lingers])
  | consume =>
      simp only [VpnService.connectStep, at_] at stepTo
      cases stepTo
      split
      all_goals
        exact inv.attemptStill order (by simp [at_]) ⟨rfl, rfl, rfl, rfl, rfl⟩ rfl rfl rfl rfl
          rfl rfl (by rw [at_]; rfl) (by rw [at_]; rfl) (by simp [ConnectPc.late])
          (by simp [ConnectPc.overwrites]) (by simp [ConnectPc.lingers])
  | requestClaim =>
      obtain ⟨worker, claimed, _, eq⟩ := claimWorker_claims service
      simp only [VpnService.connectStep, at_, eq] at stepTo
      cases stepTo
      exact inv.attemptStill order (by simp [at_]) ⟨rfl, rfl, rfl, rfl, rfl⟩ rfl rfl
        (role_claimed claimed) rfl rfl rfl (by rw [at_]; rfl) (by rw [at_]; rfl)
        (by simp [ConnectPc.late]) (by simp [ConnectPc.overwrites]) (by simp [ConnectPc.lingers])

/-- Between two messages the main looper takes the next one. -/
theorem message (inv : Descriptors service) (idle : service.main = .idle)
    (active : next.tunnelActive = service.tunnelActive)
    (counter : next.connectAttempt = service.connectAttempt)
    (stopping : next.stopping = service.stopping) (ledger : next.ledger = service.ledger)
    (connect : next.connect = service.connect)
    (tended : service.Tended → next.Tended) : Descriptors next := by
  have tun : next.tunFd = service.tunFd := congrArg Ledger.slot ledger
  have opened : next.openFds = service.openFds := congrArg Ledger.opened ledger
  apply inv.elsewhere connect (ledger ▸ inv.sound)
  case wanes =>
    intro attempt _ wanted
    exact ⟨active.symm.trans wanted.1, counter.symm.trans wanted.2⟩
  case overwritten =>
    rw [tun, opened]
    exact fun _ _ _ isOpen current => ⟨isOpen, current⟩
  case known =>
    rw [tun]
    exact fun _ _ _ current => current
  case rises =>
    intro present
    have opening : service.main.opening = false := by
      rw [idle]
      rfl
    exact ⟨⟨active.symm.trans present.1, stopping.symm.trans present.2.1, opening⟩, counter⟩
  case untended =>
    rw [tun]
    intro fd current
    rcases inv.untended fd current with isTended | seen | adopted
    · exact .inl (tended isTended)
    · rw [idle] at seen
      cases seen
    · exact .inr (.inr adopted)

theorem step (inv : Descriptors service) (order : Orderly service) {move : Move}
    (succeeds : Succeeds service move) (timely : Timely service move)
    (stepTo : VpnService.step service move = some next) : Descriptors next := by
  cases move with
  | main input => exact inv.mainStep order succeeds timely stepTo
  | connect attempt input => exact inv.connectStep order succeeds stepTo
  | disconnect => exact inv.disconnectStep stepTo
  | worker input => exact inv.workerStep order timely stepTo
  | command command =>
      simp only [VpnService.step] at stepTo
      split at stepTo
      next idle =>
        cases stepTo
        have kept (main : MainPc) (nothing : main.role = .nothing) (changes : Nat)
            (lastCommand : Command) :
            Service.ledger { service with
              main := main, changes := changes, lastCommand := lastCommand } =
                service.ledger := by
          refine ledger_same (role_main service rfl rfl rfl fun _ => rfl) ?_ rfl rfl rfl
          show main.role = service.main.role
          rw [nothing, idle]
          rfl
        have tends : service.Tended → service.stopping = false ∧ service.tunnelActive = true := by
          unfold Service.Tended
          rw [idle]
          exact id
        cases command with
        | connect | disconnect =>
            exact inv.message idle rfl rfl rfl (kept _ rfl _ _) rfl (fun tended => (tends tended).1)
        | configChanged => exact inv.message idle rfl rfl rfl (kept _ rfl _ _) rfl tends
      next => cases stepTo
  | finishShutdown =>
      simp only [VpnService.step] at stepTo
      split at stepTo
      next posted =>
        cases stepTo
        have between := (order.between posted.1).2
        refine inv.message posted.1 rfl rfl rfl ?_ rfl ?_
        · refine ledger_same (role_main service rfl rfl rfl fun _ => rfl) ?_ rfl rfl rfl
          simp [Service.role, posted.1, MainPc.role]
        · intro tended
          unfold Service.Tended at tended
          rw [posted.1] at tended
          rcases between with ⟨⟨_, _, notPosted, _⟩, _⟩ | ⟨⟨stopping, _⟩, _⟩
          · exact Bool.noConfusion (notPosted.symm.trans posted.2)
          · exact Bool.noConfusion (tended.1.symm.trans stopping)
      next => cases stepTo
  | request | reread =>
      simp only [VpnService.step] at stepTo
      split at stepTo
      next =>
        cases stepTo
        exact inv.workerStill ⟨rfl, rfl, rfl, rfl, rfl⟩ rfl rfl rfl rfl rfl rfl
      next => cases stepTo
  | requestClaim | reclaim =>
      obtain ⟨worker, claimed, _, eq⟩ := claimWorker_claims service
      simp only [VpnService.step, eq] at stepTo
      split at stepTo
      next =>
        cases stepTo
        exact inv.workerStill ⟨rfl, rfl, rfl, rfl, rfl⟩ rfl rfl (role_claimed claimed) rfl rfl rfl
      next => cases stepTo

end Descriptors

end Fips2Go.VpnService
