import Fips2Go.ExclusiveSlot
import Fips2Go.VpnServiceAttempts

/-!
# Teardowns beside failing attempts

Where attempts may fail, a shutdown may run on their threads too.  `stopping` still
lets in one at a time: whoever has claimed it hands it on, from the thread that
shuts down to the one that stops the engine, and from there to the looper.
-/

namespace Fips2Go.VpnService

open GuardedRuns ExclusiveSlot

/-! ### Who tears down -/

inductive Tearer where
  | looper
  | attempt (number : Nat)
  | teardown
  | posted
  deriving DecidableEq, Repr

def MainPc.tears : MainPc → Bool
  | .shutdown pc => !pc.unclaimed
  | .finishStopping => true
  | _ => false

def ConnectPc.tears : ConnectPc → Bool
  | .failing pc => !pc.unclaimed
  | _ => false

def Service.tears (service : Service) : Tearer → Prop
  | .looper => service.main.tears = true
  | .attempt number => (service.connect number).tears = true
  | .teardown => service.disconnect ≠ .idle
  | .posted => service.finishPosted = true

/-- The call has counted up and not claimed `stopping`. -/
def ShutdownPc.counted : ShutdownPc → Bool
  | .clearRebind | .claimStopping => true
  | _ => false

def TurnOk (service : Service) : MainPc → Prop
  | .connectStopping => service.tunnelActive = false
  | .beginBuild | .beginActive _ | .beginRebind _ | .beginAttempt _ | .finishIdentity =>
      service.stopping = false
  | .finishQueued =>
      service.Resting ∧ (service.connectQueued = true → service.stopping = false) ∧
        (service.tunnelActive = true → service.connectQueued = true)
  | .shutdown .clearRebind | .shutdown .claimStopping =>
      service.tunnelActive = false ∧ service.Resting
  | _ => True

structure Turns (service : Service) : Prop where
  claimed : SoleHolder service.tears service.stopping
  resting : service.stopping = true → service.Resting
  queued : service.stopping = true → service.tunnelActive = true →
    service.connectQueued = true ∨ service.main = .queueSet
  main : TurnOk service service.main
  failing : ∀ attempt pc, service.connect attempt = .failing pc → pc.counted = true →
    service.Resting

namespace Turns

variable {service next : Service} {attempt : Nat}

theorem initial : Turns initial where
  claimed := by
    have nobody (tearer : Tearer) : ¬Service.tears VpnService.initial tearer := by
      cases tearer <;>
        simp [Service.tears, VpnService.initial, MainPc.tears, ConnectPc.tears]
    constructor
    · intro tearer holds
      exact absurd holds (nobody tearer)
    · intro tearer other holds
      exact absurd holds (nobody tearer)
  resting := nofun
  queued := nofun
  main := trivial
  failing _ _ failing := by cases failing

theorem mainMono {pc : MainPc} (ok : TurnOk service pc)
    (active : next.tunnelActive = true → service.tunnelActive = true)
    (stopping : next.stopping = true → service.stopping = true)
    (queued : next.connectQueued = service.connectQueued)
    (resting : service.Resting → next.Resting) : TurnOk next pc := by
  have notActive (off : service.tunnelActive = false) : next.tunnelActive = false := by
    rw [Bool.eq_false_iff] at off ⊢
    exact fun on => off (active on)
  have notStopping (off : service.stopping = false) : next.stopping = false := by
    rw [Bool.eq_false_iff] at off ⊢
    exact fun on => off (stopping on)
  cases pc with
  | connectStopping => exact notActive ok
  | beginBuild | beginActive config | beginRebind config | beginAttempt config
  | finishIdentity => exact notStopping ok
  | finishQueued =>
      obtain ⟨rests, clear, waits⟩ := ok
      unfold TurnOk
      rw [queued]
      exact ⟨resting rests, fun waiting => notStopping (clear waiting), fun on => waits (active on)⟩
  | shutdown pc =>
      cases pc with
      | clearRebind | claimStopping => exact ⟨notActive ok.1, resting ok.2⟩
      | _ => trivial
  | _ => trivial

/-! ### The connect threads -/

theorem resting_of_thread {pc : ConnectPc} (busy : service.connect attempt ≠ .idle)
    (moved : next.connect = Function.update service.connect attempt pc)
    (counter : next.connectAttempt = service.connectAttempt) (rests : service.Resting) :
    next.Resting := by
  have distinct : service.connectAttempt ≠ attempt := fun own => busy (own ▸ rests)
  unfold Service.Resting
  rw [counter, moved, Function.update_of_ne distinct]
  exact rests

/-- A connect thread that claims nothing. -/
theorem tears_of_thread {pc : ConnectPc}
    (moved : next.connect = Function.update service.connect attempt pc)
    (main : next.main = service.main) (disconnect : next.disconnect = service.disconnect)
    (posted : next.finishPosted = service.finishPosted)
    (still : pc.tears = true → (service.connect attempt).tears = true) (tearer : Tearer)
    (tears : next.tears tearer) : service.tears tearer := by
  cases tearer with
  | looper => simpa only [Service.tears, main] using tears
  | teardown => simpa only [Service.tears, disconnect] using tears
  | posted => simpa only [Service.tears, posted] using tears
  | attempt number =>
      simp only [Service.tears, moved] at tears ⊢
      by_cases own : number = attempt
      · subst own
        rw [Function.update_self] at tears
        exact still tears
      · rwa [Function.update_of_ne own] at tears

theorem failing_of_thread (inv : Turns service) {pc : ConnectPc}
    (moved : next.connect = Function.update service.connect attempt pc)
    (resting : service.Resting → next.Resting)
    (own : ∀ shutdown, pc = .failing shutdown → shutdown.counted = true → next.Resting)
    (other : Nat) (shutdown : ShutdownPc) (failing : next.connect other = .failing shutdown)
    (counted : shutdown.counted = true) : next.Resting := by
  rw [moved] at failing
  by_cases same : other = attempt
  · subst same
    rw [Function.update_self] at failing
    exact own shutdown failing counted
  · rw [Function.update_of_ne same] at failing
    exact resting (inv.failing other shutdown failing counted)

/-- A thread goes on; what decides who is wanted stays, or is withdrawn. -/
theorem thread (inv : Turns service) {pc : ConnectPc} (busy : service.connect attempt ≠ .idle)
    (moved : next.connect = Function.update service.connect attempt pc)
    (main : next.main = service.main) (disconnect : next.disconnect = service.disconnect)
    (posted : next.finishPosted = service.finishPosted)
    (still : pc.tears = true → (service.connect attempt).tears = true)
    (counter : next.connectAttempt = service.connectAttempt)
    (active : next.tunnelActive = true → service.tunnelActive = true)
    (queued : next.connectQueued = service.connectQueued)
    (stopping : next.stopping = service.stopping)
    (own : ∀ shutdown, pc = .failing shutdown → shutdown.counted = true → next.Resting) :
    Turns next := by
  have resting : service.Resting → next.Resting := resting_of_thread busy moved counter
  constructor
  case claimed =>
    rw [stopping]
    exact inv.claimed.mono (tears_of_thread moved main disconnect posted still)
  case resting => exact fun stops => resting (inv.resting (stopping ▸ stops))
  case queued =>
    rw [stopping, queued, main]
    exact fun stops on => inv.queued stops (active on)
  case main =>
    rw [main]
    exact mainMono inv.main active (stopping ▸ id) queued resting
  case failing => exact inv.failing_of_thread moved resting own

/-- A failing attempt claims `stopping`. -/
theorem claimsStopping (inv : Turns service) (attempts : Attempts service)
    (at_ : service.connect attempt = .failing .claimStopping) (clear : service.stopping = false) :
    Turns ({ service with stopping := true }.connectAt attempt (.failing .unregister)) := by
  have busy : service.connect attempt ≠ .idle := by simp [at_]
  have ok := attempts.failing attempt _ at_ rfl
  have rests := inv.failing attempt _ at_ rfl
  have withdrawn : service.tunnelActive = false := by
    rw [Bool.eq_false_iff]
    intro active
    cases (ok.active active).2
  have still : service.Resting → Service.Resting
      ({ service with stopping := true }.connectAt attempt (.failing .unregister)) :=
    resting_of_thread busy rfl rfl
  constructor
  case claimed =>
    have free := inv.claimed
    rw [clear] at free
    apply free.claim (.attempt attempt)
    intro tearer tears
    cases tearer with
    | looper | teardown | posted => exact .inr tears
    | attempt number =>
        by_cases own : number = attempt
        · exact .inl (by rw [own])
        · refine .inr ?_
          simpa [Service.tears, Service.connectAt, Function.update_of_ne own] using tears
  case resting => exact fun _ => still rests
  case queued => exact fun _ active => absurd active (by simp [Service.connectAt, withdrawn])
  case main =>
    -- Where the looper serves a Connect or begins one, this attempt would have
    -- withdrawn it.
    have accepted := ok.accepted
    have notQueued := ok.queued
    have main := inv.main
    show TurnOk _ service.main
    cases looper : service.main with
    | finishQueued =>
        rw [looper] at main
        refine ⟨still main.1, fun waiting => ?_, main.2.2⟩
        exact Bool.noConfusion (notQueued.symm.trans waiting)
    | shutdown pc =>
        rw [looper] at main
        cases pc with
        | clearRebind | claimStopping => exact ⟨withdrawn, still main.2⟩
        | _ => trivial
    | connectStopping | beginBuild | beginActive | beginRebind | beginAttempt
    | finishIdentity =>
        rw [looper] at accepted
        cases accepted
    | _ => trivial
  case failing =>
    exact inv.failing_of_thread rfl still (by simp [ShutdownPc.counted])

/-- A failing attempt hands its turn to the thread that stops the engine. -/
theorem spawnsStop (inv : Turns service) {fd : Option Nat}
    (at_ : service.connect attempt = .failing (.spawnStop fd)) :
    Turns ({ service with disconnect := .stop fd }.connectAt attempt .idle) := by
  have busy : service.connect attempt ≠ .idle := by simp [at_]
  have resting : service.Resting → Service.Resting
      ({ service with disconnect := .stop fd }.connectAt attempt .idle) :=
    resting_of_thread busy rfl rfl
  have holds : service.tears (.attempt attempt) := by
    simp [Service.tears, at_, ConnectPc.tears, ShutdownPc.unclaimed]
  constructor
  case claimed =>
    apply inv.claimed.pass holds .teardown
    intro tearer tears
    cases tearer with
    | teardown => exact .inl rfl
    | looper | posted => exact .inr ⟨tears, by simp⟩
    | attempt number =>
        by_cases own : number = attempt
        · simp [Service.tears, Service.connectAt, own, ConnectPc.tears] at tears
        · refine .inr ⟨?_, by simpa using own⟩
          simpa [Service.tears, Service.connectAt, Function.update_of_ne own] using tears
  case resting => exact fun stops => resting (inv.resting stops)
  case queued => exact inv.queued
  case main => exact mainMono inv.main id id rfl resting
  case failing => exact inv.failing_of_thread rfl resting (by simp)

theorem failingStep (inv : Turns service) (attempts : Attempts service) {pc : ShutdownPc}
    (at_ : service.connect attempt = .failing pc) {input : Input}
    (stepTo : connectStep service attempt input = some next) : Turns next := by
  have busy : service.connect attempt ≠ .idle := by simp [at_]
  have ok := attempts.failing attempt pc at_
  cases pc with
  | clearActive =>
      simp only [connectStep, at_, shutdownStep, Option.some.injEq] at stepTo
      subst stepTo
      exact inv.thread busy rfl rfl rfl rfl (by simp [ConnectPc.tears, ShutdownPc.unclaimed])
        rfl (by simp [Service.connectAt]) rfl rfl (by simp [ShutdownPc.counted])
  | clearQueued =>
      have notQueued := (ok rfl).queued
      simp only [connectStep, at_, shutdownStep, Option.some.injEq] at stepTo
      subst stepTo
      exact inv.thread busy rfl rfl rfl rfl (by simp [ConnectPc.tears, ShutdownPc.unclaimed])
        rfl id notQueued.symm rfl (by simp [ShutdownPc.counted])
  | bumpAttempt =>
      simp only [connectStep, at_, shutdownStep, Option.some.injEq] at stepTo
      subst stepTo
      have fresh : service.connectAttempt + 1 ≠ attempt := by
        have := attempts.spawned attempt busy
        omega
      have rests : Service.Resting
          ({ service with connectAttempt := service.connectAttempt + 1 }.connectAt attempt
            (.failing .clearRebind)) :=
        (Function.update_of_ne fresh ..).trans attempts.beyond
      constructor
      case claimed =>
        exact inv.claimed.mono (tears_of_thread rfl rfl rfl rfl
          (by simp [ConnectPc.tears, ShutdownPc.unclaimed]))
      case resting => exact fun _ => rests
      case queued => exact inv.queued
      case main => exact mainMono inv.main id id rfl fun _ => rests
      case failing => exact fun _ _ _ _ => rests
  | clearRebind =>
      simp only [connectStep, at_, shutdownStep, Option.some.injEq] at stepTo
      subst stepTo
      refine inv.thread busy rfl rfl rfl rfl (by simp [ConnectPc.tears, ShutdownPc.unclaimed])
        rfl id rfl rfl fun _ _ _ => ?_
      exact resting_of_thread busy rfl rfl (inv.failing attempt _ at_ rfl)
  | claimStopping =>
      by_cases stopping : service.stopping = true
      · simp only [connectStep, at_, shutdownStep, stopping, if_true, Option.some.injEq] at stepTo
        subst stepTo
        exact inv.thread busy rfl rfl rfl rfl (by simp [ConnectPc.tears]) rfl id rfl rfl (by simp)
      · simp only [connectStep, at_, shutdownStep] at stepTo
        rw [if_neg stopping] at stepTo
        cases stepTo
        exact inv.claimsStopping attempts at_ (Bool.eq_false_iff.mpr stopping)
  | spawnStop fd =>
      simp only [connectStep, at_, shutdownStep, Option.some.injEq] at stepTo
      subst stepTo
      exact inv.spawnsStop at_
  | unregister | takeFd | clearFd =>
      cases stepTo.symm.trans (by simp only [connectStep, at_, shutdownStep]; rfl)
      exact inv.thread busy rfl rfl rfl rfl (by simp [at_, ConnectPc.tears, ShutdownPc.unclaimed])
        rfl id rfl rfl (by simp [ShutdownPc.counted])

theorem connectStep (inv : Turns service) (attempts : Attempts service) {input : Input}
    (stepTo : VpnService.connectStep service attempt input = some next) : Turns next := by
  rcases connectStep_cases stepTo with
    ⟨pc, failing⟩ | ⟨busy, same, main, ⟨disconnect, posted⟩, pc, moved, fails⟩
  · exact inv.failingStep attempts failing stepTo
  · apply inv.thread busy moved main disconnect posted _ same.connectAttempt
      (same.tunnelActive ▸ id) same.connectQueued same.stopping
    · rintro shutdown rfl counted
      rw [(fails shutdown rfl).1] at counted
      cases counted
    · intro tears
      cases pc with
      | failing shutdown =>
          rw [(fails shutdown rfl).1] at tears
          cases tears
      | _ => exact Bool.noConfusion tears

/-! ### The main looper -/

theorem tears_of_looper (threads : next.connect = service.connect)
    (disconnect : next.disconnect = service.disconnect)
    (posted : next.finishPosted = service.finishPosted)
    (still : next.main.tears = true → service.main.tears = true) (tearer : Tearer)
    (tears : next.tears tearer) : service.tears tearer := by
  cases tearer with
  | looper => exact still tears
  | teardown => simpa only [Service.tears, disconnect] using tears
  | posted => simpa only [Service.tears, posted] using tears
  | attempt number => simpa only [Service.tears, threads] using tears

/-- The looper goes on without counting up and without touching `stopping`. -/
theorem looper (inv : Turns service) (threads : next.connect = service.connect)
    (disconnect : next.disconnect = service.disconnect)
    (posted : next.finishPosted = service.finishPosted)
    (counter : next.connectAttempt = service.connectAttempt)
    (stopping : next.stopping = service.stopping)
    (still : next.main.tears = true → service.main.tears = true)
    (queued : service.stopping = true → next.tunnelActive = true →
      next.connectQueued = true ∨ next.main = .queueSet)
    (ok : TurnOk next next.main) : Turns next := by
  have resting (rests : service.Resting) : next.Resting := by
    unfold Service.Resting
    rw [threads, counter]
    exact rests
  constructor
  case claimed =>
    rw [stopping]
    exact inv.claimed.mono (tears_of_looper threads disconnect posted still)
  case resting => exact fun stops => resting (inv.resting (stopping ▸ stops))
  case queued =>
    rw [stopping]
    exact queued
  case main => exact ok
  case failing =>
    rw [threads]
    exact fun other shutdown failing counted =>
      resting (inv.failing other shutdown failing counted)

/-- Away from `queueSet` a wanted Connect that waits is queued. -/
theorem waits (inv : Turns service) (elsewhere : service.main ≠ .queueSet)
    (stopping : service.stopping = true) (active : service.tunnelActive = true) :
    service.connectQueued = true :=
  (inv.queued stopping active).resolve_right elsewhere

theorem mainShutdown (inv : Turns service) (attempts : Attempts service) {pc : ShutdownPc}
    (at_ : service.main = .shutdown pc) {input : Input}
    (stepTo : VpnService.mainStep service input = some next) : Turns next := by
  have elsewhere : service.main ≠ .queueSet := by simp [at_]
  have ok := inv.main
  have withdrawn := attempts.main
  rw [at_] at ok withdrawn
  cases pc with
  | clearActive =>
      simp only [VpnService.mainStep, at_, shutdownStep, Option.some.injEq] at stepTo
      subst stepTo
      exact inv.looper rfl rfl rfl rfl rfl (by simp [MainPc.tears, ShutdownPc.unclaimed])
        (by simp) trivial
  | clearQueued =>
      have withdrawn : service.tunnelActive = false := withdrawn
      simp only [VpnService.mainStep, at_, shutdownStep, Option.some.injEq] at stepTo
      subst stepTo
      exact inv.looper rfl rfl rfl rfl rfl (by simp [MainPc.tears, ShutdownPc.unclaimed])
        (by simp [withdrawn]) trivial
  | bumpAttempt =>
      have withdrawn : service.tunnelActive = false := withdrawn
      simp only [VpnService.mainStep, at_, shutdownStep, Option.some.injEq] at stepTo
      subst stepTo
      constructor
      case claimed =>
        exact inv.claimed.mono (tears_of_looper rfl rfl rfl
          (by simp [MainPc.tears, ShutdownPc.unclaimed]))
      case resting => exact fun _ => attempts.beyond
      case queued => simp [withdrawn]
      case main => exact ⟨withdrawn, attempts.beyond⟩
      case failing => exact fun _ _ _ _ => attempts.beyond
  | clearRebind =>
      simp only [VpnService.mainStep, at_, shutdownStep, Option.some.injEq] at stepTo
      subst stepTo
      exact inv.looper rfl rfl rfl rfl rfl (by simp [MainPc.tears, ShutdownPc.unclaimed])
        (fun stopping active => .inl (inv.waits elsewhere stopping active)) ok
  | claimStopping =>
      obtain ⟨inactive, rests⟩ := ok
      by_cases stopping : service.stopping = true
      · simp only [VpnService.mainStep, at_, shutdownStep] at stepTo
        rw [if_pos stopping] at stepTo
        cases stepTo
        exact inv.looper rfl rfl rfl rfl rfl (by simp [MainPc.tears])
          (fun stopping active => .inl (inv.waits elsewhere stopping active)) trivial
      · simp only [VpnService.mainStep, at_, shutdownStep] at stepTo
        rw [if_neg stopping] at stepTo
        cases stepTo
        constructor
        case claimed =>
          have free := inv.claimed
          rw [Bool.eq_false_iff.mpr stopping] at free
          apply free.claim .looper
          intro tearer tears
          cases tearer with
          | looper => exact .inl rfl
          | attempt | teardown | posted => exact .inr tears
        case resting => exact fun _ => rests
        case queued => simp [inactive]
        case main => trivial
        case failing => exact inv.failing
  | spawnStop fd =>
      simp only [VpnService.mainStep, at_, shutdownStep, Option.some.injEq] at stepTo
      subst stepTo
      have holds : service.tears .looper := by
        simp [Service.tears, at_, MainPc.tears, ShutdownPc.unclaimed]
      constructor
      case claimed =>
        apply inv.claimed.pass holds .teardown
        intro tearer tears
        cases tearer with
        | teardown => exact .inl rfl
        | looper => simp [Service.tears, MainPc.tears] at tears
        | attempt | posted => exact .inr ⟨tears, by simp⟩
      case resting => exact inv.resting
      case queued => exact fun stopping active => .inl (inv.waits elsewhere stopping active)
      case main => trivial
      case failing => exact inv.failing
  | unregister | takeFd | clearFd =>
      cases stepTo.symm.trans (by simp only [VpnService.mainStep, at_, shutdownStep]; rfl)
      exact inv.looper rfl rfl rfl rfl rfl (by simp [at_, MainPc.tears, ShutdownPc.unclaimed])
        (fun stopping active => .inl (inv.waits elsewhere stopping active)) trivial

theorem finishStopping (inv : Turns service) (at_ : service.main = .finishStopping) :
    Turns { service with stopping := false, main := .finishQueued } := by
  have holds : service.tears .looper := by simp [Service.tears, at_, MainPc.tears]
  have stopping := inv.claimed.set .looper holds
  constructor
  case claimed =>
    have nobody : ∀ tearer, ¬Service.tears
        { service with stopping := false, main := .finishQueued } tearer := by
      apply inv.claimed.release holds
      intro tearer tears
      cases tearer with
      | looper => simp [Service.tears, MainPc.tears] at tears
      | attempt | teardown | posted => exact ⟨tears, by simp⟩
    exact ⟨fun tearer tears => absurd tears (nobody tearer),
      fun tearer _ tears => absurd tears (nobody tearer)⟩
  case resting => simp
  case queued => simp
  case main =>
    exact ⟨inv.resting stopping, fun _ => rfl, inv.waits (by simp [at_]) stopping⟩
  case failing => exact inv.failing

theorem beginAttempt (inv : Turns service) (attempts : Attempts service) {config : Config}
    (at_ : service.main = .beginAttempt config) :
    Turns { service with
      connectAttempt := service.connectAttempt + 1
      connect := Function.update service.connect (service.connectAttempt + 1) (.enter config)
      main := .idle } := by
  have free := inv.main
  rw [at_] at free
  have free : service.stopping = false := free
  constructor
  case claimed =>
    apply inv.claimed.mono
    intro tearer tears
    cases tearer with
    | looper => simp [Service.tears, MainPc.tears] at tears
    | teardown | posted => exact tears
    | attempt number =>
        by_cases own : number = service.connectAttempt + 1
        · simp [Service.tears, own, ConnectPc.tears] at tears
        · simpa [Service.tears, Function.update_of_ne own] using tears
  case resting => simp [free]
  case queued => simp [free]
  case main => trivial
  case failing =>
    intro other shutdown failing counted
    by_cases own : other = service.connectAttempt + 1
    · simp [own] at failing
    · simp only [Function.update_of_ne own] at failing
      have unclaimed : shutdown.unclaimed = true := by
        cases shutdown <;> first | rfl | cases counted
      have accepted := (attempts.failing other shutdown failing unclaimed).accepted
      rw [at_] at accepted
      cases accepted

theorem mainStep (inv : Turns service) (attempts : Attempts service) {input : Input}
    (stepTo : VpnService.mainStep service input = some next) : Turns next := by
  have ok := inv.main
  cases at_ : service.main with
  | idle => simp [VpnService.mainStep, at_] at stepTo
  | shutdown pc => exact inv.mainShutdown attempts at_ stepTo
  | beginAttempt config =>
      simp only [VpnService.mainStep, at_, Option.some.injEq] at stepTo
      subst stepTo
      exact inv.beginAttempt attempts at_
  | finishStopping =>
      simp only [VpnService.mainStep, at_, Option.some.injEq] at stepTo
      subst stepTo
      exact inv.finishStopping at_
  | configClaim =>
      obtain ⟨worker, _, _, claimed⟩ := claimWorker_claims service
      simp only [VpnService.mainStep, at_, claimed, Option.some.injEq] at stepTo
      subst stepTo
      exact inv.looper rfl rfl rfl rfl rfl (by simp [MainPc.tears])
        (fun stopping active => .inl (inv.waits (by simp [at_]) stopping active)) trivial
  | configActive | configFd | configRunning | configDefer | configRequest | connectIdentity =>
      simp only [VpnService.mainStep, at_] at stepTo
      first | split at stepTo | skip
      all_goals
        cases stepTo
        exact inv.looper rfl rfl rfl rfl rfl (by simp [MainPc.tears])
          (fun stopping active => .inl (inv.waits (by simp [at_]) stopping active)) trivial
  | connectActive =>
      simp only [VpnService.mainStep, at_] at stepTo
      split at stepTo
      next =>
        cases stepTo
        exact inv.looper rfl rfl rfl rfl rfl (by simp [MainPc.tears])
          (fun stopping active => .inl (inv.waits (by simp [at_]) stopping active)) trivial
      next inactive =>
        cases stepTo
        exact inv.looper rfl rfl rfl rfl rfl (by simp [MainPc.tears])
          (fun _ active => absurd active inactive) (by simpa [TurnOk] using inactive)
  | connectStopping =>
      rw [at_] at ok
      have inactive : service.tunnelActive = false := ok
      simp only [VpnService.mainStep, at_] at stepTo
      split at stepTo
      next =>
        cases stepTo
        exact inv.looper rfl rfl rfl rfl rfl (by simp [MainPc.tears])
          (by simp [inactive]) trivial
      next free =>
        cases stepTo
        exact inv.looper rfl rfl rfl rfl rfl (by simp [MainPc.tears])
          (by simp [inactive]) (by simpa [TurnOk] using free)
  | queueActive =>
      simp only [VpnService.mainStep, at_, Option.some.injEq] at stepTo
      subst stepTo
      exact inv.looper rfl rfl rfl rfl rfl (by simp [MainPc.tears]) (fun _ _ => .inr rfl) trivial
  | queueSet =>
      simp only [VpnService.mainStep, at_, Option.some.injEq] at stepTo
      subst stepTo
      exact inv.looper rfl rfl rfl rfl rfl (by simp [MainPc.tears]) (fun _ _ => .inl rfl) trivial
  | beginBuild =>
      rw [at_] at ok
      have free : service.stopping = false := ok
      simp only [VpnService.mainStep, at_] at stepTo
      split at stepTo
      next => cases stepTo
      next =>
        cases stepTo
        exact inv.looper rfl rfl rfl rfl rfl (by simp [MainPc.tears]) (by simp [free]) free
  | beginActive config | beginRebind config =>
      rw [at_] at ok
      have free : service.stopping = false := ok
      simp only [VpnService.mainStep, at_, Option.some.injEq] at stepTo
      subst stepTo
      exact inv.looper rfl rfl rfl rfl rfl (by simp [MainPc.tears]) (by simp [free]) free
  | finishIdentity =>
      rw [at_] at ok
      have free : service.stopping = false := ok
      simp only [VpnService.mainStep, at_] at stepTo
      split at stepTo
      next =>
        cases stepTo
        exact inv.looper rfl rfl rfl rfl rfl (by simp [MainPc.tears]) (by simp [free]) free
      next =>
        cases stepTo
        exact inv.looper rfl rfl rfl rfl rfl (by simp [MainPc.tears]) (by simp [free]) trivial
  | finishQueued =>
      rw [at_] at ok
      obtain ⟨_, clear, waiting⟩ := ok
      simp only [VpnService.mainStep, at_, Option.some.injEq] at stepTo
      subst stepTo
      have nobodyWaits (stopping : service.stopping = true) (active : service.tunnelActive = true) :
          False := by
        rw [clear (waiting active)] at stopping
        cases stopping
      by_cases queued : service.connectQueued = true
      · simp only [queued, if_true]
        exact inv.looper rfl rfl rfl rfl rfl (by simp [MainPc.tears])
          (fun stopping active => (nobodyWaits stopping active).elim) (clear queued)
      · simp only [queued]
        exact inv.looper rfl rfl rfl rfl rfl (by simp [MainPc.tears])
          (fun stopping active => (nobodyWaits stopping active).elim) trivial

/-! ### All steps -/

theorem disconnectStep (inv : Turns service)
    (stepTo : VpnService.disconnectStep service = some next) : Turns next := by
  rcases disconnectStep_cases stepTo with ⟨fd, at_, _, rfl⟩ | ⟨fd, at_, rfl⟩
  · refine ⟨inv.claimed.mono fun tearer tears => ?_, inv.resting, inv.queued, inv.main,
      inv.failing⟩
    cases tearer with
    | teardown => simp [Service.tears, at_]
    | looper | attempt | posted => exact tears
  · have holds : service.tears .teardown := by simp [Service.tears, at_]
    obtain ⟨openFds, closed⟩ := closeOpt_eq service fd
    rw [closed]
    refine ⟨inv.claimed.pass holds .posted fun tearer tears => ?_, inv.resting, inv.queued,
      inv.main, inv.failing⟩
    cases tearer with
    | posted => exact .inl rfl
    | teardown => simp [Service.tears] at tears
    | looper | attempt => exact .inr ⟨tears, by simp⟩

theorem step (inv : Turns service) (attempts : Attempts service) {move : Move}
    (stepTo : VpnService.step service move = some next) : Turns next := by
  cases move with
  | main input => exact inv.mainStep attempts stepTo
  | connect attempt input => exact inv.connectStep attempts stepTo
  | disconnect => exact inv.disconnectStep stepTo
  | worker input =>
      obtain ⟨_, _, _, _, _, _, _, rfl⟩ := workerStep_frame stepTo
      exact ⟨inv.claimed, inv.resting, inv.queued, inv.main, inv.failing⟩
  | command command =>
      simp only [VpnService.step] at stepTo
      split at stepTo
      next idle =>
        have waits := inv.waits (by simp [idle])
        cases stepTo
        cases command with
        | _ =>
            exact inv.looper rfl rfl rfl rfl rfl
              (by simp [commandStep, MainPc.tears, ShutdownPc.unclaimed])
              (fun stopping active => .inl (waits stopping active)) trivial
      next => cases stepTo
  | finishShutdown =>
      simp only [VpnService.step] at stepTo
      split at stepTo
      next posted =>
        cases stepTo
        have waits := inv.waits (by simp [posted.1])
        have holds : service.tears .posted := posted.2
        refine ⟨inv.claimed.pass holds .looper fun tearer tears => ?_, inv.resting,
          fun stopping active => .inl (waits stopping active), trivial, inv.failing⟩
        cases tearer with
        | looper => exact .inl rfl
        | posted => simp [Service.tears] at tears
        | attempt | teardown => exact .inr ⟨tears, by simp⟩
      next => cases stepTo
  | request | reread =>
      simp only [VpnService.step] at stepTo
      split at stepTo
      next =>
        cases stepTo
        exact ⟨inv.claimed, inv.resting, inv.queued, inv.main, inv.failing⟩
      next => cases stepTo
  | requestClaim | reclaim =>
      obtain ⟨worker, _, _, claimed⟩ := claimWorker_claims service
      simp only [VpnService.step, claimed] at stepTo
      split at stepTo
      next =>
        cases stepTo
        exact ⟨inv.claimed, inv.resting, inv.queued, inv.main, inv.failing⟩
      next => cases stepTo

end Turns

end Fips2Go.VpnService
