import Fips2Go.VpnServiceFinality

/-!
# Superseded connect attempts

An attempt that is no longer wanted can still harm a newer one: its failure
paths call `shutdown()`, which knows nothing of attempts, and past its check it
goes on to replace `tunFd`, to start an engine and to stop whatever engine runs.
Where it does not fail while a later Connect is wanted, queued or being served,
and no attempt begins while an older one is past its check, the wanted attempt
stays wanted and a queued Connect stays queued.
-/

namespace Fips2Go.VpnService

open GuardedRuns

/-- A call of `shutdown()` that has not got past its claim of `stopping`. -/
def ShutdownPc.unclaimed : ShutdownPc → Bool
  | .clearActive | .clearQueued | .bumpAttempt | .clearRebind | .claimStopping => true
  | _ => false

/-- The call has withdrawn `tunnelActive` and not yet counted up. -/
def ShutdownPc.cancelling : ShutdownPc → Bool
  | .clearQueued | .bumpAttempt => true
  | _ => false

def ConnectPc.unclaimed : ConnectPc → Bool
  | .failing pc => pc.unclaimed
  | _ => false

/-- The main looper serves a Connect that it will not ignore any more. -/
def MainPc.accepted : MainPc → Bool
  | .connectStopping | .queueActive | .queueSet | .beginBuild | .beginActive _
  | .beginRebind _ | .beginAttempt _ | .finishIdentity => true
  | _ => false

/-- A Connect later than the one of `attempt` is wanted, queued or being
served. -/
def Service.NewerConnect (service : Service) (attempt : Nat) : Prop :=
  (service.tunnelActive = true ∧ attempt < service.connectAttempt) ∨
    service.connectQueued = true ∨ service.main.accepted = true

instance (service : Service) (attempt : Nat) :
    Decidable (service.NewerConnect attempt) :=
  inferInstanceAs (Decidable (_ ∨ _ ∨ _))

/-- `establish()` answers null, or `FipsNative.start()` with an error. -/
def Service.attemptFails (service : Service) (attempt : Nat) (input : Input) : Bool :=
  match service.connect attempt with
  | .establish _ => !input.ok
  | .start _ _ => service.native.isRunning || !input.ok
  | _ => false

/-- The late `FipsNative.stop()` would find the engine of a newer attempt. -/
def Service.stopsNewer (service : Service) (attempt : Nat) : Bool :=
  match service.connect attempt, service.native with
  | .lateStop _, .up engine => attempt < engine.attempt
  | _, _ => false

/-- No attempt fails after it was superseded, no Connect is accepted in the middle
of a failing attempt's `shutdown()`, and no attempt begins beside one that is past
its check. -/
def Considerate (service : Service) : Move → Prop
  | .connect attempt input =>
      service.attemptFails attempt input = true → ¬ service.stillWanted attempt →
        ¬ service.NewerConnect attempt
  | .main _ =>
      (service.main = .connectActive → service.tunnelActive = false →
        ∀ attempt ≤ service.connectAttempt, (service.connect attempt).unclaimed = false) ∧
      service.BeginsAlone service.main
  | _ => True

instance : DecidableRel Considerate := by
  intro service move
  cases move <;> simp only [Considerate] <;> infer_instance

/-- What a step of `attempt` leaves to newer attempts: the wanted one stays
wanted and is not shut down, and a queued or accepted Connect stays so. -/
structure SparesWanted (service next : Service) (attempt : Nat) : Prop where
  wanted : ∀ newer, attempt < newer → service.stillWanted newer → next.stillWanted newer
  queued : service.connectQueued = true → next.connectQueued = true
  control : service.NewerConnect attempt →
    next.tunnelActive = service.tunnelActive ∧
      next.connectAttempt = service.connectAttempt ∧ next.stopping = service.stopping

/-- The attempt with the present number has no thread. -/
def Service.Resting (service : Service) : Prop :=
  service.connect service.connectAttempt = .idle

def MainOk (service : Service) : MainPc → Prop
  | .connectStopping => service.Resting
  | .queueActive | .queueSet => service.Resting ∧ service.stopping = true
  | .beginBuild | .beginActive _ | .finishIdentity =>
      service.Resting ∧ service.connectQueued = false
  | .beginRebind _ | .beginAttempt _ =>
      service.Resting ∧ service.connectQueued = false ∧ service.tunnelActive = true
  | .shutdown .clearQueued | .shutdown .bumpAttempt => service.tunnelActive = false
  | _ => True

/-- While a failing attempt has not claimed `stopping`, no newer Connect is
about. -/
structure FailingOk (service : Service) (attempt : Nat) (pc : ShutdownPc) : Prop where
  queued : service.connectQueued = false
  accepted : service.main.accepted = false
  active : service.tunnelActive = true →
    attempt = service.connectAttempt ∧ pc = .clearActive

structure Attempts (service : Service) : Prop where
  spawned : ∀ attempt, service.connect attempt ≠ .idle → attempt ≤ service.connectAttempt
  main : MainOk service service.main
  failing : ∀ attempt pc, service.connect attempt = .failing pc → pc.unclaimed = true →
    FailingOk service attempt pc
  inactive : service.tunnelActive = false → service.Resting ∨
    (∃ pc, service.main = .shutdown pc ∧ pc.cancelling = true) ∨
    ∃ attempt pc, service.connect attempt = .failing pc ∧ pc.cancelling = true
  queued : service.connectQueued = true →
    service.Resting ∧ (service.stopping = true ∨ service.main = .finishQueued)

/-- The fields that decide which connect is wanted. -/
structure SameControl (service next : Service) : Prop where
  connectAttempt : next.connectAttempt = service.connectAttempt
  tunnelActive : next.tunnelActive = service.tunnelActive
  connectQueued : next.connectQueued = service.connectQueued
  stopping : next.stopping = service.stopping

theorem accepted_resting {service : Service} {pc : MainPc} (ok : MainOk service pc)
    (accepted : pc.accepted = true) : service.Resting := by
  cases pc with
  | connectStopping => exact ok
  | queueActive => exact ok.1
  | queueSet => exact ok.1
  | beginBuild => exact ok.1
  | beginActive config => exact ok.1
  | beginRebind config => exact ok.1
  | beginAttempt config => exact ok.1
  | finishIdentity => exact ok.1
  | _ => cases accepted

/-- Beyond the counter there are no threads. -/
theorem Attempts.beyond {service : Service} (inv : Attempts service) :
    service.connect (service.connectAttempt + 1) = .idle := by
  by_contra busy
  have := inv.spawned _ busy
  omega

/-- A wanted attempt with a thread leaves no room for a newer Connect. -/
theorem Attempts.not_newerConnect {service : Service} (inv : Attempts service)
    {attempt : Nat} (busy : service.connect attempt ≠ .idle)
    (wanted : service.stillWanted attempt) : ¬ service.NewerConnect attempt := by
  obtain ⟨active, current⟩ := wanted
  have notResting : ¬ service.Resting := by
    unfold Service.Resting
    rwa [current]
  rintro (⟨_, newer⟩ | queued | accepted)
  · omega
  · exact notResting (inv.queued queued).1
  · exact notResting (accepted_resting inv.main accepted)

theorem FailingOk.not_newerConnect {service : Service} {attempt : Nat}
    {pc : ShutdownPc} (ok : FailingOk service attempt pc) :
    ¬ service.NewerConnect attempt := by
  rintro (⟨active, newer⟩ | queued | accepted)
  · have := (ok.active active).1
    omega
  · rw [ok.queued] at queued
    cases queued
  · rw [ok.accepted] at accepted
    cases accepted

/-- Where a connect thread that is not in `shutdown()` may go. -/
theorem connectStep_cases {service next : Service} {attempt : Nat} {input : Input}
    (stepTo : connectStep service attempt input = some next) :
    (∃ pc, service.connect attempt = .failing pc) ∨
    (service.connect attempt ≠ .idle ∧ SameControl service next ∧
      next.main = service.main ∧
      (next.disconnect = service.disconnect ∧ next.finishPosted = service.finishPosted) ∧
      ∃ pc, next.connect = Function.update service.connect attempt pc ∧
        ∀ shutdown, pc = .failing shutdown →
          shutdown = .clearActive ∧ service.attemptFails attempt input = true) := by
  cases at_ : service.connect attempt with
  | failing pc => exact .inl ⟨pc, rfl⟩
  | idle => simp [connectStep, at_] at stepTo
  | requestClaim =>
      obtain ⟨worker, _, _, claimed⟩ := claimWorker_claims service
      simp only [connectStep, at_, claimed, Option.some.injEq] at stepTo
      subst stepTo
      exact .inr ⟨by simp, ⟨rfl, rfl, rfl, rfl⟩, rfl, ⟨rfl, rfl⟩, .idle, rfl, by simp⟩
  | _ =>
      refine .inr ⟨by simp, ?_⟩
      simp only [connectStep, at_] at stepTo
      repeat' split at stepTo
      all_goals first
        | cases stepTo; done
        | cases stepTo
          refine ⟨⟨rfl, rfl, rfl, rfl⟩, rfl, ⟨rfl, rfl⟩, _, rfl, ?_⟩
          simp_all [Service.attemptFails, Native.isRunning]

/-- A connect thread changes what decides who is wanted only in `shutdown()`,
before or at its claim. -/
theorem control_kept {service next : Service} {attempt : Nat} {input : Input}
    (stepTo : connectStep service attempt input = some next) :
    SameControl service next ∨
      ∃ pc, service.connect attempt = .failing pc ∧ pc.unclaimed = true := by
  rcases connectStep_cases stepTo with ⟨pc, failing⟩ | ⟨_, same, _⟩
  · cases unclaimed : pc.unclaimed with
    | true => exact .inr ⟨pc, failing, unclaimed⟩
    | false =>
        left
        cases pc <;> simp only [ShutdownPc.unclaimed, reduceCtorEq] at unclaimed
        all_goals
          simp only [connectStep, failing, shutdownStep, Option.some.injEq] at stepTo
          subst stepTo
          exact ⟨rfl, rfl, rfl, rfl⟩
  · exact .inl same

/-- Only the late stop of an attempt can take a running engine down. -/
theorem newerEngine_kept {service next : Service} {attempt : Nat} {input : Input}
    (notNewer : service.stopsNewer attempt = false)
    (stepTo : connectStep service attempt input = some next) (engine : Engine)
    (running : service.native = .up engine) (newer : attempt < engine.attempt) :
    next.native = .up engine := by
  cases at_ : service.connect attempt with
  | idle => simp [connectStep, at_] at stepTo
  | lateStop pfd => simp [Service.stopsNewer, at_, running, newer] at notNewer
  | requestClaim =>
      obtain ⟨worker, _, _, claimed⟩ := claimWorker_claims service
      simp only [connectStep, at_, claimed, Option.some.injEq] at stepTo
      subst stepTo
      exact running
  | failing pc =>
      cases pc with
      | claimStopping =>
          by_cases claimed : service.stopping = true
          all_goals
            simp only [connectStep, at_, shutdownStep, claimed] at stepTo
            cases stepTo
            exact running
      | _ =>
          simp only [connectStep, at_, shutdownStep, Option.some.injEq] at stepTo
          subst stepTo
          exact running
  | _ =>
      simp only [connectStep, at_, running] at stepTo
      repeat' split at stepTo
      all_goals first
        | cases stepTo; done
        | cases stepTo
          first | exact running | rfl

theorem SparesWanted.ofSameControl {service next : Service} {attempt : Nat}
    (same : SameControl service next) : SparesWanted service next attempt where
  wanted := by
    rintro newer _ ⟨active, current⟩
    exact ⟨same.tunnelActive.trans active, same.connectAttempt.trans current⟩
  queued := same.connectQueued.trans
  control := fun _ => ⟨same.tunnelActive, same.connectAttempt, same.stopping⟩

theorem MainOk.congr {service next : Service} {pc : MainPc}
    (same : SameControl service next) (resting : service.Resting → next.Resting)
    (ok : MainOk service pc) : MainOk next pc := by
  cases pc with
  | connectStopping => exact resting ok
  | queueActive => exact ⟨resting ok.1, same.stopping.trans ok.2⟩
  | queueSet => exact ⟨resting ok.1, same.stopping.trans ok.2⟩
  | beginBuild => exact ⟨resting ok.1, same.connectQueued.trans ok.2⟩
  | beginActive config => exact ⟨resting ok.1, same.connectQueued.trans ok.2⟩
  | finishIdentity => exact ⟨resting ok.1, same.connectQueued.trans ok.2⟩
  | beginRebind config =>
      exact ⟨resting ok.1, same.connectQueued.trans ok.2.1, same.tunnelActive.trans ok.2.2⟩
  | beginAttempt config =>
      exact ⟨resting ok.1, same.connectQueued.trans ok.2.1, same.tunnelActive.trans ok.2.2⟩
  | shutdown pc => cases pc <;> first | trivial | exact same.tunnelActive.trans ok
  | _ => trivial

theorem FailingOk.congr {service next : Service} {attempt : Nat} {pc : ShutdownPc}
    (same : SameControl service next) (accepted : next.main.accepted = false)
    (ok : FailingOk service attempt pc) : FailingOk next attempt pc where
  queued := same.connectQueued.trans ok.queued
  accepted := accepted
  active := by
    rw [same.tunnelActive, same.connectAttempt]
    exact ok.active

namespace Attempts

variable {service next : Service} {attempt : Nat}

/-- A connect thread moves on without touching what decides who is wanted. -/
theorem thread (inv : Attempts service) {pc : ConnectPc}
    (busy : service.connect attempt ≠ .idle)
    (leaves : ∀ shutdown, service.connect attempt = .failing shutdown →
      shutdown.cancelling = true →
        ∃ after, pc = .failing after ∧ after.cancelling = true)
    (same : SameControl service next) (main : next.main = service.main)
    (moved : next.connect = Function.update service.connect attempt pc)
    (fails : ∀ shutdown, pc = .failing shutdown → shutdown.unclaimed = true →
      FailingOk service attempt shutdown) : Attempts next := by
  have others (other : Nat) (distinct : other ≠ attempt) :
      next.connect other = service.connect other := by
    rw [moved, Function.update_of_ne distinct]
  have moves : next.connect attempt = pc := by
    rw [moved, Function.update_self]
  have resting (rests : service.Resting) : next.Resting := by
    have distinct : service.connectAttempt ≠ attempt := by
      rintro rfl
      exact busy rests
    unfold Service.Resting
    rw [same.connectAttempt, others _ distinct]
    exact rests
  constructor
  case spawned =>
    intro other running
    rw [same.connectAttempt]
    by_cases own : other = attempt
    · exact own ▸ inv.spawned attempt busy
    · exact inv.spawned other (others other own ▸ running)
  case main =>
    rw [main]
    exact inv.main.congr same resting
  case failing =>
    intro other shutdown failing unclaimed
    by_cases own : other = attempt
    · subst own
      have ok := fails shutdown (moves ▸ failing) unclaimed
      exact ok.congr same (main ▸ ok.accepted)
    · have ok := inv.failing other shutdown (others other own ▸ failing) unclaimed
      exact ok.congr same (main ▸ ok.accepted)
  case inactive =>
    intro inactive
    rcases inv.inactive (same.tunnelActive ▸ inactive) with
      rests | ⟨shutdown, shutting⟩ | ⟨other, shutdown, failing, cancelling⟩
    · exact .inl (resting rests)
    · exact .inr (.inl ⟨shutdown, main ▸ shutting⟩)
    · by_cases own : other = attempt
      · subst own
        obtain ⟨after, goesOn, cancelling⟩ := leaves shutdown failing cancelling
        exact .inr (.inr ⟨other, after, moves.trans goesOn, cancelling⟩)
      · exact .inr (.inr ⟨other, shutdown, (others other own).trans failing, cancelling⟩)
  case queued =>
    intro queued
    obtain ⟨rests, served⟩ := inv.queued (same.connectQueued ▸ queued)
    rw [same.stopping, main]
    exact ⟨resting rests, served⟩

/-- The main looper, or a thread that is no connect, moves on without touching
what decides who is wanted. -/
theorem looper (inv : Attempts service) (same : SameControl service next)
    (threads : next.connect = service.connect) (ok : MainOk service next.main)
    (accepted : next.main.accepted = true → service.main.accepted = true)
    (leaves : next.main = service.main ∨ service.main ≠ .finishQueued ∧
      ∀ pc, service.main = .shutdown pc → pc.cancelling = false) : Attempts next := by
  have resting (rests : service.Resting) : next.Resting := by
    unfold Service.Resting
    rw [threads, same.connectAttempt]
    exact rests
  constructor
  case spawned =>
    rw [threads, same.connectAttempt]
    exact inv.spawned
  case main => exact ok.congr same resting
  case failing =>
    intro other shutdown failing unclaimed
    have ok := inv.failing other shutdown (threads ▸ failing) unclaimed
    apply ok.congr same
    rw [Bool.eq_false_iff]
    intro newlyAccepted
    rw [ok.accepted] at accepted
    cases accepted newlyAccepted
  case inactive =>
    intro inactive
    rcases inv.inactive (same.tunnelActive ▸ inactive) with
      rests | ⟨pc, shutting, cancelling⟩ | failing
    · exact .inl (resting rests)
    · rcases leaves with stays | ⟨_, leaves⟩
      · exact .inr (.inl ⟨pc, stays.trans shutting, cancelling⟩)
      · rw [leaves pc shutting] at cancelling
        cases cancelling
    · exact .inr (.inr (threads ▸ failing))
  case queued =>
    intro queued
    obtain ⟨rests, served⟩ := inv.queued (same.connectQueued ▸ queued)
    refine ⟨resting rests, ?_⟩
    rw [same.stopping]
    rcases leaves with stays | ⟨notFinishing, _⟩
    · rwa [stays]
    · exact .inl (served.resolve_right notFinishing)

/-- While a Connect is being served no failing attempt is in the way. -/
theorem whileAccepted (inv : Attempts service) (accepted : service.main.accepted = true)
    (threads : next.connect = service.connect)
    (counter : next.connectAttempt = service.connectAttempt)
    (main : MainOk next next.main)
    (queued : next.connectQueued = true → next.stopping = true) : Attempts next := by
  have rests : next.Resting := by
    unfold Service.Resting
    rw [threads, counter]
    exact accepted_resting inv.main accepted
  constructor
  case spawned =>
    rw [threads, counter]
    exact inv.spawned
  case main => exact main
  case failing =>
    intro other shutdown failing unclaimed
    have ok := inv.failing other shutdown (threads ▸ failing) unclaimed
    rw [ok.accepted] at accepted
    cases accepted
  case inactive => exact fun _ => .inl rests
  case queued => exact fun served => ⟨rests, .inl (queued served)⟩

/-- `beginConnect` counts up and starts the thread. -/
theorem beginAttempt (inv : Attempts service) {config : Config}
    (at_ : service.main = .beginAttempt config) {input : Input}
    (stepTo : mainStep service input = some next) : Attempts next := by
  have ok := inv.main
  rw [at_] at ok
  obtain ⟨_, notQueued, active⟩ := ok
  simp only [mainStep, at_, Option.some.injEq] at stepTo
  subst stepTo
  constructor
  case spawned =>
    intro other running
    by_cases own : other = service.connectAttempt + 1
    · exact Nat.le_of_eq own
    · simp only [Function.update_of_ne own] at running
      exact Nat.le_succ_of_le (inv.spawned other running)
  case main => trivial
  case failing =>
    intro other shutdown failing unclaimed
    by_cases own : other = service.connectAttempt + 1
    · simp [own] at failing
    · simp only [Function.update_of_ne own] at failing
      have ok := inv.failing other shutdown failing unclaimed
      have accepted := ok.accepted
      rw [at_] at accepted
      cases accepted
  case inactive =>
    intro inactive
    rw [active] at inactive
    cases inactive
  case queued =>
    intro queued
    rw [notQueued] at queued
    cases queued

/-- A Connect is accepted when no failing attempt is in the way. -/
theorem connectActive (inv : Attempts service) (at_ : service.main = .connectActive)
    {input : Input} (allowed : Considerate service (.main input))
    (stepTo : mainStep service input = some next) : Attempts next := by
  simp only [mainStep, at_] at stepTo
  split at stepTo
  next active =>
    cases stepTo
    exact inv.looper ⟨rfl, rfl, rfl, rfl⟩ rfl trivial (by simp [MainPc.accepted])
      (.inr (by simp [at_]))
  next inactive =>
    have inactive : service.tunnelActive = false := by simpa using inactive
    have clear (other : Nat) (shutdown : ShutdownPc)
        (failing : service.connect other = .failing shutdown) :
        shutdown.unclaimed = false := by
      have bounded := inv.spawned other (by simp [failing])
      simpa [ConnectPc.unclaimed, failing] using allowed.1 at_ inactive other bounded
    have rests : service.Resting := by
      rcases inv.inactive inactive with
        rests | ⟨pc, shutting, _⟩ | ⟨other, shutdown, failing, cancelling⟩
      · exact rests
      · rw [at_] at shutting
        cases shutting
      · have unclaimed := clear other shutdown failing
        cases shutdown <;>
          simp [ShutdownPc.cancelling, ShutdownPc.unclaimed] at cancelling unclaimed
    cases stepTo
    constructor
    case spawned => exact inv.spawned
    case main => exact rests
    case failing =>
      intro other shutdown failing unclaimed
      rw [clear other shutdown failing] at unclaimed
      cases unclaimed
    case inactive => exact fun _ => .inl rests
    case queued =>
      intro queued
      have served := (inv.queued queued).2
      rw [at_] at served
      exact ⟨rests, .inl (served.resolve_right (by simp))⟩

/-- `finishShutdown` clears `stopping` and then takes the queued connect. -/
theorem finish (inv : Attempts service)
    (at_ : service.main = .finishStopping ∨ service.main = .finishQueued)
    {input : Input} (stepTo : mainStep service input = some next) : Attempts next := by
  have shutting (pc : ShutdownPc) : service.main ≠ .shutdown pc := by
    rcases at_ with at_ | at_ <;> simp [at_]
  have inactive (inactive : service.tunnelActive = false) : service.Resting ∨
      ∃ attempt pc, service.connect attempt = .failing pc ∧ pc.cancelling = true := by
    rcases inv.inactive inactive with rests | ⟨pc, main, _⟩ | failing
    · exact .inl rests
    · exact absurd main (shutting pc)
    · exact .inr failing
  rcases at_ with at_ | at_
  · simp only [mainStep, at_, Option.some.injEq] at stepTo
    subst stepTo
    constructor
    case spawned => exact inv.spawned
    case main => trivial
    case failing =>
      intro other shutdown failing unclaimed
      have ok := inv.failing other shutdown failing unclaimed
      exact ⟨ok.queued, rfl, ok.active⟩
    case inactive => exact fun now => (inactive now).imp_right .inr
    case queued => exact fun queued => ⟨(inv.queued queued).1, .inr rfl⟩
  · simp only [mainStep, at_, Option.some.injEq] at stepTo
    subst stepTo
    constructor
    case spawned => exact inv.spawned
    case main =>
      by_cases queued : service.connectQueued = true
      · simp only [queued, if_true]
        exact ⟨(inv.queued queued).1, rfl⟩
      · simp only [queued]
        trivial
    case failing =>
      intro other shutdown failing unclaimed
      have ok := inv.failing other shutdown failing unclaimed
      refine ⟨rfl, ?_, ok.active⟩
      simp [ok.queued, MainPc.accepted]
    case inactive => exact fun now => (inactive now).imp_right .inr
    case queued => simp

/-- A failing attempt changes what decides who is wanted, with nobody newer
about. -/
theorem failingThread (inv : Attempts service) {pc : ShutdownPc} {after : ConnectPc}
    (busy : service.connect attempt ≠ .idle) (ok : FailingOk service attempt pc)
    (main : next.main = service.main)
    (moved : next.connect = Function.update service.connect attempt after)
    (queued : next.connectQueued = service.connectQueued)
    (withdrawn : next.tunnelActive = false)
    (counter : service.connectAttempt ≤ next.connectAttempt)
    (inactive : next.Resting ∨
      (∃ pc, next.main = .shutdown pc ∧ pc.cancelling = true) ∨
      ∃ attempt pc, next.connect attempt = .failing pc ∧ pc.cancelling = true) :
    Attempts next := by
  have notQueued : next.connectQueued = false := queued.trans ok.queued
  have notAccepted : next.main.accepted = false := main ▸ ok.accepted
  constructor
  case spawned =>
    intro other running
    apply Nat.le_trans _ counter
    by_cases own : other = attempt
    · exact own ▸ inv.spawned attempt busy
    · rw [moved, Function.update_of_ne own] at running
      exact inv.spawned other running
  case main =>
    cases at_ : next.main with
    | shutdown pc => cases pc <;> trivial
    | _ =>
        rw [at_] at notAccepted
        trivial
  case failing =>
    intro other shutdown _ _
    refine ⟨notQueued, notAccepted, fun active => ?_⟩
    rw [withdrawn] at active
    cases active
  case inactive => exact fun _ => inactive
  case queued =>
    intro served
    rw [notQueued] at served
    cases served

/-- One step of `shutdown()` in a failing attempt. -/
theorem failingStep (inv : Attempts service) {pc : ShutdownPc}
    (at_ : service.connect attempt = .failing pc) {input : Input}
    (stepTo : connectStep service attempt input = some next) : Attempts next := by
  have busy : service.connect attempt ≠ .idle := by simp [at_]
  have ok := inv.failing attempt pc at_
  cases pc with
  | clearActive =>
      simp only [connectStep, at_, shutdownStep, Option.some.injEq] at stepTo
      subst stepTo
      exact inv.failingThread busy (ok rfl) rfl rfl rfl rfl (Nat.le_refl _)
        (.inr (.inr ⟨attempt, .clearQueued, Function.update_self .., rfl⟩))
  | clearQueued =>
      simp only [connectStep, at_, shutdownStep, Option.some.injEq] at stepTo
      subst stepTo
      have ok := ok rfl
      have same : SameControl service
          ({ service with connectQueued := false }.connectAt attempt (.failing .bumpAttempt)) :=
        ⟨rfl, rfl, ok.queued.symm, rfl⟩
      refine inv.thread busy (fun _ _ _ => ⟨.bumpAttempt, rfl, rfl⟩) same rfl rfl ?_
      rintro shutdown ⟨⟩ _
      exact ⟨ok.queued, ok.accepted, fun active => by cases (ok.active active).2⟩
  | bumpAttempt =>
      have withdrawn : service.tunnelActive = false := by
        by_contra active
        have active : service.tunnelActive = true := by simpa using active
        cases ((ok rfl).active active).2
      have fresh : service.connectAttempt + 1 ≠ attempt := by
        have := inv.spawned attempt busy
        omega
      simp only [connectStep, at_, shutdownStep, Option.some.injEq] at stepTo
      subst stepTo
      refine inv.failingThread busy (ok rfl) rfl rfl rfl withdrawn (Nat.le_succ _) (.inl ?_)
      exact (Function.update_of_ne fresh ..).trans inv.beyond
  | clearRebind =>
      simp only [connectStep, at_, shutdownStep, Option.some.injEq] at stepTo
      subst stepTo
      refine inv.thread busy (by simp [at_, ShutdownPc.cancelling]) ⟨rfl, rfl, rfl, rfl⟩ rfl rfl ?_
      rintro shutdown ⟨⟩ _
      have ok := ok rfl
      exact ⟨ok.queued, ok.accepted, fun active => by cases (ok.active active).2⟩
  | claimStopping =>
      by_cases claimed : service.stopping = true
      · simp only [connectStep, at_, shutdownStep, claimed, if_true, Option.some.injEq] at stepTo
        subst stepTo
        exact inv.thread busy (by simp [at_, ShutdownPc.cancelling]) ⟨rfl, rfl, rfl, rfl⟩ rfl rfl
          (by simp)
      · have withdrawn : service.tunnelActive = false := by
          by_contra active
          have active : service.tunnelActive = true := by simpa using active
          cases ((ok rfl).active active).2
        simp only [connectStep, at_, shutdownStep, claimed] at stepTo
        cases stepTo
        refine inv.failingThread busy (ok rfl) rfl rfl rfl withdrawn (Nat.le_refl _) ?_
        rcases inv.inactive withdrawn with rests | shutting | ⟨other, shutdown, failing, cancelling⟩
        · have distinct : service.connectAttempt ≠ attempt := fun own => busy (own ▸ rests)
          exact .inl ((Function.update_of_ne distinct ..).trans rests)
        · exact .inr (.inl shutting)
        · have distinct : other ≠ attempt := by
            rintro rfl
            rw [at_] at failing
            cases failing
            cases cancelling
          exact .inr (.inr ⟨other, shutdown, (Function.update_of_ne distinct ..).trans failing,
            cancelling⟩)
  | unregister =>
      cases stepTo.symm.trans (by simp only [connectStep, at_, shutdownStep]; rfl)
      exact inv.thread busy (by simp [at_, ShutdownPc.cancelling]) ⟨rfl, rfl, rfl, rfl⟩ rfl rfl
        (by rintro shutdown ⟨⟩ ⟨⟩)
  | takeFd =>
      cases stepTo.symm.trans (by simp only [connectStep, at_, shutdownStep]; rfl)
      exact inv.thread busy (by simp [at_, ShutdownPc.cancelling]) ⟨rfl, rfl, rfl, rfl⟩ rfl rfl
        (by rintro shutdown ⟨⟩ ⟨⟩)
  | clearFd fd =>
      cases stepTo.symm.trans (by simp only [connectStep, at_, shutdownStep]; rfl)
      exact inv.thread busy (by simp [at_, ShutdownPc.cancelling]) ⟨rfl, rfl, rfl, rfl⟩ rfl rfl
        (by rintro shutdown ⟨⟩ ⟨⟩)
  | spawnStop fd =>
      cases stepTo.symm.trans (by simp only [connectStep, at_, shutdownStep]; rfl)
      exact inv.thread busy (by simp [at_, ShutdownPc.cancelling]) ⟨rfl, rfl, rfl, rfl⟩ rfl rfl
        (by simp)

/-- One step of `shutdown()` on the main looper. -/
theorem mainShutdown (inv : Attempts service) {pc : ShutdownPc}
    (at_ : service.main = .shutdown pc) {input : Input}
    (stepTo : mainStep service input = some next) : Attempts next := by
  have ok := inv.main
  rw [at_] at ok
  have notAccepted (after : ShutdownPc) : (MainPc.shutdown after).accepted = false := rfl
  have served (queued : service.connectQueued = true) :
      service.Resting ∧ service.stopping = true := by
    obtain ⟨rests, served⟩ := inv.queued queued
    exact ⟨rests, served.resolve_right (by simp [at_])⟩
  cases pc with
  | clearActive =>
      simp only [mainStep, at_, shutdownStep, Option.some.injEq] at stepTo
      subst stepTo
      constructor
      case spawned => exact inv.spawned
      case main => rfl
      case failing =>
        intro other shutdown failing unclaimed
        exact ⟨(inv.failing other shutdown failing unclaimed).queued, rfl, by simp⟩
      case inactive => exact fun _ => .inr (.inl ⟨.clearQueued, rfl, rfl⟩)
      case queued => exact fun queued => ⟨(served queued).1, .inl (served queued).2⟩
  | clearQueued =>
      simp only [mainStep, at_, shutdownStep, Option.some.injEq] at stepTo
      subst stepTo
      constructor
      case spawned => exact inv.spawned
      case main => exact ok
      case failing =>
        intro other shutdown failing unclaimed
        exact ⟨rfl, rfl, (inv.failing other shutdown failing unclaimed).active⟩
      case inactive => exact fun _ => .inr (.inl ⟨.bumpAttempt, rfl, rfl⟩)
      case queued => simp
  | bumpAttempt =>
      have withdrawn : service.tunnelActive = false := ok
      simp only [mainStep, at_, shutdownStep, Option.some.injEq] at stepTo
      subst stepTo
      constructor
      case spawned =>
        exact fun other running => Nat.le_succ_of_le (inv.spawned other running)
      case main => trivial
      case failing =>
        intro other shutdown failing unclaimed
        refine ⟨(inv.failing other shutdown failing unclaimed).queued, rfl, fun active => ?_⟩
        rw [withdrawn] at active
        cases active
      case inactive => exact fun _ => .inl inv.beyond
      case queued => exact fun queued => ⟨inv.beyond, .inl (served queued).2⟩
  | claimStopping =>
      by_cases claimed : service.stopping = true
      · simp only [mainStep, at_, shutdownStep, claimed, if_true, Option.some.injEq] at stepTo
        subst stepTo
        exact inv.looper ⟨rfl, rfl, rfl, claimed.symm⟩ rfl trivial (by simp [MainPc.accepted])
          (.inr (by simp [at_, ShutdownPc.cancelling]))
      · simp only [mainStep, at_, shutdownStep, claimed] at stepTo
        cases stepTo
        constructor
        case spawned => exact inv.spawned
        case main => trivial
        case failing =>
          intro other shutdown failing unclaimed
          have ok := inv.failing other shutdown failing unclaimed
          exact ⟨ok.queued, rfl, ok.active⟩
        case inactive =>
          intro inactive
          rcases inv.inactive inactive with rests | ⟨pc, main, cancelling⟩ | failing
          · exact .inl rests
          · rw [at_] at main
            cases main
            cases cancelling
          · exact .inr (.inr failing)
        case queued => exact fun queued => ⟨(served queued).1, .inl rfl⟩
  | _ =>
      cases stepTo.symm.trans (by simp only [mainStep, at_, shutdownStep]; rfl)
      exact inv.looper ⟨rfl, rfl, rfl, rfl⟩ rfl trivial (by simp [MainPc.accepted])
        (.inr (by simp [at_, ShutdownPc.cancelling]))

theorem mainStep (inv : Attempts service) {input : Input}
    (allowed : Considerate service (.main input))
    (stepTo : VpnService.mainStep service input = some next) : Attempts next := by
  have ok := inv.main
  cases at_ : service.main with
  | idle => simp [VpnService.mainStep, at_] at stepTo
  | shutdown pc => exact inv.mainShutdown at_ stepTo
  | connectActive => exact inv.connectActive at_ allowed stepTo
  | beginAttempt config => exact inv.beginAttempt at_ stepTo
  | finishStopping => exact inv.finish (.inl at_) stepTo
  | finishQueued => exact inv.finish (.inr at_) stepTo
  | configClaim =>
      obtain ⟨worker, _, _, claimed⟩ := claimWorker_claims service
      simp only [VpnService.mainStep, at_, claimed, Option.some.injEq] at stepTo
      subst stepTo
      exact inv.looper ⟨rfl, rfl, rfl, rfl⟩ rfl trivial (by simp [MainPc.accepted])
        (.inr (by simp [at_]))
  | configActive | configFd | configRunning | configDefer | configRequest | connectIdentity =>
      simp only [VpnService.mainStep, at_] at stepTo
      first | split at stepTo | skip
      all_goals
        cases stepTo
        exact inv.looper ⟨rfl, rfl, rfl, rfl⟩ rfl trivial (by simp [MainPc.accepted])
          (.inr (by simp [at_]))
  | connectStopping =>
      rw [at_] at ok
      have accepted : service.main.accepted = true := by rw [at_]; rfl
      have notFinishing : service.main ≠ .finishQueued := by simp [at_]
      simp only [VpnService.mainStep, at_] at stepTo
      split at stepTo
      next stopping =>
        cases stepTo
        exact inv.whileAccepted accepted rfl rfl ⟨ok, stopping⟩ (fun _ => stopping)
      next notStopping =>
        have notQueued : service.connectQueued = false := by
          rw [Bool.eq_false_iff]
          exact fun queued => notStopping ((inv.queued queued).2.resolve_right notFinishing)
        cases stepTo
        exact inv.whileAccepted accepted rfl rfl ⟨ok, notQueued⟩ (by simp [notQueued])
  | queueActive | queueSet =>
      rw [at_] at ok
      have accepted : service.main.accepted = true := by rw [at_]; rfl
      simp only [VpnService.mainStep, at_] at stepTo
      cases stepTo
      exact inv.whileAccepted accepted rfl rfl (by trivial) (fun _ => ok.2)
  | beginBuild =>
      rw [at_] at ok
      have accepted : service.main.accepted = true := by rw [at_]; rfl
      simp only [VpnService.mainStep, at_] at stepTo
      split at stepTo
      next => cases stepTo
      next json built =>
        cases stepTo
        exact inv.whileAccepted accepted rfl rfl ok (by simp [ok.2])
  | beginActive config =>
      rw [at_] at ok
      have accepted : service.main.accepted = true := by rw [at_]; rfl
      simp only [VpnService.mainStep, at_] at stepTo
      cases stepTo
      exact inv.whileAccepted accepted rfl rfl ⟨ok.1, ok.2, rfl⟩ (by simp [ok.2])
  | beginRebind config =>
      rw [at_] at ok
      have accepted : service.main.accepted = true := by rw [at_]; rfl
      simp only [VpnService.mainStep, at_] at stepTo
      cases stepTo
      exact inv.whileAccepted accepted rfl rfl ok (by simp [ok.2.1])
  | finishIdentity =>
      rw [at_] at ok
      have accepted : service.main.accepted = true := by rw [at_]; rfl
      simp only [VpnService.mainStep, at_] at stepTo
      split at stepTo
      all_goals
        cases stepTo
        exact inv.whileAccepted accepted rfl rfl (by trivial) (by simp [ok.2])

/-- Threads other than these two kinds leave the connects alone. -/
theorem bystander (inv : Attempts service) (same : SameControl service next)
    (threads : next.connect = service.connect) (main : next.main = service.main) :
    Attempts next :=
  inv.looper same threads (main ▸ inv.main) (main ▸ id) (.inl main)

theorem connectStep (inv : Attempts service) {input : Input}
    (allowed : Considerate service (.connect attempt input))
    (stepTo : VpnService.connectStep service attempt input = some next) : Attempts next := by
  rcases connectStep_cases stepTo with ⟨pc, failing⟩ | ⟨busy, same, main, -, pc, moved, fails⟩
  · exact inv.failingStep failing stepTo
  · by_cases calm : ∃ shutdown, service.connect attempt = .failing shutdown
    · obtain ⟨shutdown, failing⟩ := calm
      exact inv.failingStep failing stepTo
    · refine inv.thread busy (fun shutdown failing _ => absurd ⟨shutdown, failing⟩ calm)
        same main moved ?_
      intro shutdown failing _
      obtain ⟨begins, attemptFails⟩ := fails shutdown failing
      have alone : ¬ service.NewerConnect attempt := by
        by_cases wanted : service.stillWanted attempt
        · exact inv.not_newerConnect busy wanted
        · exact allowed attemptFails wanted
      have bounded := inv.spawned attempt busy
      simp only [Service.NewerConnect, not_or, not_and, Bool.not_eq_true] at alone
      exact ⟨alone.2.1, alone.2.2, fun active => ⟨by have := alone.1 active; omega, begins⟩⟩

theorem workerStep (inv : Attempts service) {input : Input}
    (stepTo : VpnService.workerStep service input = some next) : Attempts next := by
  obtain ⟨_, _, _, _, _, _, _, rfl⟩ := workerStep_frame stepTo
  exact inv.bystander ⟨rfl, rfl, rfl, rfl⟩ rfl rfl

theorem disconnectStep (inv : Attempts service)
    (stepTo : VpnService.disconnectStep service = some next) : Attempts next := by
  rcases disconnectStep_cases stepTo with ⟨fd, _, _, rfl⟩ | ⟨fd, _, rfl⟩
  · exact inv.bystander ⟨rfl, rfl, rfl, rfl⟩ rfl rfl
  · obtain ⟨openFds, closed⟩ := closeOpt_eq service fd
    rw [closed]
    exact inv.bystander ⟨rfl, rfl, rfl, rfl⟩ rfl rfl

theorem step (inv : Attempts service) {move : Move} (allowed : Considerate service move)
    (stepTo : VpnService.step service move = some next) : Attempts next := by
  cases move with
  | main input => exact inv.mainStep allowed stepTo
  | connect attempt input => exact inv.connectStep allowed stepTo
  | disconnect => exact inv.disconnectStep stepTo
  | worker input => exact inv.workerStep stepTo
  | command command =>
      simp only [VpnService.step] at stepTo
      split at stepTo
      next idle =>
        cases stepTo
        cases command <;>
          exact inv.looper ⟨rfl, rfl, rfl, rfl⟩ rfl trivial (by simp [commandStep, MainPc.accepted])
            (.inr (by simp [idle]))
      next => cases stepTo
  | finishShutdown =>
      simp only [VpnService.step] at stepTo
      split at stepTo
      next idle =>
        cases stepTo
        exact inv.looper ⟨rfl, rfl, rfl, rfl⟩ rfl trivial (by simp [MainPc.accepted])
          (.inr (by simp [idle.1]))
      next => cases stepTo
  | request | reread =>
      simp only [VpnService.step] at stepTo
      split at stepTo
      next =>
        cases stepTo
        exact inv.bystander ⟨rfl, rfl, rfl, rfl⟩ rfl rfl
      next => cases stepTo
  | requestClaim | reclaim =>
      obtain ⟨worker, _, _, claimed⟩ := claimWorker_claims service
      simp only [VpnService.step, claimed] at stepTo
      split at stepTo
      next =>
        cases stepTo
        exact inv.bystander ⟨rfl, rfl, rfl, rfl⟩ rfl rfl
      next => cases stepTo

theorem initial : Attempts initial where
  spawned := fun _ running => absurd rfl running
  main := trivial
  failing := fun _ _ failing => by cases failing
  inactive := fun _ => .inl rfl
  queued := fun queued => by cases queued

/-- A step of a failing attempt finds no newer Connect, and any other step of
a connect thread leaves a newer one alone. -/
theorem sparesWanted (inv : Attempts service) {input : Input}
    (stepTo : VpnService.connectStep service attempt input = some next) :
    SparesWanted service next attempt := by
  rcases control_kept stepTo with same | ⟨pc, failing, unclaimed⟩
  · exact .ofSameControl same
  · have alone := (inv.failing attempt pc failing unclaimed).not_newerConnect
    constructor
    case wanted =>
      intro newer later wanted
      exact absurd (.inl ⟨wanted.1, wanted.2.symm ▸ later⟩) alone
    case queued => exact fun queued => absurd (.inr (.inl queued)) alone
    case control => exact fun newer => absurd newer alone

end Attempts

end Fips2Go.VpnService
