import Fips2Go.VpnServiceTurns

/-!
# The latest attempt

Where no attempt begins beside an older one that is past its check, the threads
that still look at `tunFd` and the engine are those of the latest attempt, and every
engine is the session's, or somebody is still going to stop it.
-/

namespace Fips2Go.VpnService

open GuardedRuns

/-! ### Which descriptor is whose -/

/-- The descriptor that `establish()` gave the thread. -/
def ConnectPc.pfd : ConnectPc → Option Nat
  | .check _ pfd | .replace _ pfd | .closeOld _ pfd _ | .adopt _ pfd | .start _ pfd
  | .started pfd | .lateStop pfd | .disown pfd | .disownSet pfd | .closeOwn pfd => some pfd
  | _ => none

/-- The same while it is not in `tunFd`. -/
def ConnectPc.withheld : ConnectPc → Option Nat
  | .check _ pfd | .replace _ pfd | .closeOld _ pfd _ | .adopt _ pfd | .closeOwn pfd => some pfd
  | _ => none

theorem ConnectPc.pfd_of_withheld {pc : ConnectPc} {fd : Nat} (withheld : pc.withheld = some fd) :
    pc.pfd = some fd := by
  cases pc <;> first | exact withheld | cases withheld

structure Numbered (service : Service) : Prop where
  slot : ∀ fd, service.tunFd = some fd → fd < service.nextFd
  rebind : ∀ fd, service.worker.role.fresh = some fd →
    fd < service.nextFd ∧ ∀ attempt, (service.connect attempt).pfd ≠ some fd
  thread : ∀ attempt fd, (service.connect attempt).pfd = some fd →
    fd < service.nextFd ∧ ∀ other ≠ attempt, (service.connect other).pfd ≠ some fd
  withheld : ∀ attempt fd, (service.connect attempt).withheld = some fd →
    service.tunFd ≠ some fd

namespace Numbered

variable {service next : Service} {attempt : Nat}

theorem initial : Numbered initial := by
  constructor <;> simp [VpnService.initial, WorkerPc.role, HandleLedger.Role.nothing, ConnectPc.pfd,
    ConnectPc.withheld]

/-- No descriptor is established or adopted. -/
theorem mono (inv : Numbered service) (nextFd : next.nextFd = service.nextFd)
    (slot : ∀ fd, next.tunFd = some fd → service.tunFd = some fd)
    (rebind : ∀ fd, next.worker.role.fresh = some fd → service.worker.role.fresh = some fd)
    (thread : ∀ attempt fd, (next.connect attempt).pfd = some fd →
      (service.connect attempt).pfd = some fd)
    (withheld : ∀ attempt fd, (next.connect attempt).withheld = some fd →
      (service.connect attempt).withheld = some fd ∨ next.tunFd ≠ some fd) : Numbered next where
  slot fd holds := nextFd ▸ inv.slot fd (slot fd holds)
  rebind fd holds := by
    obtain ⟨small, others⟩ := inv.rebind fd (rebind fd holds)
    exact ⟨nextFd ▸ small, fun attempt own => others attempt (thread attempt fd own)⟩
  thread attempt fd holds := by
    obtain ⟨small, others⟩ := inv.thread attempt fd (thread attempt fd holds)
    exact ⟨nextFd ▸ small, fun other different own => others other different (thread other fd own)⟩
  withheld attempt fd holds := by
    rcases withheld attempt fd holds with before | absent
    · exact fun current => inv.withheld attempt fd before (slot fd current)
    · exact absent

/-- The same for a step of one thread. -/
theorem ofThread (inv : Numbered service) {pc : ConnectPc}
    (moved : next.connect = Function.update service.connect attempt pc)
    (nextFd : next.nextFd = service.nextFd)
    (slot : ∀ fd, next.tunFd = some fd → service.tunFd = some fd)
    (rebind : ∀ fd, next.worker.role.fresh = some fd → service.worker.role.fresh = some fd)
    (keeps : ∀ fd, pc.pfd = some fd → (service.connect attempt).pfd = some fd)
    (withholds : ∀ fd, pc.withheld = some fd →
      (service.connect attempt).withheld = some fd ∨ next.tunFd ≠ some fd) : Numbered next := by
  apply inv.mono nextFd slot rebind
  · intro other fd
    rw [moved]
    by_cases own : other = attempt
    · subst own
      rw [Function.update_self]
      exact keeps fd
    · rw [Function.update_of_ne own]
      exact id
  · intro other fd
    rw [moved]
    by_cases own : other = attempt
    · subst own
      rw [Function.update_self]
      exact withholds fd
    · rw [Function.update_of_ne own]
      exact .inl

/-- A thread is given a descriptor nobody has had before. -/
theorem establish (inv : Numbered service) (config : Config) :
    Numbered (service.establish.connectAt attempt (.check config service.nextFd)) where
  slot fd holds := Nat.lt_succ_of_lt (inv.slot fd holds)
  rebind fd holds := by
    obtain ⟨small, others⟩ := inv.rebind fd holds
    refine ⟨Nat.lt_succ_of_lt small, fun other own => ?_⟩
    by_cases same : other = attempt
    · subst same
      simp only [Service.connectAt, Function.update_self, ConnectPc.pfd, Option.some.injEq] at own
      omega
    · simp only [Service.connectAt, Function.update_of_ne same] at own
      exact others other own
  thread other fd holds := by
    simp only [Service.connectAt] at holds ⊢
    by_cases same : other = attempt
    · subst same
      obtain rfl : service.nextFd = fd := by
        simpa only [Function.update_self, ConnectPc.pfd, Option.some.injEq] using holds
      refine ⟨Nat.lt_succ_self _, fun third different own => ?_⟩
      rw [Function.update_of_ne different] at own
      exact absurd (inv.thread third _ own).1 (Nat.lt_irrefl _)
    · rw [Function.update_of_ne same] at holds
      obtain ⟨small, others⟩ := inv.thread other fd holds
      refine ⟨Nat.lt_succ_of_lt small, fun third different own => ?_⟩
      by_cases its : third = attempt
      · subst its
        simp only [Function.update_self, ConnectPc.pfd, Option.some.injEq] at own
        omega
      · rw [Function.update_of_ne its] at own
        exact others third different own
  withheld other fd holds current := by
    simp only [Service.connectAt] at holds
    by_cases same : other = attempt
    · subst same
      simp only [Function.update_self, ConnectPc.withheld, Option.some.injEq] at holds
      have := inv.slot fd current
      omega
    · rw [Function.update_of_ne same] at holds
      exact inv.withheld other fd holds current

/-- The descriptor in `tunFd` is the thread's own from the assignment on. -/
theorem adopt (inv : Numbered service) {config : Config} {pfd : Nat}
    (at_ : service.connect attempt = .adopt config pfd) :
    Numbered ({ service with tunFd := some pfd }.connectAt attempt (.start config pfd)) where
  slot fd holds := by
    obtain rfl := Option.some.inj holds
    exact (inv.thread attempt _ (by rw [at_]; rfl)).1
  rebind fd holds := by
    obtain ⟨small, others⟩ := inv.rebind fd holds
    refine ⟨small, fun other own => ?_⟩
    by_cases same : other = attempt
    · subst same
      refine others other ?_
      rw [at_]
      simpa only [Service.connectAt, Function.update_self, ConnectPc.pfd] using own
    · simp only [Service.connectAt, Function.update_of_ne same] at own
      exact others other own
  thread other fd holds := by
    have before (third : Nat) (own : (Function.update service.connect attempt
        (.start config pfd) third).pfd = some fd) : (service.connect third).pfd = some fd := by
      by_cases same : third = attempt
      · subst same
        rw [Function.update_self] at own
        rw [at_]
        exact own
      · rwa [Function.update_of_ne same] at own
    obtain ⟨small, others⟩ := inv.thread other fd (before other holds)
    exact ⟨small, fun third different own => others third different (before third own)⟩
  withheld other fd holds current := by
    obtain rfl := Option.some.inj current
    simp only [Service.connectAt] at holds
    by_cases same : other = attempt
    · subst same
      rw [Function.update_self] at holds
      cases holds
    · rw [Function.update_of_ne same] at holds
      exact (inv.thread attempt _ (by rw [at_]; rfl)).2 other same
        (ConnectPc.pfd_of_withheld holds)

theorem connectStep (inv : Numbered service) {input : Input}
    (stepTo : VpnService.connectStep service attempt input = some next) : Numbered next := by
  cases at_ : service.connect attempt with
  | idle => simp [VpnService.connectStep, at_] at stepTo
  | establish config =>
      simp only [VpnService.connectStep, at_] at stepTo
      split at stepTo
      · cases stepTo
        exact inv.establish config
      · cases stepTo
        exact inv.ofThread rfl rfl (fun _ => id) (fun _ => id) (by simp [ConnectPc.pfd])
          (by simp [ConnectPc.withheld])
  | adopt config pfd =>
      simp only [VpnService.connectStep, at_, Option.some.injEq] at stepTo
      subst stepTo
      exact inv.adopt at_
  | disown pfd =>
      simp only [VpnService.connectStep, at_] at stepTo
      split at stepTo
      next =>
        cases stepTo
        exact inv.ofThread rfl rfl (fun _ => id) (fun _ => id) (by simp [at_, ConnectPc.pfd])
          (by simp [ConnectPc.withheld])
      next elsewhere =>
        cases stepTo
        refine inv.ofThread rfl rfl (fun _ => id) (fun _ => id) (by simp [at_, ConnectPc.pfd]) ?_
        rintro fd ⟨⟩
        exact .inr elsewhere
  | requestClaim =>
      obtain ⟨worker, claims, _, claimed⟩ := claimWorker_claims service
      simp only [VpnService.connectStep, at_, claimed, Option.some.injEq] at stepTo
      subst stepTo
      refine inv.ofThread rfl rfl (fun _ => id) (fun fd holds => ?_) (by simp [ConnectPc.pfd])
        (by simp [ConnectPc.withheld])
      rcases claims with rfl | ⟨-, rfl⟩
      · exact holds
      · cases holds
  | failing pc =>
      cases pc with
      | claimStopping =>
          by_cases claimed : service.stopping = true
          all_goals
            simp only [VpnService.connectStep, at_, shutdownStep, claimed] at stepTo
            cases stepTo
            exact inv.ofThread rfl rfl (fun _ => id) (fun _ => id) (by simp [ConnectPc.pfd])
              (by simp [ConnectPc.withheld])
      | _ =>
          simp only [VpnService.connectStep, at_, shutdownStep, Option.some.injEq] at stepTo
          subst stepTo
          exact inv.ofThread rfl rfl (by simp [Service.connectAt]) (fun _ => id)
            (by simp [ConnectPc.pfd]) (by simp [ConnectPc.withheld])
  | _ =>
      simp only [VpnService.connectStep, at_] at stepTo
      repeat' split at stepTo
      all_goals first
        | cases stepTo; done
        | cases stepTo
          exact inv.ofThread rfl rfl (by simp [Service.connectAt, Service.close]) (fun _ => id)
            (by simp [at_, ConnectPc.pfd]) (by simp [at_, ConnectPc.withheld, Service.connectAt])

theorem workerStep (inv : Numbered service) {input : Input}
    (stepTo : VpnService.workerStep service input = some next) : Numbered next := by
  have threads {before after : Service} (same : after.connect = before.connect) (attempt fd : Nat)
      (holds : (after.connect attempt).withheld = some fd) :
      (before.connect attempt).withheld = some fd ∨ after.tunFd ≠ some fd :=
    .inl (same ▸ holds)
  cases at_ : service.worker with
  | none => simp [VpnService.workerStep, at_] at stepTo
  | establish config =>
      simp only [VpnService.workerStep, at_] at stepTo
      split at stepTo
      · cases stepTo
        constructor
        case slot => exact fun fd holds => Nat.lt_succ_of_lt (inv.slot fd holds)
        case rebind =>
          rintro _ ⟨⟩
          refine ⟨Nat.lt_succ_self _, fun attempt own => ?_⟩
          exact absurd (inv.thread attempt _ own).1 (Nat.lt_irrefl _)
        case thread =>
          intro attempt fd holds
          obtain ⟨small, others⟩ := inv.thread attempt fd holds
          exact ⟨Nat.lt_succ_of_lt small, others⟩
        case withheld => exact inv.withheld
      · cases stepTo
        exact inv.mono rfl (fun _ => id) (by simp [WorkerPc.role, HandleLedger.Role.nothing])
          (fun _ _ => id) (threads rfl)
  | adopt config fresh old =>
      obtain ⟨small, others⟩ := inv.rebind fresh (by rw [at_]; rfl)
      simp only [VpnService.workerStep, at_, Option.some.injEq] at stepTo
      subst stepTo
      constructor
      case slot =>
        rintro _ ⟨⟩
        exact small
      case rebind => simp [WorkerPc.role]
      case thread => exact inv.thread
      case withheld =>
        rintro attempt fd holds ⟨⟩
        exact others attempt (ConnectPc.pfd_of_withheld holds)
  | closeOld old =>
      obtain ⟨openFds, closed⟩ := closeOpt_eq service old
      simp only [VpnService.workerStep, at_, closed, Option.some.injEq] at stepTo
      subst stepTo
      exact inv.mono rfl (fun _ => id) (by simp [WorkerPc.role, HandleLedger.Role.nothing])
        (fun _ _ => id) (threads rfl)
  | _ =>
      simp only [VpnService.workerStep, at_] at stepTo
      repeat' split at stepTo
      all_goals first
        | cases stepTo; done
        | cases stepTo
          exact inv.mono rfl (fun _ => id)
            (by simp [at_, WorkerPc.role, HandleLedger.Role.nothing]) (fun _ _ => id) (threads rfl)

/-- The main looper establishes nothing and only takes `tunFd` back. -/
theorem mainStep_slot {input : Input} (stepTo : mainStep service input = some next) :
    next.nextFd = service.nextFd ∧ (next.tunFd = service.tunFd ∨ next.tunFd = none) := by
  cases at_ : service.main with
  | idle => simp [mainStep, at_] at stepTo
  | configClaim =>
      obtain ⟨worker, _, _, claimed⟩ := claimWorker_claims service
      simp only [mainStep, at_, claimed, Option.some.injEq] at stepTo
      subst stepTo
      exact ⟨rfl, .inl rfl⟩
  | shutdown pc =>
      cases pc with
      | clearFd fd =>
          simp only [mainStep, at_, shutdownStep, Option.some.injEq] at stepTo
          subst stepTo
          exact ⟨rfl, .inr rfl⟩
      | claimStopping =>
          by_cases claimed : service.stopping = true
          all_goals
            simp only [mainStep, at_, shutdownStep, claimed] at stepTo
            cases stepTo
            exact ⟨rfl, .inl rfl⟩
      | _ =>
          simp only [mainStep, at_, shutdownStep, Option.some.injEq] at stepTo
          subst stepTo
          exact ⟨rfl, .inl rfl⟩
  | _ =>
      simp only [mainStep, at_] at stepTo
      repeat' split at stepTo
      all_goals first
        | cases stepTo; done
        | cases stepTo
          exact ⟨rfl, .inl rfl⟩

theorem mainStep (inv : Numbered service) {input : Input}
    (stepTo : VpnService.mainStep service input = some next) : Numbered next := by
  obtain ⟨nextFd, slot⟩ := mainStep_slot stepTo
  obtain ⟨-, -, worker, -⟩ := mainStep_frame stepTo
  obtain ⟨-, threads⟩ := Orderly.mainStep_threads stepTo
  have slot (fd : Nat) (holds : next.tunFd = some fd) : service.tunFd = some fd := by
    rcases slot with same | gone
    · exact same ▸ holds
    · rw [gone] at holds
      cases holds
  have rebind (fd : Nat) (holds : next.worker.role.fresh = some fd) :
      service.worker.role.fresh = some fd := by
    rcases worker with same | ⟨-, claimed⟩
    · exact same ▸ holds
    · rw [claimed] at holds
      cases holds
  rcases threads with same | ⟨-, config, -, started⟩
  · exact inv.mono nextFd slot rebind (by simp [same]) (by simp +contextual [same])
  · exact inv.ofThread started nextFd slot rebind (by simp [ConnectPc.pfd])
      (by simp [ConnectPc.withheld])

theorem step (inv : Numbered service) {move : Move}
    (stepTo : VpnService.step service move = some next) : Numbered next := by
  have bystander {after : Service} (slot : after.tunFd = service.tunFd)
      (nextFd : after.nextFd = service.nextFd) (worker : Claimed service.worker after.worker)
      (threads : after.connect = service.connect) : Numbered after := by
    refine inv.mono nextFd (by simp [slot]) ?_ (by simp [threads]) (by simp +contextual [threads])
    rcases worker with same | ⟨-, claimed⟩
    · simp [same]
    · simp [claimed, WorkerPc.role, HandleLedger.Role.nothing]
  cases move with
  | main input => exact inv.mainStep stepTo
  | connect attempt input => exact inv.connectStep stepTo
  | worker input => exact inv.workerStep stepTo
  | disconnect =>
      rcases disconnectStep_cases stepTo with ⟨fd, -, -, rfl⟩ | ⟨fd, -, rfl⟩
      · exact bystander rfl rfl (.inl rfl) rfl
      · obtain ⟨openFds, closed⟩ := closeOpt_eq service fd
        rw [closed]
        exact bystander rfl rfl (.inl rfl) rfl
  | command command =>
      simp only [VpnService.step] at stepTo
      split at stepTo
      next =>
        cases stepTo
        cases command <;> exact bystander rfl rfl (.inl rfl) rfl
      next => cases stepTo
  | finishShutdown | request | reread =>
      simp only [VpnService.step] at stepTo
      split at stepTo
      next =>
        cases stepTo
        exact bystander rfl rfl (.inl rfl) rfl
      next => cases stepTo
  | requestClaim | reclaim =>
      obtain ⟨worker, claims, _, claimed⟩ := claimWorker_claims service
      simp only [VpnService.step, claimed] at stepTo
      split at stepTo
      next =>
        cases stepTo
        exact bystander rfl rfl claims rfl
      next => cases stepTo

end Numbered

/-! ### The session of a wanted attempt -/

/-- A wanted attempt with a thread is the session. -/
theorem Turns.present_of_wanted {service : Service} (inv : Turns service)
    (attempts : Attempts service) {attempt : Nat} (wanted : service.stillWanted attempt)
    (busy : service.connect attempt ≠ .idle) : service.Present := by
  obtain ⟨active, rfl⟩ := wanted
  refine ⟨active, ?_, ?_⟩
  · rw [Bool.eq_false_iff]
    exact fun stopping => busy (inv.resting stopping)
  · rw [Bool.eq_false_iff]
    intro opening
    have main := inv.main
    cases at_ : service.main with
    | finishQueued =>
        rw [at_] at main
        exact busy main.1
    | beginBuild | beginActive | beginRebind | beginAttempt | finishIdentity =>
        exact busy (accepted_resting attempts.main (by simp [at_, MainPc.accepted]))
    | _ => simp [at_, MainPc.opening] at opening

/-- The call gets to the stop of the engine. -/
def ShutdownPc.stops (stopping : Bool) : ShutdownPc → Bool
  | .clearActive => false
  | .clearQueued | .bumpAttempt | .clearRebind | .claimStopping => !stopping
  | .unregister | .takeFd | .clearFd _ | .spawnStop _ => true

/-- A shutdown, on whichever thread, has not stopped the engine yet. -/
def Service.StopComing (service : Service) : Prop :=
  service.StopAhead ∨
    ∃ attempt pc, service.connect attempt = .failing pc ∧ pc.stops service.stopping = true

/-- The engine of this attempt is the session's, or somebody is going to stop it. -/
def Service.Minded (service : Service) (attempt : Nat) : Prop :=
  service.Present ∧ attempt = service.connectAttempt ∨ service.StopComing ∨
    (service.connect attempt).watching = true

/-- The threads that still look at `tunFd` and the engine are the latest attempt's. -/
structure Latest (service : Service) : Prop where
  counted : ∀ engine, service.native.engine = some engine →
    engine.attempt ≤ service.connectAttempt
  minded : ∀ engine, service.native.engine = some engine → service.Minded engine.attempt
  before : service.Present → (service.connect service.connectAttempt).connecting = true →
    service.native.engine = none
  present : service.Present → ∀ attempt,
    (service.connect attempt).lingers service.tunFd = true → attempt = service.connectAttempt
  lingering : ∀ attempt, (service.connect attempt).lingers service.tunFd = true →
    (∀ newer, attempt < newer → service.connect newer = .idle) ∧
      ∀ engine, service.native.engine = some engine → engine.attempt ≤ attempt

namespace Latest

variable {service next : Service} {attempt : Nat}

theorem initial : Latest initial := by
  constructor <;> simp [VpnService.initial, Native.engine, Service.Present, ConnectPc.lingers]

/-- No engine is started, and no session begins. -/
theorem mono (inv : Latest service) (spawned : ∀ attempt, next.connect attempt ≠ .idle →
      attempt ≤ next.connectAttempt)
    (counter : service.connectAttempt ≤ next.connectAttempt)
    (native : ∀ engine, next.native.engine = some engine →
      ∃ earlier, service.native.engine = some earlier ∧ earlier.attempt = engine.attempt)
    (minded : ∀ engine, next.native.engine = some engine →
      service.Minded engine.attempt → next.Minded engine.attempt)
    (present : next.Present → service.Present ∧ next.connectAttempt = service.connectAttempt)
    (connecting : ∀ attempt, (next.connect attempt).connecting = true →
      (service.connect attempt).connecting = true)
    (lingers : ∀ attempt, (next.connect attempt).lingers next.tunFd = true →
      (service.connect attempt).lingers service.tunFd = true ∨ attempt = next.connectAttempt)
    (idle : ∀ attempt, service.connect attempt = .idle → next.connect attempt = .idle) :
    Latest next where
  counted engine runs := by
    obtain ⟨earlier, ran, same⟩ := native engine runs
    exact same ▸ Nat.le_trans (inv.counted earlier ran) counter
  minded engine runs := by
    obtain ⟨earlier, ran, same⟩ := native engine runs
    exact minded engine runs (same ▸ inv.minded earlier ran)
  before isPresent starting := by
    obtain ⟨was, same⟩ := present isPresent
    have down := inv.before was (connecting _ (same ▸ starting))
    cases runs : next.native.engine with
    | none => rfl
    | some engine =>
        obtain ⟨earlier, ran, -⟩ := native engine runs
        rw [down] at ran
        cases ran
  present isPresent attempt looks := by
    obtain ⟨was, same⟩ := present isPresent
    rcases lingers attempt looks with looked | latest
    · exact (inv.present was attempt looked).trans same.symm
    · exact latest
  lingering attempt looks := by
    rcases lingers attempt looks with looked | rfl
    · obtain ⟨alone, engines⟩ := inv.lingering attempt looked
      refine ⟨fun newer later => idle newer (alone newer later), fun engine runs => ?_⟩
      obtain ⟨earlier, ran, same⟩ := native engine runs
      exact same ▸ engines earlier ran
    · refine ⟨fun newer later => ?_, fun engine runs => ?_⟩
      · by_contra busy
        exact absurd (spawned newer busy) (Nat.not_le_of_lt later)
      · obtain ⟨earlier, ran, same⟩ := native engine runs
        exact same ▸ Nat.le_trans (inv.counted earlier ran) counter

/-! ### The main looper -/

/-- Nobody minds an engine where the next attempt begins alone, so there is none. -/
theorem engine_of_beginAttempt (inv : Latest service) (turns : Turns service)
    (attempts : Attempts service) {config : Config} (at_ : service.main = .beginAttempt config)
    (alone : service.BeginsAlone service.main) : service.native.engine = none := by
  have free := turns.main
  rw [at_] at free alone
  have free : service.stopping = false := free
  have nobody (tearer : Tearer) (tears : service.tears tearer) : False := by
    rw [turns.claimed.set tearer tears] at free
    cases free
  cases runs : service.native.engine with
  | none => rfl
  | some engine =>
      exfalso
      rcases inv.minded engine runs with ⟨present, -⟩ |
        ((⟨fd, stops⟩ | ahead) | ⟨other, pc, failing, stops⟩) | watching
      · have opening := present.2.2
        rw [at_] at opening
        cases opening
      · exact nobody .teardown (by simp [Service.tears, stops])
      · rw [at_] at ahead
        exact ahead
      · cases unclaimed : pc.unclaimed with
        | true =>
            have accepted := (attempts.failing other pc failing unclaimed).accepted
            rw [at_] at accepted
            cases accepted
        | false =>
            apply nobody (.attempt other)
            simp [Service.tears, failing, ConnectPc.tears, unclaimed]
      · have busy : service.connect engine.attempt ≠ .idle := by
          intro idle
          rw [idle] at watching
          cases watching
        have quiet := alone engine.attempt (attempts.spawned _ busy)
        rw [lingers_of_watching watching] at quiet
        cases quiet

theorem beginAttempt (inv : Latest service) (turns : Turns service)
    (attempts : Attempts service) {config : Config} (at_ : service.main = .beginAttempt config)
    (alone : service.BeginsAlone service.main) :
    Latest { service with
      connectAttempt := service.connectAttempt + 1
      connect := Function.update service.connect (service.connectAttempt + 1) (.enter config)
      main := .idle } := by
  have down := inv.engine_of_beginAttempt turns attempts at_ alone
  rw [at_] at alone
  have nobody (other : Nat) (looks : (Function.update service.connect (service.connectAttempt + 1)
      (.enter config) other).lingers service.tunFd = true) : False := by
    by_cases own : other = service.connectAttempt + 1
    · rw [own, Function.update_self] at looks
      cases looks
    · rw [Function.update_of_ne own] at looks
      have busy : service.connect other ≠ .idle := by
        intro idle
        rw [idle] at looks
        cases looks
      rw [alone other (attempts.spawned other busy)] at looks
      cases looks
  constructor
  case counted => simp [down]
  case minded => simp [down]
  case before => exact fun _ _ => down
  case present => exact fun _ other looks => (nobody other looks).elim
  case lingering => exact fun other looks => (nobody other looks).elim

theorem stops_mono {pc : ShutdownPc} {stopping : Bool} (stops : pc.stops stopping = true) :
    pc.stops false = true := by
  cases pc <;> first | rfl | exact stops

theorem mainStep_stopping {input : Input} (stepTo : VpnService.mainStep service input = some next) :
    next.stopping = service.stopping ∨ next.stopping = false ∨
      next.main = .shutdown .unregister := by
  cases at_ : service.main with
  | idle => simp [VpnService.mainStep, at_] at stepTo
  | finishStopping =>
      simp only [VpnService.mainStep, at_, Option.some.injEq] at stepTo
      subst stepTo
      exact .inr (.inl rfl)
  | configClaim =>
      obtain ⟨worker, _, _, claimed⟩ := claimWorker_claims service
      simp only [VpnService.mainStep, at_, claimed, Option.some.injEq] at stepTo
      subst stepTo
      exact .inl rfl
  | shutdown pc =>
      cases pc with
      | claimStopping =>
          simp only [VpnService.mainStep, at_, shutdownStep] at stepTo
          by_cases claimed : service.stopping = true
          · rw [if_pos claimed] at stepTo
            cases stepTo
            exact .inl rfl
          · rw [if_neg claimed] at stepTo
            cases stepTo
            exact .inr (.inr rfl)
      | _ =>
          simp only [VpnService.mainStep, at_, shutdownStep, Option.some.injEq] at stepTo
          subst stepTo
          exact .inl rfl
  | _ =>
      simp only [VpnService.mainStep, at_] at stepTo
      repeat' split at stepTo
      all_goals first
        | cases stepTo; done
        | cases stepTo
          exact .inl rfl

theorem mainStep_stopComing {input : Input}
    (stepTo : VpnService.mainStep service input = some next)
    (threads : next.connect = service.connect) (coming : service.StopComing) :
    next.StopComing := by
  rcases coming with ahead | ⟨attempt, pc, failing, stops⟩
  · exact .inl (mainStep_stopAhead stepTo ahead)
  · have still : next.connect attempt = .failing pc := by rw [threads, failing]
    rcases mainStep_stopping stepTo with same | cleared | claimed
    · exact .inr ⟨attempt, pc, still, by rw [same]; exact stops⟩
    · exact .inr ⟨attempt, pc, still, by rw [cleared]; exact stops_mono stops⟩
    · refine .inl (.inr ?_)
      rw [claimed]
      trivial

/-- Only a Disconnect ends a session, and it gets to its stop. -/
theorem mainStep_falls (turns : Turns service) (attempts : Attempts service) {input : Input}
    (stepTo : VpnService.mainStep service input = some next) (present : service.Present) :
    next.Present ∧ next.connectAttempt = service.connectAttempt ∨ next.StopComing := by
  obtain ⟨active, notStopping, notOpening⟩ := present
  have ok := attempts.main
  have turn := turns.main
  have nobody (tearer : Tearer) (tears : service.tears tearer) : False := by
    rw [turns.claimed.set tearer tears] at notStopping
    cases notStopping
  have inactive (off : service.tunnelActive = false) : False := by
    rw [active] at off
    cases off
  cases at_ : service.main with
  | idle => simp [VpnService.mainStep, at_] at stepTo
  | shutdown pc =>
      rw [at_] at ok turn
      cases pc with
      | clearActive =>
          simp only [VpnService.mainStep, at_, shutdownStep, Option.some.injEq] at stepTo
          subst stepTo
          exact .inr (.inl (.inr notStopping))
      | clearQueued | bumpAttempt => exact (inactive ok).elim
      | clearRebind | claimStopping => exact (inactive turn.1).elim
      | _ => exact (nobody .looper (by simp [Service.tears, at_, MainPc.tears,
          ShutdownPc.unclaimed])).elim
  | configClaim =>
      obtain ⟨worker, _, _, claimed⟩ := claimWorker_claims service
      simp only [VpnService.mainStep, at_, claimed, Option.some.injEq] at stepTo
      subst stepTo
      exact .inl ⟨⟨active, notStopping, rfl⟩, rfl⟩
  | configActive | configFd | configRunning | configDefer | configRequest
  | connectIdentity | connectActive =>
      simp only [VpnService.mainStep, at_] at stepTo
      repeat' split at stepTo
      all_goals
        cases stepTo
        exact .inl ⟨⟨active, notStopping, rfl⟩, rfl⟩
  | connectStopping =>
      rw [at_] at turn
      exact (inactive turn).elim
  | queueActive | queueSet =>
      rw [at_] at ok
      exact Bool.noConfusion (notStopping.symm.trans ok.2)
  | finishStopping => exact (nobody .looper (by simp [Service.tears, at_, MainPc.tears])).elim
  | _ => simp [at_, MainPc.opening] at notOpening

/-- A session begins with its attempt only. -/
theorem mainStep_rises (turns : Turns service) (attempts : Attempts service) {input : Input}
    (stepTo : VpnService.mainStep service input = some next)
    (later : ∀ config, service.main ≠ .beginAttempt config) (present : next.Present) :
    service.Present ∧ next.connectAttempt = service.connectAttempt := by
  have ok := attempts.main
  have turn := turns.main
  obtain ⟨active, notStopping, notOpening⟩ := present
  cases at_ : service.main with
  | idle => simp [VpnService.mainStep, at_] at stepTo
  | beginAttempt config => exact absurd at_ (later config)
  | shutdown pc =>
      rw [at_] at ok turn
      cases pc with
      | bumpAttempt =>
          have off : service.tunnelActive = false := ok
          simp only [VpnService.mainStep, at_, shutdownStep, Option.some.injEq] at stepTo
          subst stepTo
          exact Bool.noConfusion (off.symm.trans active)
      | claimStopping =>
          simp only [VpnService.mainStep, at_, shutdownStep] at stepTo
          by_cases claimed : service.stopping = true
          · rw [if_pos claimed] at stepTo
            cases stepTo
            exact Bool.noConfusion (notStopping.symm.trans claimed)
          · rw [if_neg claimed] at stepTo
            cases stepTo
            cases notStopping
      | clearActive =>
          simp only [VpnService.mainStep, at_, shutdownStep, Option.some.injEq] at stepTo
          subst stepTo
          cases active
      | _ =>
          simp only [VpnService.mainStep, at_, shutdownStep, Option.some.injEq] at stepTo
          subst stepTo
          exact ⟨⟨active, notStopping, by simp [at_, MainPc.opening]⟩, rfl⟩
  | configClaim =>
      obtain ⟨worker, _, _, claimed⟩ := claimWorker_claims service
      simp only [VpnService.mainStep, at_, claimed, Option.some.injEq] at stepTo
      subst stepTo
      exact ⟨⟨active, notStopping, by simp [at_, MainPc.opening]⟩, rfl⟩
  | queueActive | queueSet =>
      rw [at_] at ok
      simp only [VpnService.mainStep, at_, Option.some.injEq] at stepTo
      subst stepTo
      exact Bool.noConfusion (notStopping.symm.trans ok.2)
  | finishQueued =>
      rw [at_] at turn
      simp only [VpnService.mainStep, at_, Option.some.injEq] at stepTo
      subst stepTo
      have queued : service.connectQueued = true := turn.2.2 active
      simp [queued, MainPc.opening] at notOpening
  | configActive | configFd | configRunning | configDefer | configRequest
  | connectIdentity | connectActive =>
      simp only [VpnService.mainStep, at_] at stepTo
      repeat' split at stepTo
      all_goals
        cases stepTo
        exact ⟨⟨active, notStopping, by simp [at_, MainPc.opening]⟩, rfl⟩
  | connectStopping =>
      simp only [VpnService.mainStep, at_] at stepTo
      split at stepTo
      all_goals
        cases stepTo
        first
          | cases notOpening; done
          | exact ⟨⟨active, notStopping, by simp [at_, MainPc.opening]⟩, rfl⟩
  | finishIdentity =>
      simp only [VpnService.mainStep, at_] at stepTo
      split at stepTo
      all_goals
        cases stepTo
        first
          | cases notOpening; done
          | cases active
  | _ =>
      simp only [VpnService.mainStep, at_] at stepTo
      repeat' split at stepTo
      all_goals first
        | cases stepTo; done
        | cases stepTo
          cases notOpening

theorem mainStep (inv : Latest service) (turns : Turns service) (attempts : Attempts service)
    {input : Input} (alone : service.BeginsAlone service.main)
    (stepTo : VpnService.mainStep service input = some next) : Latest next := by
  by_cases begins : ∃ config, service.main = .beginAttempt config
  · obtain ⟨config, at_⟩ := begins
    have started := stepTo
    simp only [VpnService.mainStep, at_, Option.some.injEq] at started
    rw [← started]
    exact inv.beginAttempt turns attempts at_ alone
  have later (config : Config) : service.main ≠ .beginAttempt config :=
    fun at_ => begins ⟨config, at_⟩
  obtain ⟨native, -, -, -⟩ := mainStep_frame stepTo
  obtain ⟨-, slot⟩ := Numbered.mainStep_slot stepTo
  obtain ⟨counter, threads | ⟨-, config, at_, -⟩⟩ := Orderly.mainStep_threads stepTo
  · apply inv.mono _ counter
    · intro engine runs
      exact ⟨engine, native ▸ runs, rfl⟩
    · rintro engine - (⟨present, own⟩ | coming | watching)
      · rcases mainStep_falls turns attempts stepTo present with ⟨still, same⟩ | coming
        · exact .inl ⟨still, own.trans same.symm⟩
        · exact .inr (.inl coming)
      · exact .inr (.inl (mainStep_stopComing stepTo threads coming))
      · exact .inr (.inr (by rw [threads]; exact watching))
    · exact mainStep_rises turns attempts stepTo later
    · simp [threads]
    · intro attempt looks
      left
      rw [threads] at looks
      refine lingers_mono looks fun fd _ holds => ?_
      rcases slot with same | gone
      · exact same ▸ holds
      · rw [gone] at holds
        cases holds
    · simp [threads]
    · rw [threads]
      exact fun attempt busy => Nat.le_trans (attempts.spawned attempt busy) counter
  · exact absurd at_ (later config)

/-! ### The connect threads -/

/-- An older thread at `disown` still finds its descriptor in `tunFd`, or not. -/
theorem lingers_of_disown {before after : Option Nat} {pc : ConnectPc}
    (lingers : pc.lingers after = true)
    (known : ∀ fd, pc.pfd = some fd → after = some fd → before = some fd) :
    pc.lingers before = true := by
  cases pc with
  | disown pfd =>
      have current : after = some pfd := by simpa [ConnectPc.lingers] using lingers
      simpa [ConnectPc.lingers] using known pfd rfl current
  | _ => exact lingers

/-- A thread that is not in `shutdown()` goes on and starts no engine. -/
theorem thread (inv : Latest service) (attempts : Attempts next) {pc : ConnectPc}
    (busy : service.connect attempt ≠ .idle)
    (calm : ∀ shutdown, service.connect attempt ≠ .failing shutdown)
    (moved : next.connect = Function.update service.connect attempt pc)
    (same : SameControl service next) (main : next.main = service.main)
    (disconnect : next.disconnect = service.disconnect)
    (native : ∀ engine, next.native.engine = some engine → service.native.engine = some engine)
    (watching : ∀ engine, next.native.engine = some engine →
      (service.connect attempt).watching = true →
        pc.watching = true ∨ service.Present ∧ attempt = service.connectAttempt)
    (connecting : pc.connecting = true → (service.connect attempt).connecting = true)
    (lingers : pc.lingers next.tunFd = true →
      (service.connect attempt).lingers service.tunFd = true ∨ attempt = service.connectAttempt)
    (known : ∀ other ≠ attempt, ∀ fd, (service.connect other).pfd = some fd →
      next.tunFd = some fd → service.tunFd = some fd) : Latest next := by
  have others (other : Nat) (distinct : other ≠ attempt) :
      next.connect other = service.connect other := by
    rw [moved, Function.update_of_ne distinct]
  have moves : next.connect attempt = pc := by
    rw [moved, Function.update_self]
  have present : next.Present ↔ service.Present := by
    unfold Service.Present
    rw [same.tunnelActive, same.stopping, main]
  apply inv.mono attempts.spawned (Nat.le_of_eq same.connectAttempt.symm)
  case native => exact fun engine runs => ⟨engine, native engine runs, rfl⟩
  case minded =>
    rintro engine runs (⟨session, own⟩ | (ahead | ⟨other, shutdown, failing, stops⟩) | watches)
    · exact .inl ⟨present.mpr session, own.trans same.connectAttempt.symm⟩
    · refine .inr (.inl (.inl ?_))
      unfold Service.StopAhead at ahead ⊢
      rw [disconnect, main, same.stopping]
      exact ahead
    · have distinct : other ≠ attempt := by
        rintro rfl
        exact calm shutdown failing
      refine .inr (.inl (.inr ⟨other, shutdown, (others other distinct).trans failing, ?_⟩))
      rw [same.stopping]
      exact stops
    · by_cases own : engine.attempt = attempt
      · rw [own] at watches ⊢
        rcases watching engine runs watches with goesOn | ⟨session, latest⟩
        · exact .inr (.inr (moves ▸ goesOn))
        · exact .inl ⟨present.mpr session, latest.trans same.connectAttempt.symm⟩
      · exact .inr (.inr ((others _ own).symm ▸ watches))
  case present => exact fun session => ⟨present.mp session, same.connectAttempt⟩
  case connecting =>
    intro other starting
    by_cases own : other = attempt
    · subst own
      exact connecting (moves ▸ starting)
    · exact others other own ▸ starting
  case lingers =>
    intro other looks
    rw [same.connectAttempt]
    by_cases own : other = attempt
    · subst own
      exact lingers (moves ▸ looks)
    · rw [others other own] at looks
      exact .inl (lingers_of_disown looks (known other own))
  case idle =>
    intro other rests
    have distinct : other ≠ attempt := fun own => busy (own ▸ rests)
    exact (others other distinct).trans rests

/-- The thread that starts an engine is the only one that lingers. -/
theorem starts (inv : Latest service) (attempts : Attempts service) {config : Config} {pfd : Nat}
    (at_ : service.connect attempt = .start config pfd) :
    Latest ({ service with native := .up ⟨pfd, config, attempt⟩ }.connectAt attempt
      (.started pfd)) := by
  have busy : service.connect attempt ≠ .idle := by simp [at_]
  have looks : (service.connect attempt).lingers service.tunFd = true := by
    rw [at_]
    rfl
  have looked (other : Nat) (looking : (Function.update service.connect attempt (.started pfd)
      other).lingers service.tunFd = true) :
      (service.connect other).lingers service.tunFd = true := by
    by_cases own : other = attempt
    · exact own ▸ looks
    · rwa [Function.update_of_ne own] at looking
  constructor
  case counted =>
    rintro _ ⟨⟩
    exact attempts.spawned attempt busy
  case minded =>
    rintro _ ⟨⟩
    refine .inr (.inr ?_)
    simp [Service.connectAt, ConnectPc.watching]
  case before =>
    intro present starting
    have own := inv.present present attempt looks
    simp [Service.connectAt, ← own, ConnectPc.connecting] at starting
  case present =>
    exact fun present other looking => inv.present present other (looked other looking)
  case lingering =>
    intro other looking
    obtain ⟨alone, -⟩ := inv.lingering other (looked other looking)
    have newest : attempt ≤ other := by
      by_contra older
      exact busy (alone attempt (Nat.lt_of_not_le older))
    refine ⟨fun newer later => ?_, by rintro _ ⟨⟩; exact newest⟩
    have distinct : newer ≠ attempt := by omega
    exact (Function.update_of_ne distinct ..).trans (alone newer later)

/-- A failing attempt goes on in `shutdown()`, and there is no session any more. -/
theorem failingThread (inv : Latest service)
    (spawned : ∀ attempt, next.connect attempt ≠ .idle → attempt ≤ next.connectAttempt)
    {pc : ShutdownPc} {after : ConnectPc} (at_ : service.connect attempt = .failing pc)
    (moved : next.connect = Function.update service.connect attempt after)
    (leaves : after = .idle ∨ ∃ shutdown, after = .failing shutdown)
    (counter : service.connectAttempt ≤ next.connectAttempt)
    (native : next.native = service.native)
    (slot : next.tunFd = service.tunFd ∨ next.tunFd = none) (away : ¬next.Present)
    (stops : service.Present ∨ service.StopComing → next.StopComing) : Latest next := by
  have others (other : Nat) (distinct : other ≠ attempt) :
      next.connect other = service.connect other := by
    rw [moved, Function.update_of_ne distinct]
  have moves : next.connect attempt = after := by
    rw [moved, Function.update_self]
  apply inv.mono spawned counter
  case native => exact fun engine runs => ⟨engine, native ▸ runs, rfl⟩
  case minded =>
    rintro engine - (⟨session, -⟩ | coming | watches)
    · exact .inr (.inl (stops (.inl session)))
    · exact .inr (.inl (stops (.inr coming)))
    · have distinct : engine.attempt ≠ attempt := by
        rintro own
        rw [own, at_] at watches
        cases watches
      exact .inr (.inr ((others _ distinct).symm ▸ watches))
  case present => exact fun session => absurd session away
  case connecting =>
    intro other starting
    by_cases own : other = attempt
    · rw [own, moves] at starting
      rcases leaves with rfl | ⟨shutdown, rfl⟩ <;> cases starting
    · exact others other own ▸ starting
  case lingers =>
    intro other looks
    left
    by_cases own : other = attempt
    · rw [own, moves] at looks
      rcases leaves with rfl | ⟨shutdown, rfl⟩ <;> cases looks
    · rw [others other own] at looks
      refine lingers_of_disown looks fun fd _ holds => ?_
      rcases slot with same | gone
      · exact same ▸ holds
      · rw [gone] at holds
        cases holds
  case idle =>
    intro other rests
    have distinct : other ≠ attempt := by
      rintro rfl
      rw [at_] at rests
      cases rests
    exact (others other distinct).trans rests

/-- The stop somebody else gets to is still ahead. -/
theorem stopComing_of_failing {pc : ShutdownPc} {after : ConnectPc}
    (at_ : service.connect attempt = .failing pc)
    (moved : next.connect = Function.update service.connect attempt after)
    (main : next.main = service.main) (disconnect : next.disconnect = service.disconnect)
    (stopping : next.stopping = service.stopping)
    (own : pc.stops service.stopping = true →
      ∃ shutdown, after = .failing shutdown ∧ shutdown.stops service.stopping = true)
    (coming : service.StopComing) : next.StopComing := by
  rcases coming with ahead | ⟨other, shutdown, failing, stops⟩
  · left
    unfold Service.StopAhead at ahead ⊢
    rw [main, disconnect, stopping]
    exact ahead
  · right
    by_cases same : other = attempt
    · subst same
      rw [at_] at failing
      cases failing
      obtain ⟨shutdown, rfl, stops⟩ := own stops
      exact ⟨other, shutdown, by rw [moved, Function.update_self], stopping ▸ stops⟩
    · exact ⟨other, shutdown, by rw [moved, Function.update_of_ne same, failing],
        stopping ▸ stops⟩

/-- A failing attempt finds no session, or ends it and gets to its stop. -/
theorem failingStep (inv : Latest service) (turns : Turns service) (attempts : Attempts service)
    (spawned : ∀ attempt, next.connect attempt ≠ .idle → attempt ≤ next.connectAttempt)
    {pc : ShutdownPc} (at_ : service.connect attempt = .failing pc) {input : Input}
    (stepTo : VpnService.connectStep service attempt input = some next) : Latest next := by
  have withdrawn (unclaimed : pc.unclaimed = true) (later : pc ≠ .clearActive) :
      service.tunnelActive = false := by
    rw [Bool.eq_false_iff]
    exact fun active => later ((attempts.failing attempt pc at_ unclaimed).active active).2
  have claimed (claims : pc.unclaimed = false) : service.stopping = true :=
    turns.claimed.set (.attempt attempt) (by simp [Service.tears, at_, ConnectPc.tears, claims])
  cases pc with
  | clearActive =>
      simp only [VpnService.connectStep, at_, shutdownStep, Option.some.injEq] at stepTo
      subst stepTo
      refine inv.failingThread spawned at_ rfl (.inr ⟨_, rfl⟩) (Nat.le_refl _) rfl (.inl rfl)
        (by simp [Service.Present, Service.connectAt]) ?_
      rintro (⟨-, notStopping, -⟩ | coming)
      · refine .inr ⟨attempt, .clearQueued, Function.update_self .., ?_⟩
        simp [Service.connectAt, ShutdownPc.stops, notStopping]
      · exact stopComing_of_failing at_ rfl rfl rfl rfl (by simp [ShutdownPc.stops]) coming
  | clearQueued | bumpAttempt | clearRebind =>
      have withdrawn := withdrawn rfl (by simp)
      simp only [VpnService.connectStep, at_, shutdownStep, Option.some.injEq] at stepTo
      subst stepTo
      refine inv.failingThread spawned at_ rfl (.inr ⟨_, rfl⟩) (by simp [Service.connectAt]) rfl
        (.inl rfl) (by simp [Service.Present, Service.connectAt, withdrawn]) ?_
      rintro (⟨active, -⟩ | coming)
      · exact Bool.noConfusion (withdrawn.symm.trans active)
      · exact stopComing_of_failing at_ rfl rfl rfl rfl
          (fun stops => ⟨_, rfl, by simpa [ShutdownPc.stops] using stops⟩) coming
  | claimStopping =>
      have withdrawn := withdrawn rfl (by simp)
      simp only [VpnService.connectStep, at_, shutdownStep] at stepTo
      by_cases stopping : service.stopping = true
      · rw [if_pos stopping] at stepTo
        cases stepTo
        refine inv.failingThread spawned at_ rfl (.inl rfl) (Nat.le_refl _) rfl (.inl rfl)
          (by simp [Service.Present, Service.connectAt, withdrawn]) ?_
        rintro (⟨active, -⟩ | coming)
        · exact Bool.noConfusion (withdrawn.symm.trans active)
        · exact stopComing_of_failing at_ rfl rfl rfl rfl
            (by simp [ShutdownPc.stops, stopping]) coming
      · rw [if_neg stopping] at stepTo
        cases stepTo
        refine inv.failingThread spawned at_ rfl (.inr ⟨_, rfl⟩) (Nat.le_refl _) rfl (.inl rfl)
          (by simp [Service.Present, Service.connectAt, withdrawn]) fun _ => ?_
        exact .inr ⟨attempt, .unregister, Function.update_self .., rfl⟩
  | unregister | takeFd | clearFd fd =>
      have claimed := claimed rfl
      cases stepTo.symm.trans (by simp only [VpnService.connectStep, at_, shutdownStep]; rfl)
      refine inv.failingThread spawned at_ rfl (.inr ⟨_, rfl⟩) (Nat.le_refl _) rfl
        (by simp [Service.connectAt]) (by simp [Service.Present, Service.connectAt, claimed])
        fun _ => ?_
      exact .inr ⟨attempt, _, Function.update_self .., rfl⟩
  | spawnStop fd =>
      have claimed := claimed rfl
      simp only [VpnService.connectStep, at_, shutdownStep, Option.some.injEq] at stepTo
      subst stepTo
      exact inv.failingThread spawned at_ rfl (.inl rfl) (Nat.le_refl _) rfl (.inl rfl)
        (by simp [Service.Present, Service.connectAt, claimed]) fun _ => .inl (.inl ⟨fd, rfl⟩)

theorem connectStep (inv : Latest service) (turns : Turns service) (attempts : Attempts service)
    (numbered : Numbered service) (after : Attempts next) {input : Input}
    (stepTo : VpnService.connectStep service attempt input = some next) : Latest next := by
  have busy : service.connect attempt ≠ .idle := by
    intro idle
    simp [VpnService.connectStep, idle] at stepTo
  have session (wanted : service.stillWanted attempt) :
      service.Present ∧ attempt = service.connectAttempt :=
    ⟨turns.present_of_wanted attempts wanted busy, wanted.2.symm⟩
  cases at_ : service.connect attempt with
  | idle => exact absurd at_ busy
  | failing pc => exact inv.failingStep turns attempts after.spawned at_ stepTo
  | check config pfd =>
      simp only [VpnService.connectStep, at_] at stepTo
      split at stepTo
      next wanted =>
        cases stepTo
        exact inv.thread after busy (by simp [at_]) rfl ⟨rfl, rfl, rfl, rfl⟩ rfl rfl
          (fun _ => id) (by simp [at_, ConnectPc.watching]) (by simp [at_, ConnectPc.connecting])
          (fun _ => .inr (session wanted).2) (fun _ _ _ _ => id)
      next =>
        cases stepTo
        exact inv.thread after busy (by simp [at_]) rfl ⟨rfl, rfl, rfl, rfl⟩ rfl rfl
          (fun _ => id) (by simp [at_, ConnectPc.watching]) (by simp [ConnectPc.connecting])
          (by simp [ConnectPc.lingers]) (fun _ _ _ _ => id)
  | adopt config pfd =>
      simp only [VpnService.connectStep, at_, Option.some.injEq] at stepTo
      subst stepTo
      refine inv.thread after busy (by simp [at_]) rfl ⟨rfl, rfl, rfl, rfl⟩ rfl rfl
        (fun _ => id) (by simp [at_, ConnectPc.watching]) (by simp [at_, ConnectPc.connecting])
        (by simp [at_, ConnectPc.lingers]) ?_
      rintro other distinct fd own ⟨⟩
      exact absurd own ((numbered.thread attempt pfd (by rw [at_]; rfl)).2 other distinct)
  | start config pfd =>
      simp only [VpnService.connectStep, at_] at stepTo
      repeat' split at stepTo
      all_goals first
        | cases stepTo; done
        | cases stepTo
          exact inv.starts attempts at_
        | cases stepTo
          exact inv.thread after busy (by simp [at_]) rfl ⟨rfl, rfl, rfl, rfl⟩ rfl rfl
            (fun _ => id) (by simp [at_, ConnectPc.watching]) (by simp [ConnectPc.connecting])
            (by simp [ConnectPc.lingers]) (fun _ _ _ _ => id)
  | started pfd =>
      simp only [VpnService.connectStep, at_] at stepTo
      split at stepTo
      next wanted =>
        cases stepTo
        exact inv.thread after busy (by simp [at_]) rfl ⟨rfl, rfl, rfl, rfl⟩ rfl rfl
          (fun _ => id) (fun _ _ _ => .inr (session wanted)) (by simp [ConnectPc.connecting])
          (by simp [ConnectPc.lingers]) (fun _ _ _ _ => id)
      next =>
        cases stepTo
        exact inv.thread after busy (by simp [at_]) rfl ⟨rfl, rfl, rfl, rfl⟩ rfl rfl
          (fun _ => id) (fun _ _ _ => .inl rfl) (by simp [ConnectPc.connecting])
          (by simp [at_, ConnectPc.lingers]) (fun _ _ _ _ => id)
  | lateStop pfd =>
      simp only [VpnService.connectStep, at_] at stepTo
      split at stepTo
      next => cases stepTo
      next =>
        cases stepTo
        exact inv.thread after busy (by simp [at_]) rfl ⟨rfl, rfl, rfl, rfl⟩ rfl rfl
          (by simp [Service.connectAt, Native.engine]) (by simp [Service.connectAt, Native.engine])
          (by simp [ConnectPc.connecting]) (by simp [at_, ConnectPc.lingers]) (fun _ _ _ _ => id)
  | disown pfd =>
      simp only [VpnService.connectStep, at_] at stepTo
      split at stepTo
      next current =>
        cases stepTo
        exact inv.thread after busy (by simp [at_]) rfl ⟨rfl, rfl, rfl, rfl⟩ rfl rfl
          (fun _ => id) (by simp [at_, ConnectPc.watching]) (by simp [ConnectPc.connecting])
          (by simp [at_, ConnectPc.lingers, current]) (fun _ _ _ _ => id)
      next =>
        cases stepTo
        exact inv.thread after busy (by simp [at_]) rfl ⟨rfl, rfl, rfl, rfl⟩ rfl rfl
          (fun _ => id) (by simp [at_, ConnectPc.watching]) (by simp [ConnectPc.connecting])
          (by simp [ConnectPc.lingers]) (fun _ _ _ _ => id)
  | disownSet pfd =>
      simp only [VpnService.connectStep, at_, Option.some.injEq] at stepTo
      subst stepTo
      exact inv.thread after busy (by simp [at_]) rfl ⟨rfl, rfl, rfl, rfl⟩ rfl rfl
        (fun _ => id) (by simp [at_, ConnectPc.watching]) (by simp [ConnectPc.connecting])
        (by simp [ConnectPc.lingers]) (by simp [Service.connectAt])
  | requestClaim =>
      obtain ⟨worker, _, _, claimed⟩ := claimWorker_claims service
      simp only [VpnService.connectStep, at_, claimed, Option.some.injEq] at stepTo
      subst stepTo
      exact inv.thread after busy (by simp [at_]) rfl ⟨rfl, rfl, rfl, rfl⟩ rfl rfl
        (fun _ => id) (by simp [at_, ConnectPc.watching]) (by simp [ConnectPc.connecting])
        (by simp [ConnectPc.lingers]) (fun _ _ _ _ => id)
  | consume =>
      simp only [VpnService.connectStep, at_, Option.some.injEq] at stepTo
      subst stepTo
      refine inv.thread after busy (by simp [at_]) rfl ⟨rfl, rfl, rfl, rfl⟩ rfl rfl
        (fun _ => id) (by simp [at_, ConnectPc.watching]) ?_ ?_ (fun _ _ _ _ => id)
      all_goals split <;> simp [ConnectPc.connecting, ConnectPc.lingers]
  | _ =>
      simp only [VpnService.connectStep, at_] at stepTo
      repeat' split at stepTo
      all_goals first
        | cases stepTo; done
        | cases stepTo
          exact inv.thread after busy (by simp [at_]) rfl ⟨rfl, rfl, rfl, rfl⟩ rfl rfl
            (fun _ => id) (by simp [at_, ConnectPc.watching]) (by simp [at_, ConnectPc.connecting])
            (by simp [at_, ConnectPc.lingers]) (fun _ _ _ _ => id)

/-! ### All steps -/

/-- A thread that is no connect, or a message, starts no engine and no session. -/
theorem aside (inv : Latest service) (attempts : Attempts service)
    (threads : next.connect = service.connect)
    (counter : next.connectAttempt = service.connectAttempt)
    (native : ∀ engine, next.native.engine = some engine →
      ∃ earlier, service.native.engine = some earlier ∧ earlier.attempt = engine.attempt)
    (slot : ∀ attempt fd, (service.connect attempt).pfd = some fd →
      next.tunFd = some fd → service.tunFd = some fd)
    (present : next.Present ↔ service.Present) (stopping : next.stopping = service.stopping)
    (ahead : ∀ engine, next.native.engine = some engine → service.StopAhead → next.StopAhead) :
    Latest next := by
  apply inv.mono
  case spawned =>
    rw [threads, counter]
    exact attempts.spawned
  case counter => exact Nat.le_of_eq counter.symm
  case native => exact native
  case minded =>
    rintro engine runs (⟨session, own⟩ | (stops | ⟨other, pc, failing, stops⟩) | watches)
    · exact .inl ⟨present.mpr session, own.trans counter.symm⟩
    · exact .inr (.inl (.inl (ahead engine runs stops)))
    · exact .inr (.inl (.inr ⟨other, pc, by rw [threads, failing], by rwa [stopping]⟩))
    · exact .inr (.inr (by rwa [threads]))
  case present => exact fun session => ⟨present.mp session, counter⟩
  case connecting => simp [threads]
  case lingers =>
    rw [threads]
    exact fun attempt looks => .inl (lingers_of_disown looks (slot attempt))
  case idle => simp [threads]

/-- The worker moves the running engine, or takes it down. -/
theorem workerStep_native {input : Input}
    (stepTo : VpnService.workerStep service input = some next) (engine : Engine)
    (runs : next.native.engine = some engine) :
    ∃ earlier, service.native.engine = some earlier ∧ earlier.attempt = engine.attempt := by
  cases at_ : service.worker with
  | none => simp [VpnService.workerStep, at_] at stepTo
  | closeOld old =>
      obtain ⟨openFds, closed⟩ := closeOpt_eq service old
      simp only [VpnService.workerStep, at_, closed, Option.some.injEq] at stepTo
      subst stepTo
      exact ⟨engine, runs, rfl⟩
  | notify config fd old =>
      simp only [VpnService.workerStep, at_] at stepTo
      split at stepTo
      next down =>
        cases stepTo
        exact ⟨engine, runs, rfl⟩
      next => cases stepTo
      next running up =>
        split at stepTo
        all_goals
          cases stepTo
          cases runs
          exact ⟨running, by rw [up]; rfl, rfl⟩
  | rebuilding old =>
      simp only [VpnService.workerStep, at_] at stepTo
      split at stepTo
      next target rebuilds =>
        cases stepTo
        split at runs
        next =>
          cases runs
          exact ⟨engine, by rw [rebuilds]; rfl, rfl⟩
        next => cases runs
      next => cases stepTo
  | _ =>
      simp only [VpnService.workerStep, at_] at stepTo
      repeat' split at stepTo
      all_goals first
        | cases stepTo; done
        | cases stepTo
          exact ⟨engine, runs, rfl⟩

/-- The worker puts no descriptor into `tunFd` but the one it has established. -/
theorem workerStep_slot {input : Input}
    (stepTo : VpnService.workerStep service input = some next) :
    next.tunFd = service.tunFd ∨
      ∃ fresh, service.worker.role.fresh = some fresh ∧ next.tunFd = some fresh := by
  cases at_ : service.worker with
  | none => simp [VpnService.workerStep, at_] at stepTo
  | adopt config fresh old =>
      simp only [VpnService.workerStep, at_, Option.some.injEq] at stepTo
      subst stepTo
      exact .inr ⟨fresh, rfl, rfl⟩
  | closeOld old =>
      obtain ⟨openFds, closed⟩ := closeOpt_eq service old
      simp only [VpnService.workerStep, at_, closed, Option.some.injEq] at stepTo
      subst stepTo
      exact .inl rfl
  | _ =>
      simp only [VpnService.workerStep, at_] at stepTo
      repeat' split at stepTo
      all_goals first
        | cases stepTo; done
        | cases stepTo
          exact .inl rfl

theorem workerStep (inv : Latest service) (attempts : Attempts service)
    (numbered : Numbered service) {input : Input}
    (stepTo : VpnService.workerStep service input = some next) : Latest next := by
  have native := workerStep_native stepTo
  have slot := workerStep_slot stepTo
  obtain ⟨_, _, _, _, _, _, _, rfl⟩ := workerStep_frame stepTo
  refine inv.aside attempts rfl rfl native (fun attempt fd own holds => ?_) .rfl rfl
    (fun _ _ => id)
  rcases slot with same | ⟨fresh, established, adopted⟩
  · exact same ▸ holds
  · obtain rfl := Option.some.inj (adopted.symm.trans holds)
    exact absurd own ((numbered.rebind _ established).2 attempt)

theorem disconnectStep (inv : Latest service) (attempts : Attempts service)
    (stepTo : VpnService.disconnectStep service = some next) : Latest next := by
  rcases disconnectStep_cases stepTo with ⟨fd, -, -, rfl⟩ | ⟨fd, at_, rfl⟩
  · exact inv.aside attempts rfl rfl nofun (fun _ _ _ => id) .rfl rfl nofun
  · obtain ⟨openFds, closed⟩ := closeOpt_eq service fd
    rw [closed]
    refine inv.aside attempts rfl rfl (fun engine runs => ⟨engine, runs, rfl⟩)
      (fun _ _ _ => id) .rfl rfl ?_
    rintro engine - (⟨other, stops⟩ | ahead)
    · rw [at_] at stops
      cases stops
    · exact .inr ahead

theorem step (inv : Latest service) (turns : Turns service) (attempts : Attempts service)
    (numbered : Numbered service) {move : Move} (allowed : Considerate service move)
    (stepTo : VpnService.step service move = some next) : Latest next := by
  have message {main : MainPc} {posted : Bool} {changes : Nat} {last : Command}
      (idle : service.main = .idle) (opens : main.opening = false) :
      Latest { service with
        main := main, finishPosted := posted, changes := changes, lastCommand := last } := by
    refine inv.aside attempts rfl rfl (fun engine runs => ⟨engine, runs, rfl⟩)
      (fun _ _ _ => id) ?_ rfl ?_
    · have rests : service.main.opening = false := by
        rw [idle]
        rfl
      simp [Service.Present, rests, opens]
    · rintro engine - (stops | ahead)
      · exact .inl stops
      · rw [idle] at ahead
        cases ahead
  have bystander {requested : Bool} {worker : WorkerPc} {requesting rereading reclaiming : Nat} :
      Latest { service with
        rebindRequested := requested, worker := worker, requesting := requesting
        rereading := rereading, reclaiming := reclaiming } :=
    inv.aside attempts rfl rfl (fun engine runs => ⟨engine, runs, rfl⟩) (fun _ _ _ => id)
      .rfl rfl (fun _ _ => id)
  cases move with
  | main input => exact inv.mainStep turns attempts allowed.2 stepTo
  | connect attempt input =>
      exact inv.connectStep turns attempts numbered (attempts.step allowed stepTo) stepTo
  | worker input => exact inv.workerStep attempts numbered stepTo
  | disconnect => exact inv.disconnectStep attempts stepTo
  | command command =>
      simp only [VpnService.step] at stepTo
      split at stepTo
      next idle =>
        cases stepTo
        cases command <;> exact message idle rfl
      next => cases stepTo
  | finishShutdown =>
      simp only [VpnService.step] at stepTo
      split at stepTo
      next posted =>
        cases stepTo
        exact message posted.1 rfl
      next => cases stepTo
  | request | reread =>
      simp only [VpnService.step] at stepTo
      split at stepTo
      next =>
        cases stepTo
        exact bystander
      next => cases stepTo
  | requestClaim | reclaim =>
      obtain ⟨worker, _, _, claimed⟩ := claimWorker_claims service
      simp only [VpnService.step, claimed] at stepTo
      split at stepTo
      next =>
        cases stepTo
        exact bystander
      next => cases stepTo

end Latest

end Fips2Go.VpnService
