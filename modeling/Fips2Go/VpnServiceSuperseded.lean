import Fips2Go.VpnServiceLatest

/-!
# What a superseded attempt leaves alone

With the latest attempt the only one that still looks at `tunFd` and the engine, it
finds no older engine, no shutdown stops an engine beside it, and an older attempt
touches neither its engine nor its descriptor.
-/

namespace Fips2Go.VpnService

open GuardedRuns

/-- A step of `attempt` harms no newer one: who is wanted stays so, a newer
engine goes on, and where a newer attempt is at work or has its session, the
engine, `tunFd`, the thread and its descriptor stay as they are. -/
structure Spares (service next : Service) (attempt : Nat) : Prop
    extends SparesWanted service next attempt where
  engine : ∀ engine, service.native = .up engine → attempt < engine.attempt →
    next.native = .up engine
  session : ∀ newer, attempt < newer → service.stillWanted newer →
    service.connect newer ≠ .idle ∨ service.Present →
      next.native = service.native ∧ next.tunFd = service.tunFd ∧
        next.connect newer = service.connect newer ∧
        ∀ fd ∈ service.openFds,
          service.tunFd = some fd ∨ (service.connect newer).pfd = some fd → fd ∈ next.openFds

/-- What holds in every state that considerate steps reach. -/
structure Settling (service : Service) : Prop where
  attempts : Attempts service
  turns : Turns service
  numbered : Numbered service
  latest : Latest service

theorem busy_of_connecting {service : Service} {attempt : Nat}
    (connecting : (service.connect attempt).connecting = true) :
    service.connect attempt ≠ .idle := by
  intro idle
  rw [idle] at connecting
  cases connecting

namespace Settling

variable {service next : Service} {attempt : Nat}

theorem initial : Settling initial :=
  ⟨.initial, .initial, .initial, .initial⟩

theorem step (inv : Settling service) {move : Move} (allowed : Considerate service move)
    (stepTo : VpnService.step service move = some next) : Settling next where
  attempts := inv.attempts.step allowed stepTo
  turns := inv.turns.step inv.attempts stepTo
  numbered := inv.numbered.step stepTo
  latest := inv.latest.step inv.turns inv.attempts inv.numbered allowed stepTo

theorem present (inv : Settling service) {newer : Nat} (wanted : service.stillWanted newer)
    (working : service.connect newer ≠ .idle ∨ service.Present) : service.Present :=
  working.elim (inv.turns.present_of_wanted inv.attempts wanted) id

/-- The wanted attempt finds no engine where it looks for one. -/
theorem before (inv : Settling service) {newer : Nat} (wanted : service.stillWanted newer)
    (connecting : (service.connect newer).connecting = true) : service.native = .down := by
  have busy := busy_of_connecting connecting
  have none := inv.latest.before (inv.present wanted (.inl busy)) (wanted.2 ▸ connecting)
  cases native : service.native with
  | down => rfl
  | up engine | rebuilding engine =>
      rw [native] at none
      cases none

/-- No shutdown stops an engine beside the wanted attempt. -/
theorem calm (inv : Settling service) {newer : Nat} (wanted : service.stillWanted newer)
    (working : service.connect newer ≠ .idle ∨ service.Present) : service.disconnect = .idle := by
  have present := inv.present wanted working
  by_contra stops
  have stopping := inv.turns.claimed.set .teardown stops
  exact Bool.noConfusion (stopping.symm.trans present.2.1)

/-- No late stop finds a newer engine. -/
theorem stopsNewer (inv : Settling service) (attempt : Nat) :
    service.stopsNewer attempt = false := by
  unfold Service.stopsNewer
  split
  next pfd engine at_ up =>
    have looks : (service.connect attempt).lingers service.tunFd = true := by
      rw [at_]
      rfl
    have older := (inv.latest.lingering attempt looks).2 engine (by rw [up]; rfl)
    simpa using older
  next => rfl

/-- A step of an older attempt beside a session: it only winds itself up. -/
theorem spares_session (inv : Settling service) {newer : Nat} {input : Input}
    (older : attempt < newer) (wanted : service.stillWanted newer) (present : service.Present)
    (stepTo : connectStep service attempt input = some next) :
    next.native = service.native ∧ next.tunFd = service.tunFd ∧
      next.connect newer = service.connect newer ∧
      ∀ fd ∈ service.openFds,
        service.tunFd = some fd ∨ (service.connect newer).pfd = some fd → fd ∈ next.openFds := by
  have others (pc : ConnectPc) :
      Function.update service.connect attempt pc newer = service.connect newer :=
    Function.update_of_ne (Nat.ne_of_gt older) ..
  have unwanted : ¬service.stillWanted attempt := by
    rintro ⟨-, current⟩
    have := wanted.2
    omega
  have rested : (service.connect attempt).lingers service.tunFd = false := by
    rw [Bool.eq_false_iff]
    intro looks
    have := inv.latest.present present attempt looks
    have := wanted.2
    omega
  cases at_ : service.connect attempt with
  | idle => simp [connectStep, at_] at stepTo
  | replace | closeOld | adopt | start | started | lateStop | disownSet =>
      rw [at_] at rested
      cases rested
  | failing pc =>
      exfalso
      cases unclaimed : pc.unclaimed with
      | true =>
          apply (inv.attempts.failing attempt pc at_ unclaimed).not_newerConnect
          exact .inl ⟨wanted.1, wanted.2.symm ▸ older⟩
      | false =>
          have stopping := inv.turns.claimed.set (.attempt attempt)
            (by simp [Service.tears, at_, ConnectPc.tears, unclaimed])
          exact Bool.noConfusion (stopping.symm.trans present.2.1)
  | establish config =>
      simp only [connectStep, at_] at stepTo
      split at stepTo
      all_goals
        cases stepTo
        refine ⟨rfl, rfl, others _, fun fd isOpen _ => ?_⟩
        first | exact isOpen | exact List.mem_cons_of_mem _ isOpen
  | check config pfd =>
      simp only [connectStep, at_] at stepTo
      rw [if_neg unwanted] at stepTo
      cases stepTo
      exact ⟨rfl, rfl, others _, fun _ isOpen _ => isOpen⟩
  | disown pfd =>
      rw [at_] at rested
      have elsewhere : service.tunFd ≠ some pfd := by simpa [ConnectPc.lingers] using rested
      simp only [connectStep, at_] at stepTo
      rw [if_neg elsewhere] at stepTo
      cases stepTo
      exact ⟨rfl, rfl, others _, fun _ isOpen _ => isOpen⟩
  | closeOwn pfd =>
      simp only [connectStep, at_, Option.some.injEq] at stepTo
      subst stepTo
      refine ⟨rfl, rfl, others _, fun fd isOpen itsOwn => ?_⟩
      have distinct : fd ≠ pfd := by
        rintro rfl
        rcases itsOwn with current | own
        · exact inv.numbered.withheld attempt fd (by rw [at_]; rfl) current
        · exact (inv.numbered.thread attempt fd (by rw [at_]; rfl)).2 newer
            (Nat.ne_of_gt older) own
      exact List.mem_filter.mpr ⟨isOpen, by simpa using distinct⟩
  | requestClaim =>
      obtain ⟨worker, _, _, claimed⟩ := claimWorker_claims service
      simp only [connectStep, at_, claimed, Option.some.injEq] at stepTo
      subst stepTo
      exact ⟨rfl, rfl, others _, fun _ isOpen _ => isOpen⟩
  | enter | address | register | consume | requestSet =>
      simp only [connectStep, at_] at stepTo
      repeat' split at stepTo
      all_goals
        cases stepTo
        exact ⟨rfl, rfl, others _, fun _ isOpen _ => isOpen⟩

theorem spares (inv : Settling service) {input : Input}
    (stepTo : connectStep service attempt input = some next) : Spares service next attempt where
  toSparesWanted := inv.attempts.sparesWanted stepTo
  engine := newerEngine_kept (inv.stopsNewer attempt) stepTo
  session _ older wanted working :=
    inv.spares_session older wanted (inv.present wanted working) stepTo

end Settling

/-- A superseded attempt cannot harm a newer one, in every run in which no attempt
fails after it was superseded, no Connect is accepted in the middle of a failing
attempt's `shutdown()`, and none begins beside one that is past its check: whoever's
`shutdown()` it is, none stops the engine beside the wanted attempt, which finds no
engine in its way, and no step of an older one touches it. -/
theorem superseded_spares_newer {labels : List Move} {service : Service}
    (run : Run step Considerate initial labels service) :
    (∀ newer, service.stillWanted newer → service.connect newer ≠ .idle ∨ service.Present →
      service.disconnect = .idle ∧
        ((service.connect newer).connecting = true → service.native = .down)) ∧
      ∀ attempt input next, step service (.connect attempt input) = some next →
        Spares service next attempt := by
  have inv : Settling service := by
    apply run.invariant
    · exact .initial
    · exact fun _ _ _ inv allowed stepTo => inv.step allowed stepTo
  constructor
  · intro newer wanted working
    exact ⟨inv.calm wanted working, inv.before wanted⟩
  · intro attempt input next stepTo
    exact inv.spares stepTo

def answered : Input := .granted "{}"

def refused : Input := { answered with ok := false }

/-- A Connect whose thread stays in `establish()`, a Disconnect that runs to its
end, and a second Connect, which is attempt 3. -/
def reconnecting : List Move :=
  .command .connect :: List.replicate 7 (.main answered) ++
    List.replicate 2 (.connect 1 answered) ++
    .command .disconnect :: List.replicate 9 (.main answered) ++
    [.disconnect, .disconnect, .finishShutdown, .main answered, .main answered] ++
    .command .connect :: List.replicate 7 (.main answered)

/-- Attempt 1 gets its descriptor late, and attempt 3 has put its own into `tunFd`
when it closes it. -/
def lateDescriptor : List Move :=
  reconnecting ++ List.replicate 2 (.connect 1 answered) ++
    List.replicate 6 (.connect 3 answered)

/-- The descriptor that attempt 1 gets late is closed beside attempt 3. -/
theorem late_descriptor_spares_newer :
    ∃ service next, Run step Considerate initial lateDescriptor service ∧
      service.stillWanted 3 ∧ (service.connect 3).connecting = true ∧
      service.disconnect = .idle ∧ service.native = .down ∧
      service.tunFd = some 1 ∧ service.connect 1 = .closeOwn 0 ∧
      step service (.connect 1 answered) = some next ∧ Spares service next 1 := by
  obtain ⟨service, run, wanted, connecting, current, closes, defined⟩ :
      ∃ service, Run step Considerate initial lateDescriptor service ∧
        service.stillWanted 3 ∧ (service.connect 3).connecting = true ∧
        service.tunFd = some 1 ∧ service.connect 1 = .closeOwn 0 ∧
        (step service (.connect 1 answered)).isSome = true :=
    exists_run_of_execute (fun service =>
      service.stillWanted 3 ∧ (service.connect 3).connecting = true ∧
        service.tunFd = some 1 ∧ service.connect 1 = .closeOwn 0 ∧
        (step service (.connect 1 answered)).isSome = true) (by decide +kernel)
  obtain ⟨next, stepTo⟩ := Option.isSome_iff_exists.mp defined
  obtain ⟨before, spares⟩ := superseded_spares_newer run
  obtain ⟨calm, down⟩ := before 3 wanted (.inl (busy_of_connecting connecting))
  exact ⟨service, next, run, wanted, connecting, calm, down connecting, current, closes,
    stepTo, spares 1 answered next stepTo⟩

/-- `establish()` answers attempt 1 with null, and its `shutdown()` cancels
attempt 3. -/
theorem null_answer_cancels_newer :
    ∃ labels service next attempt input, Run step anyStep initial labels service ∧
      ¬ service.stillWanted attempt ∧
      step service (.connect attempt input) = some next ∧
      ¬ Spares service next attempt := by
  obtain ⟨service, run, wanted, superseded, cancelled⟩ :
      ∃ service, Run step anyStep initial (reconnecting ++ [.connect 1 refused]) service ∧
        service.stillWanted 3 ∧ ¬ service.stillWanted 1 ∧
        (step service (.connect 1 answered)).any
          (fun next => decide (¬ next.stillWanted 3)) = true :=
    exists_run_of_execute (fun service =>
      service.stillWanted 3 ∧ ¬ service.stillWanted 1 ∧
        (step service (.connect 1 answered)).any
          (fun next => decide (¬ next.stillWanted 3)) = true) (by decide +kernel)
  obtain ⟨next, stepTo, cancelled⟩ := (Option.any_eq_true _ _).mp cancelled
  refine ⟨_, service, next, 1, answered, run, superseded, stepTo, fun spares => ?_⟩
  exact of_decide_eq_true cancelled (spares.wanted 3 (by decide) wanted)

end Fips2Go.VpnService
