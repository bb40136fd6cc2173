import Fips2Go.UnderlayRebind
import Mathlib.Data.List.Chain

/-!
# The route and the resolver follow the network

A pass compares its own look at the network with the tunnel's route, and stores
the new route only after the tunnel is established; a callback in between
compares with the old one.  Apart from that the route agrees with the last look
whenever nothing is left to do.  Each change of the underlying network is
answered once, and the resolver hears of each change of the Internet flag once.
-/

namespace Fips2Go.Underlay

open GuardedRuns

/-- The route of the tunnel a pass is about to adopt. -/
def WorkerPc.aim : WorkerPc → Option Bool
  | .establish _ wantIpv6 | .recheck _ wantIpv6 | .adopt _ wantIpv6 => some wantIpv6
  | _ => .none

/-- A callback finds the route as it should be, while a pass is about to change it. -/
def overtaken (session : Session) : Move → Bool
  | .main input =>
      match session.main, session.worker.aim with
      | .evaluate _ network, some wantIpv6 =>
          let found := hasIpv6Internet input.connectivity (some network)
          found == session.tunnelHasIpv6Clearnet && found != wantIpv6
      | _, _ => false
  | _ => false

def InOrder (session : Session) (move : Move) : Prop :=
  Succeeds session move ∧ overtaken session move = false

instance : DecidableRel InOrder :=
  fun _ _ => inferInstanceAs (Decidable (_ ∧ _))

/-- What the tunnel's route will be after the pass is what the last look found. -/
def WorkerPc.Aims (session : Session) : WorkerPc → Prop
  | .active | .buildAddr | .buildPrefix _ | .decide _ => True
  | .establish _ wantIpv6 | .recheck _ wantIpv6 | .adopt _ wantIpv6 =>
      wantIpv6 = session.looked.2
  | _ => session.tunnelHasIpv6Clearnet = session.looked.2

def Session.Routed (session : Session) : Prop :=
  session.tunnelActive = true → session.Pending ∨ session.worker.Aims session

theorem WorkerPc.Aims.congr {session next : Session} {pc : WorkerPc}
    (route : next.tunnelHasIpv6Clearnet = session.tunnelHasIpv6Clearnet)
    (looked : next.looked.2 = session.looked.2) (aims : pc.Aims session) : pc.Aims next := by
  unfold WorkerPc.Aims at aims ⊢
  rw [route, looked]
  exact aims

/-- A callback begins, the looper goes on, the session ends, or the looper is not
concerned. -/
theorem step_cases {session next : Session} {move : Move}
    (stepTo : step session move = some next) :
    (∃ callback connectivity, move = .callback callback connectivity) ∨
      (∃ input, move = .main input) ∨ move = .shutdown ∨
      SameHotspot session next ∧ SameNetworks session next ∧
        (next.looked = session.looked ∨ next.looked.1 = session.currentUnderlying) := by
  cases move with
  | callback callback connectivity => exact .inl ⟨callback, connectivity, rfl⟩
  | main input => exact .inr (.inl ⟨input, rfl⟩)
  | worker input =>
      exact .inr (.inr (.inr (workerStep_frame stepTo)))
  | shutdown => exact .inr (.inr (.inl rfl))
  | die =>
      obtain ⟨-, ⟨⟩⟩ := Option.ite_none_left_eq_some.mp stepTo
      exact .inr (.inr (.inr ⟨⟨rfl, rfl, rfl, rfl, rfl⟩,
        ⟨rfl, rfl, rfl, rfl, rfl, rfl, rfl, rfl, rfl, rfl, rfl⟩, .inl rfl⟩))
  | request =>
      cases stepTo
      exact .inr (.inr (.inr ⟨⟨rfl, rfl, rfl, rfl, rfl⟩,
        ⟨rfl, rfl, rfl, rfl, rfl, rfl, rfl, rfl, rfl, rfl, rfl⟩, .inl rfl⟩))
  | requestClaim | reread | reclaim =>
      obtain ⟨-, ⟨⟩⟩ := Option.ite_none_right_eq_some.mp stepTo
      exact .inr (.inr (.inr ⟨⟨rfl, rfl, rfl, rfl, rfl⟩,
        ⟨rfl, rfl, rfl, rfl, rfl, rfl, rfl, rfl, rfl, rfl, rfl⟩, .inl rfl⟩))

/-- A look of the looper: it asks for a pass, or finds the route as it should be. -/
theorem mainStep_looked {session next : Session} {input : Input}
    (stepTo : mainStep session input = some next) :
    next.Pending ∨ next.looked.2 = session.looked.2 ∨
      ∃ previous network, session.main = .evaluate previous network ∧
        next.looked.2 = hasIpv6Internet input.connectivity (some network) ∧
        next.looked.2 = session.tunnelHasIpv6Clearnet := by
  cases at_ : session.main with
  | idle => simp [mainStep, at_] at stepTo
  | updateUnderlying =>
      simp only [mainStep, at_] at stepTo
      rw [pushNamesOnline_eq] at stepTo
      split at stepTo <;> cases stepTo <;> exact .inr (.inl rfl)
  | evaluate previous network =>
      simp only [mainStep, at_] at stepTo
      split at stepTo
      · split at stepTo
        · cases stepTo
          exact .inl (.inl rfl)
        next same =>
          cases stepTo
          exact .inr (.inr ⟨_, network, rfl, rfl, not_not.mp same⟩)
      · split at stepTo
        · cases stepTo
          exact .inl (.inl rfl)
        next same =>
          split at stepTo <;> cases stepTo <;>
            exact .inr (.inr ⟨_, network, rfl, rfl, not_not.mp same⟩)
  | _ =>
      simp only [mainStep, at_] at stepTo
      cases stepTo
      exact .inr (.inl rfl)

namespace Session.Routed

variable {session next : Session}

theorem looper (inv : session.Routed) (frame : LooperFrame session next)
    (looked : ¬next.Pending → next.looked.2 = session.looked.2 ∨
      next.looked.2 = session.tunnelHasIpv6Clearnet ∧
        ∀ wantIpv6, session.worker.aim = some wantIpv6 → wantIpv6 = next.looked.2) :
    next.Routed := by
  intro active
  by_cases pending : next.Pending
  · exact .inl pending
  obtain asked | ⟨unasked, -⟩ := frame.fields
  · exact absurd asked pending
  have aims : session.worker.Aims session :=
    (inv (frame.tunnelActive ▸ active)).resolve_left unasked
  have kept : session.worker.Aims next := by
    obtain same | ⟨found, agrees⟩ := looked pending
    · exact aims.congr frame.route same
    · unfold WorkerPc.Aims
      split
      · trivial
      · trivial
      · trivial
      · trivial
      next at_ => exact agrees _ (by rw [at_]; rfl)
      next at_ => exact agrees _ (by rw [at_]; rfl)
      next at_ => exact agrees _ (by rw [at_]; rfl)
      · rw [frame.route, found]
  obtain same | ⟨none, poll⟩ := frame.worker
  · exact .inr (same ▸ kept)
  · rw [none] at kept
    exact .inr (poll ▸ kept)

theorem mainStep (inv : session.Routed) {input : Input}
    (onTime : overtaken session (.main input) = false)
    (stepTo : mainStep session input = some next) : next.Routed := by
  refine inv.looper (mainStep_frame stepTo) fun unasked => ?_
  obtain pending | same | ⟨previous, network, at_, found, route⟩ := mainStep_looked stepTo
  · exact absurd pending unasked
  · exact .inl same
  · refine .inr ⟨route, fun wantIpv6 aims => ?_⟩
    rw [found]
    rw [found] at route
    simp only [overtaken, at_, aims, route, beq_self_eq_true, Bool.true_and, bne_eq_false_iff_eq]
      at onTime
    rw [route, onTime]

theorem callback (inv : session.Routed) (idle : session.main = .idle)
    (connectivity : Connectivity) (callback : Callback) :
    (callbackStep session connectivity callback).Routed := by
  refine inv.looper (callbackStep_frame idle connectivity callback) fun _ => .inl ?_
  obtain ⟨_, goes⟩ | same | ⟨main, -, goes⟩ := callbackStep_cases session connectivity callback
  · rw [goes]
  · rw [same]
  · rw [goes]

/-- The worker goes on, and aims at what it aimed at. -/
theorem workerTo (inv : session.Routed) {worker : WorkerPc} {tunFd : Bool}
    {handed : Option (String × Nat)} {rereading : Nat}
    (keeps : session.worker.Aims session → worker.Aims session) :
    { session with worker, tunFd, handed, rereading }.Routed := fun active =>
  (inv active).imp_right fun aims => (keeps aims).congr rfl rfl

theorem workerStep (inv : session.Routed) {input : Input}
    (good : succeeds session (.worker input) = true)
    (stepTo : workerStep session input = some next) : next.Routed := by
  cases at_ : session.worker with
  | none => simp [Underlay.workerStep, at_] at stepTo
  | poll =>
      simp only [Underlay.workerStep, at_] at stepTo
      split at stepTo <;> cases stepTo <;>
        exact inv.workerTo fun aims => by rw [at_] at aims; exact aims
  | settle =>
      simp only [Underlay.workerStep, at_] at stepTo
      cases stepTo
      exact fun _ => .inr trivial
  | active =>
      simp only [Underlay.workerStep, at_] at stepTo
      split at stepTo
      · cases stepTo
        exact fun _ => .inr trivial
      next inactive =>
        cases stepTo
        exact fun active => absurd active inactive
  | buildAddr =>
      simp only [Underlay.workerStep, at_] at stepTo
      cases stepTo
      exact fun _ => .inr trivial
  | buildPrefix addr =>
      simp only [Underlay.workerStep, at_] at stepTo
      cases stepTo
      exact fun _ => .inr trivial
  | decide config =>
      simp only [Underlay.workerStep, at_] at stepTo
      split at stepTo
      · cases stepTo
        exact fun _ => .inr rfl
      next same =>
        cases stepTo
        exact fun _ => .inr (not_not.mp (not_or.mp same).1).symm
  | establish config wantIpv6 =>
      simp only [Underlay.workerStep, at_] at stepTo
      have established : input.established = true := by
        simpa only [succeeds, at_] using good
      rw [if_pos established] at stepTo
      cases stepTo
      exact inv.workerTo fun aims => by rw [at_] at aims; exact aims
  | recheck config wantIpv6 =>
      simp only [Underlay.workerStep, at_] at stepTo
      split at stepTo
      · cases stepTo
        exact inv.workerTo fun aims => by rw [at_] at aims; exact aims
      next inactive =>
        cases stepTo
        exact fun active => absurd active inactive
  | adopt config wantIpv6 =>
      simp only [Underlay.workerStep, at_] at stepTo
      cases stepTo
      refine fun active => (inv active).imp_right fun aims => ?_
      rw [at_] at aims
      exact aims
  | readFd config =>
      simp only [Underlay.workerStep, at_] at stepTo
      split at stepTo <;> cases stepTo <;>
        exact inv.workerTo fun aims => by rw [at_] at aims; exact aims
  | notify config =>
      simp only [Underlay.workerStep, at_] at stepTo
      cases stepTo
      exact inv.workerTo fun aims => by rw [at_] at aims; exact aims
  | release =>
      simp only [Underlay.workerStep, at_] at stepTo
      cases stepTo
      exact inv.workerTo fun aims => by rw [at_] at aims; exact aims

theorem claimWorker (inv : session.Routed) : session.claimWorker.Routed := by
  refine fun active => (inv active).imp_right fun aims => ?_
  have kept : session.worker.Aims session.claimWorker := aims.congr rfl rfl
  obtain same | ⟨none, poll⟩ := claimWorker_worker session
  · exact same ▸ kept
  · rw [none] at kept
    exact poll ▸ kept

theorem recount (inv : session.Routed) (requesting rereading reclaiming : Nat) :
    { session with requesting, rereading, reclaiming }.Routed := fun active =>
  (inv active).imp_right fun aims => aims.congr rfl rfl

theorem step (inv : session.Routed) {move : Move} (inOrder : InOrder session move)
    (stepTo : step session move = some next) : next.Routed := by
  obtain ⟨good, onTime⟩ := inOrder
  cases move with
  | callback callback connectivity =>
      obtain ⟨⟨idle, -⟩, ⟨⟩⟩ := Option.ite_none_right_eq_some.mp stepTo
      exact inv.callback idle connectivity callback
  | main input => exact inv.mainStep onTime stepTo
  | worker input => exact inv.workerStep good stepTo
  | die => exact absurd good (by simp [Succeeds, succeeds])
  | request =>
      cases stepTo
      exact fun _ => .inl (.inr rfl)
  | requestClaim =>
      obtain ⟨-, ⟨⟩⟩ := Option.ite_none_right_eq_some.mp stepTo
      exact inv.claimWorker.recount _ _ _
  | reread =>
      obtain ⟨-, ⟨⟩⟩ := Option.ite_none_right_eq_some.mp stepTo
      exact inv.recount _ _ _
  | reclaim =>
      obtain ⟨-, ⟨⟩⟩ := Option.ite_none_right_eq_some.mp stepTo
      exact inv.claimWorker.recount _ _ _
  | shutdown =>
      obtain ⟨-, ⟨⟩⟩ := Option.ite_none_right_eq_some.mp stepTo
      exact fun active => absurd active Bool.false_ne_true

theorem started (active : Option Network) (ipv6 online : Bool) (multicastLock : Option Bool) :
    (started active ipv6 online multicastLock).Routed := fun _ => .inr rfl

end Session.Routed

/-- The network a callback is working on. -/
def MainPc.chosen : MainPc → Option Network
  | .lock _ network | .evaluate _ network => some network
  | _ => .none

/-- The last look was at the underlying network, or is about to be. -/
structure Faces (session : Session) : Prop where
  current : ∀ network, session.main.chosen = some network →
    session.currentUnderlying = some network
  looked : ∀ network, session.currentUnderlying = some network →
    session.main.chosen = none → session.looked.1 = some network

namespace Faces

variable {session next : Session}

theorem of_chosen {network : Network} (chosen : session.main.chosen = some network)
    (current : session.currentUnderlying = some network) : Faces session where
  current _ other := current.trans (chosen.symm.trans other)
  looked _ _ unchosen := by
    rw [chosen] at unchosen
    cases unchosen

theorem of_unchosen (unchosen : session.main.chosen = none)
    (looked : ∀ network, session.currentUnderlying = some network →
      session.looked.1 = some network) : Faces session where
  current _ chosen := by
    rw [unchosen] at chosen
    cases chosen
  looked network at_ _ := looked network at_

theorem goOn (inv : Faces session) (unchosen : session.main.chosen = none)
    (current : next.currentUnderlying = session.currentUnderlying)
    (looked : next.looked = session.looked) (main : next.main.chosen = none) : Faces next := by
  apply of_unchosen main
  intro network at_
  rw [looked]
  exact inv.looked network (current ▸ at_) unchosen

theorem mainStep (inv : Faces session) {input : Input}
    (stepTo : mainStep session input = some next) : Faces next := by
  cases at_ : session.main with
  | idle => simp [Underlay.mainStep, at_] at stepTo
  | updateUnderlying =>
      simp only [Underlay.mainStep, at_] at stepTo
      have unchosen : session.main.chosen = none := by rw [at_]; rfl
      rw [pushNamesOnline_eq] at stepTo
      split at stepTo <;> cases stepTo <;> exact inv.goOn unchosen rfl rfl rfl
  | store network =>
      simp only [Underlay.mainStep, at_] at stepTo
      cases stepTo
      exact of_chosen rfl rfl
  | lock previous network =>
      simp only [Underlay.mainStep, at_] at stepTo
      cases stepTo
      exact of_chosen rfl (inv.current network (by rw [at_]; rfl))
  | evaluate previous network =>
      simp only [Underlay.mainStep, at_] at stepTo
      have current : session.currentUnderlying = some network :=
        inv.current network (by rw [at_]; rfl)
      have faces : ∀ found, session.currentUnderlying = some found →
          some network = some found := fun found at_ => current.symm.trans at_
      split at stepTo
      · split at stepTo <;> cases stepTo <;> exact of_unchosen rfl faces
      · split at stepTo
        · cases stepTo
          exact of_unchosen rfl faces
        · split at stepTo <;> cases stepTo <;> exact of_unchosen rfl faces
  | _ =>
      simp only [Underlay.mainStep, at_] at stepTo
      have unchosen : session.main.chosen = none := by rw [at_]; rfl
      cases stepTo
      exact inv.goOn unchosen rfl rfl rfl

/-- A step that is not the looper's. -/
theorem aside (inv : Faces session) (same : SameNetworks session next)
    (looked : next.looked = session.looked ∨ next.looked.1 = session.currentUnderlying) :
    Faces next := by
  refine ⟨fun network chosen => ?_, fun network at_ unchosen => ?_⟩
  · rw [same.currentUnderlying]
    exact inv.current network (same.main ▸ chosen)
  · rw [same.currentUnderlying] at at_
    obtain kept | fresh := looked
    · rw [kept]
      exact inv.looked network at_ (same.main ▸ unchosen)
    · rw [fresh, at_]

theorem callback (inv : Faces session) (idle : session.main = .idle)
    (connectivity : Connectivity) (callback : Callback) :
    Faces (callbackStep session connectivity callback) := by
  have unchosen : session.main.chosen = none := by rw [idle]; rfl
  obtain ⟨_, goes⟩ | same | ⟨main, begins, goes⟩ :=
    callbackStep_cases session connectivity callback
  · rw [goes]
    exact inv.goOn unchosen rfl rfl rfl
  · rw [same]
    exact inv
  · rw [goes]
    refine inv.goOn unchosen rfl rfl ?_
    cases main <;> first
      | rfl
      | exact Bool.noConfusion begins

theorem step (inv : Faces session) {move : Move} (stepTo : step session move = some next) :
    Faces next := by
  obtain ⟨callback, connectivity, rfl⟩ | ⟨input, rfl⟩ | rfl | ⟨-, same, looked⟩ :=
    step_cases stepTo
  · obtain ⟨⟨idle, -⟩, ⟨⟩⟩ := Option.ite_none_right_eq_some.mp stepTo
    exact inv.callback idle connectivity callback
  · exact inv.mainStep stepTo
  · obtain ⟨idle, ⟨⟩⟩ := Option.ite_none_right_eq_some.mp stepTo
    exact ⟨fun network chosen => absurd (idle ▸ chosen) nofun, nofun⟩
  · exact inv.aside same looked

theorem started (active : Option Network) (ipv6 online : Bool) (multicastLock : Option Bool) :
    Faces (started active ipv6 online multicastLock) where
  current _ chosen := absurd chosen (by simp [Underlay.started, MainPc.chosen])
  looked _ at_ := absurd at_ (by simp [Underlay.started])

end Faces

/-- Whatever happens between the looper and the worker, as long as no look of the
looper finds the old route right while a pass is about to store another one, a
session that is up and at rest has the route that the last look asked for, and that
look was at the underlying network. -/
theorem route_follows_network {active : Option Network} {ipv6 online : Bool}
    {multicastLock : Option Bool} {moves : List Move} {session : Session}
    (run : Run step InOrder (started active ipv6 online multicastLock) moves session)
    (up : session.tunnelActive = true) (idle : session.main = .idle)
    (unasked : session.rebindRequested = false) (resting : session.worker = .none) :
    session.tunnelHasIpv6Clearnet = session.looked.2 ∧
      ∀ network, session.currentUnderlying = some network →
        session.looked.1 = some network := by
  have routed : session.Routed :=
    run.invariant (Session.Routed.started active ipv6 online multicastLock)
      fun _ _ _ inv inOrder stepTo => inv.step inOrder stepTo
  have faces : Faces session :=
    run.invariant (Faces.started active ipv6 online multicastLock)
      fun _ _ _ inv _ stepTo => inv.step stepTo
  refine ⟨?_, fun network at_ => faces.looked network at_ (by rw [idle]; rfl)⟩
  obtain (owes | asked) | aims := routed up
  · rw [idle] at owes
    exact absurd owes (by decide)
  · rw [unasked] at asked
    exact absurd asked (by decide)
  · rw [resting] at aims
    exact aims

section Example

private def global : InetAddress :=
  .inet6 #v[0x20, 1, 0xd, 0xb8, 0, 0, 0, 0, 0, 0, 0, 0, 0, 0, 0, 1]

/-- One validated Wi-Fi network, with IPv6 Internet or without. -/
private def wifi (ipv6 : Bool) : Input where
  connectivity := {
    capabilities := fun _ => some ⟨true, false, false, true⟩
    linkProperties := fun _ => some {
      routes := if ipv6 then [⟨global, 0⟩] else []
      linkAddresses := [⟨global, 64⟩] }
    activeNetwork := some 3 }
  lanMdns := true
  built := true
  established := true
  appsChanged := false

/-- A callback on the network and the looper's steps, up to its look. -/
private def ticking (ipv6 : Bool) : List Move :=
  .callback (.onAvailable 3) (wifi ipv6).connectivity :: List.replicate 4 (.main (wifi ipv6))

/-- A late route: the pass starts with IPv6 there; while it establishes, the looper looks again
and asks for another pass. -/
private def lateRoute : List Move :=
  ticking true ++ List.replicate 2 (.main (wifi true)) ++ List.replicate 6 (.worker (wifi true)) ++
    ticking true ++ List.replicate 2 (.main (wifi true)) ++
    List.replicate 14 (.worker (wifi true))

theorem late_route_is_adopted : ∃ session,
    Run step InOrder (started (some 3) false true (some false)) lateRoute session ∧
      (session.tunnelHasIpv6Clearnet = session.looked.2 ∧
        ∀ network, session.currentUnderlying = some network →
          session.looked.1 = some network) ∧
      session.currentUnderlying = some 3 ∧ session.tunnelHasIpv6Clearnet = true := by
  obtain ⟨session, run, up, idle, unasked, resting, current, route⟩ : ∃ session,
      Run step InOrder (started (some 3) false true (some false)) lateRoute session ∧
        session.tunnelActive = true ∧ session.main = .idle ∧
        session.rebindRequested = false ∧ session.worker = .none ∧
        session.currentUnderlying = some 3 ∧ session.tunnelHasIpv6Clearnet = true :=
    exists_run_of_execute _ (by decide +kernel)
  exact ⟨session, run, route_follows_network run up idle unasked resting, current, route⟩

/-- Without the condition: IPv6 goes away again while the pass establishes a tunnel
for it, the looper finds the old route as it should be, and the pass stores the new one. -/
example : ∃ session, Run step Succeeds (started (some 3) false true (some false))
    (ticking true ++ List.replicate 2 (.main (wifi true)) ++
      List.replicate 6 (.worker (wifi true)) ++ ticking false ++
      List.replicate 6 (.worker (wifi true))) session ∧
    (session.main = .idle ∧ session.rebindRequested = false ∧ session.worker = .none) ∧
    session.tunnelHasIpv6Clearnet ≠ session.looked.2 :=
  exists_run_of_execute _ (by decide +kernel)

end Example

end Fips2Go.Underlay
