import Fips2Go.UnderlayRoutes

/-!
# Hand-overs and the Internet flag

The network the tunnel is put on is the best of the candidates and never the
hotspot; each change of it is answered by one hint to the node or by one change
of the route, and the resolver is told of the Internet flag when it changes and
at no other time.
-/

namespace Fips2Go.Underlay

open GuardedRuns

/-- Whether the looper has put the tunnel on another network and not answered yet. -/
def MainPc.switches : MainPc → Nat
  | .lock (some previous) network | .evaluate (some previous) network =>
      if previous = network then 0 else 1
  | _ => 0

/-- The network a callback has decided for. -/
def MainPc.decided : MainPc → Option Network
  | .store network | .lock _ network | .evaluate _ network => some network
  | _ => .none

/-- `network` is the first of the best candidates, and the candidates are the
networks there are without the hotspot. -/
structure Best (session : Session) (network : Network) : Prop where
  preferred : preferredUnderlying session.candidates = some network
  candidates : session.candidates.map Prod.fst =
    session.availableNetworks.filter fun other => session.hotspotNetwork ≠ some other

theorem Best.mem {session : Session} {network : Network} (best : Best session network) :
    network ∈ session.availableNetworks ∧ session.hotspotNetwork ≠ some network := by
  obtain ⟨candidate, first, rfl⟩ := Option.map_eq_some_iff.mp best.preferred
  have listed : candidate.1 ∈ session.candidates.map Prod.fst :=
    List.mem_map_of_mem (List.argmax_mem first)
  rw [best.candidates, List.mem_filter] at listed
  exact ⟨listed.1, of_decide_eq_true listed.2⟩

/-- No candidate has a higher score, and none before it has the same. -/
theorem Best.score_le {session : Session} {network : Network} (best : Best session network) :
    ∃ chosen ∈ session.candidates, chosen.1 = network ∧ ∀ other ∈ session.candidates,
      Candidate.score other ≤ Candidate.score chosen ∧
        (Candidate.score chosen ≤ Candidate.score other →
          session.candidates.idxOf chosen ≤ session.candidates.idxOf other) := by
  obtain ⟨chosen, first, named⟩ := Option.map_eq_some_iff.mp best.preferred
  refine ⟨chosen, List.argmax_mem first, named, fun other listed =>
    ⟨List.le_of_mem_argmax listed first, fun level => ?_⟩⟩
  have index := List.index_of_argmax first listed level
  rwa [lawful_beq_subsingleton instBEqOfDecidableEq (instBEqProd : BEq Candidate)] at index

/-- The books of the hand-overs. -/
structure Answered (session : Session) : Prop where
  live : session.main ≠ .idle → session.tunnelActive = true
  pushes : session.pushes.IsChain (· ≠ ·)
  resolver : session.pushes.getLast? = session.namesOnline
  validated : session.namesOnline = some session.validated
  told : session.told.IsChain (· ≠ ·)
  underlay : session.tunnelActive = true → session.told.getLast? = session.currentUnderlying
  counted : session.told.length =
    min 1 session.told.length + session.hints + session.flips + session.main.switches
  best : ∀ network, session.main.decided = some network → Best session network

/-- A list without equal neighbours takes an element that differs from its last. -/
theorem isChain_concat {α : Type*} {items : List α} {item : α}
    (chain : items.IsChain (· ≠ ·)) (differs : items.getLast? ≠ some item) :
    (items ++ [item]).IsChain (· ≠ ·) := by
  refine chain.append (.singleton item) fun last ends first begins => ?_
  cases begins
  intro same
  exact differs (same ▸ ends)

namespace Answered

variable {session next : Session}

/-- A step that is not the looper's. -/
theorem aside (inv : Answered session) (same : SameNetworks session next)
    (hotspot : next.hotspotNetwork = session.hotspotNetwork) : Answered next where
  live busy := by
    rw [same.tunnelActive]
    exact inv.live (same.main ▸ busy)
  pushes := same.pushes ▸ inv.pushes
  resolver := by rw [same.pushes, same.namesOnline, inv.resolver]
  validated := by rw [same.namesOnline, same.validated, inv.validated]
  told := same.told ▸ inv.told
  underlay up := by
    rw [same.told, same.currentUnderlying]
    exact inv.underlay (same.tunnelActive ▸ up)
  counted := by
    rw [same.told, same.hints, same.flips, same.main]
    exact inv.counted
  best network decided := by
    have best := inv.best network (same.main ▸ decided)
    exact ⟨same.candidates ▸ best.preferred,
      by rw [same.candidates, same.availableNetworks, hotspot, best.candidates]⟩

/-- The looper goes on to a step without a network decided for. -/
theorem goOn (inv : Answered session) (up : session.tunnelActive = true)
    (quiet : session.main.switches = 0) {next : Session}
    (tunnelActive : next.tunnelActive = session.tunnelActive)
    (names : next.namesOnline = session.namesOnline ∧ next.pushes = session.pushes ∧
      next.validated = session.validated)
    (networks : next.currentUnderlying = session.currentUnderlying ∧
      next.told = session.told ∧ next.hints = session.hints ∧ next.flips = session.flips)
    (main : next.main.switches = 0 ∧ next.main.decided = none) : Answered next where
  live _ := tunnelActive.trans up
  pushes := names.2.1 ▸ inv.pushes
  resolver := by rw [names.2.1, names.1, inv.resolver]
  validated := by rw [names.1, names.2.2, inv.validated]
  told := networks.2.1 ▸ inv.told
  underlay _ := by
    rw [networks.2.1, networks.1]
    exact inv.underlay up
  counted := by
    obtain ⟨-, told, hints, flips⟩ := networks
    rw [told, hints, flips, main.1, ← quiet]
    exact inv.counted
  best network decided := by
    rw [main.2] at decided
    exact absurd decided nofun

theorem pushNamesOnline (inv : Answered session) {candidates : List Candidate}
    {validated : Bool} (up : session.tunnelActive = true) (quiet : session.main.switches = 0)
    {main : MainPc} (goesOn : main.switches = 0)
    (best : ∀ network, main.decided = some network →
      Best { session with candidates } network) :
    Answered { { session with candidates, validated }.pushNamesOnline validated with main } := by
  have told : min 1 session.told.length + session.hints + session.flips + main.switches =
      session.told.length := by
    rw [goesOn, ← quiet]
    exact inv.counted.symm
  unfold Session.pushNamesOnline
  split
  next differs =>
    exact ⟨fun _ => up, isChain_concat inv.pushes (inv.resolver ▸ differs),
      List.getLast?_concat, rfl, inv.told, inv.underlay, told.symm,
      fun network decided => ⟨(best network decided).preferred, (best network decided).candidates⟩⟩
  next same =>
    exact ⟨fun _ => up, inv.pushes, inv.resolver, not_not.mp same, inv.told, inv.underlay,
      told.symm,
      fun network decided => ⟨(best network decided).preferred, (best network decided).candidates⟩⟩

/-- The tunnel is put on the network decided for. -/
theorem store (inv : Answered session) {network : Network}
    (at_ : session.main = .store network) :
    Answered { session with
      told :=
        if session.currentUnderlying = some network then session.told
        else session.told ++ [network]
      currentUnderlying := some network
      main := .lock session.currentUnderlying network } := by
  have up : session.tunnelActive = true := inv.live (by rw [at_]; nofun)
  have last : session.told.getLast? = session.currentUnderlying := inv.underlay up
  have counted : session.told.length =
      min 1 session.told.length + session.hints + session.flips := by
    have counted := inv.counted
    rw [at_] at counted
    exact counted
  have best : ∀ other, some network = some other → Best session other := fun other same =>
    inv.best other (by rw [at_]; exact same)
  by_cases stays : session.currentUnderlying = some network
  · rw [if_pos stays]
    refine ⟨fun _ => up, inv.pushes, inv.resolver, inv.validated, inv.told,
      fun _ => last.trans stays, ?_, fun other same => ?_⟩
    · change _ = _ + MainPc.switches (.lock session.currentUnderlying network)
      rw [stays]
      simpa [MainPc.switches] using counted
    · exact ⟨(best other same).preferred, (best other same).candidates⟩
  · rw [if_neg stays]
    refine ⟨fun _ => up, inv.pushes, inv.resolver, inv.validated,
      isChain_concat inv.told (last ▸ stays), fun _ => List.getLast?_concat, ?_,
      fun other same => ?_⟩
    · change (session.told ++ [network]).length = min 1 (session.told ++ [network]).length +
        session.hints + session.flips + MainPc.switches (.lock session.currentUnderlying network)
      cases previous : session.currentUnderlying with
      | none =>
          have empty : session.told = [] := List.getLast?_eq_none_iff.mp (last.trans previous)
          rw [empty] at counted ⊢
          simp only [List.length_nil, List.nil_append, List.length_singleton,
            MainPc.switches] at counted ⊢
          omega
      | some before =>
          have nonempty : session.told ≠ [] := by
            intro empty
            rw [empty, previous] at last
            exact absurd last nofun
          have positive : 0 < session.told.length := List.length_pos_iff.mpr nonempty
          have differs : before ≠ network := fun same => stays (same ▸ previous)
          simp only [List.length_append, List.length_singleton, MainPc.switches, if_neg differs]
          omega
    · exact ⟨(best other same).preferred, (best other same).candidates⟩

/-- The look at the route answers the change of network, by a flip or a hint. -/
theorem evaluate (inv : Answered session) {input : Input} {previous : Option Network}
    {network : Network} (at_ : session.main = .evaluate previous network)
    (stepTo : Underlay.mainStep session input = some next) : Answered next := by
  have up : session.tunnelActive = true := inv.live (by rw [at_]; nofun)
  have counted := inv.counted
  rw [at_] at counted
  have goOn {looked : Option Network × Bool} {hints flips : Nat} {main : MainPc}
      (answered : hints + flips =
        session.hints + session.flips + (MainPc.evaluate previous network).switches)
      (quiet : main.switches = 0 ∧ main.decided = none) :
      Answered { session with looked, hints, flips, main } := by
    refine ⟨fun _ => up, inv.pushes, inv.resolver, inv.validated, inv.told, inv.underlay,
      ?_, fun other decided => ?_⟩
    · change session.told.length = min 1 session.told.length + hints + flips + main.switches
      rw [quiet.1]
      omega
    · rw [quiet.2] at decided
      exact absurd decided nofun
  unfold Underlay.mainStep at stepTo
  rw [at_] at stepTo
  dsimp only at stepTo
  cases previous with
  | none =>
      dsimp only at stepTo
      split at stepTo <;> cases stepTo <;> exact goOn rfl ⟨rfl, rfl⟩
  | some before =>
      have switches : (MainPc.evaluate (some before) network).switches =
          if before = network then 0 else 1 := rfl
      dsimp only at stepTo
      split at stepTo
      · cases stepTo
        refine goOn ?_ ⟨rfl, rfl⟩
        rw [switches]
        by_cases same : before = network
        · rw [if_neg (not_not.mpr same), if_pos same, Nat.add_zero]
        · rw [if_pos same, if_neg same, Nat.add_assoc]
      · split at stepTo
        next differs =>
          cases stepTo
          refine goOn ?_ ⟨rfl, rfl⟩
          rw [switches, if_neg differs]
          omega
        next stays =>
          cases stepTo
          refine goOn ?_ ⟨rfl, rfl⟩
          rw [switches, if_pos (not_not.mp stays), Nat.add_zero]

theorem mainStep (inv : Answered session) {input : Input}
    (stepTo : mainStep session input = some next) : Answered next := by
  cases at_ : session.main with
  | idle => simp [Underlay.mainStep, at_] at stepTo
  | updateUnderlying =>
      simp only [Underlay.mainStep, at_] at stepTo
      -- What `pushNamesOnline` is given still has its place in it.
      rw [← at_] at stepTo
      have up : session.tunnelActive = true := inv.live (by simp [at_])
      have quiet : session.main.switches = 0 := by rw [at_]; rfl
      split at stepTo
      · cases stepTo
        refine inv.pushNamesOnline up quiet rfl fun other undecided => ?_
        cases undecided
      next network preferred =>
        cases stepTo
        refine inv.pushNamesOnline up quiet rfl fun other same => ?_
        cases same
        refine ⟨preferred, ?_⟩
        change (candidateNetworks input.connectivity session).map Prod.fst = _
        rw [candidateNetworks, List.map_map]
        exact List.map_id _
  | store network =>
      simp only [Underlay.mainStep, at_] at stepTo
      cases stepTo
      exact inv.store at_
  | lock previous network =>
      simp only [Underlay.mainStep, at_] at stepTo
      have up : session.tunnelActive = true := inv.live (by simp [at_])
      have counted := inv.counted
      have best := inv.best
      rw [at_] at counted best
      cases stepTo
      refine ⟨fun _ => up, inv.pushes, inv.resolver, inv.validated, inv.told, inv.underlay,
        ?_, fun other same => ⟨(best other same).preferred, (best other same).candidates⟩⟩
      cases previous <;> exact counted
  | evaluate previous network =>
      exact inv.evaluate at_ stepTo
  | _ =>
      simp only [Underlay.mainStep, at_] at stepTo
      have up : session.tunnelActive = true := inv.live (by simp [at_])
      cases stepTo
      exact inv.goOn up (by rw [at_]; rfl) rfl ⟨rfl, rfl, rfl⟩ ⟨rfl, rfl, rfl, rfl⟩ ⟨rfl, rfl⟩

theorem callback (inv : Answered session) (idle : session.main = .idle)
    (up : session.tunnelActive = true) (connectivity : Connectivity) (callback : Callback) :
    Answered (callbackStep session connectivity callback) := by
  have quiet : session.main.switches = 0 := by rw [idle]; rfl
  obtain ⟨_, goes⟩ | same | ⟨main, begins, goes⟩ :=
    callbackStep_cases session connectivity callback
  · rw [goes]
    exact inv.goOn up quiet rfl ⟨rfl, rfl, rfl⟩ ⟨rfl, rfl, rfl, rfl⟩ ⟨rfl, rfl⟩
  · rw [same]
    exact inv
  · rw [goes]
    refine inv.goOn up quiet rfl ⟨rfl, rfl, rfl⟩ ⟨rfl, rfl, rfl, rfl⟩ ?_
    cases main <;> first
      | exact ⟨rfl, rfl⟩
      | exact Bool.noConfusion begins

theorem step (inv : Answered session) {move : Move} (stepTo : step session move = some next) :
    Answered next := by
  obtain ⟨callback, connectivity, rfl⟩ | ⟨input, rfl⟩ | rfl | ⟨hotspot, same, -⟩ :=
    step_cases stepTo
  · obtain ⟨⟨idle, up⟩, ⟨⟩⟩ := Option.ite_none_right_eq_some.mp stepTo
    exact inv.callback idle up connectivity callback
  · exact inv.mainStep stepTo
  · obtain ⟨idle, ⟨⟩⟩ := Option.ite_none_right_eq_some.mp stepTo
    refine ⟨fun busy => absurd idle busy, inv.pushes, inv.resolver, inv.validated, inv.told,
      nofun, inv.counted, fun network decided => ?_⟩
    change session.main.decided = some network at decided
    rw [idle] at decided
    exact absurd decided nofun
  · exact inv.aside same hotspot.network

theorem started (active : Option Network) (ipv6 online : Bool) (multicastLock : Option Bool) :
    Answered (started active ipv6 online multicastLock) where
  live busy := absurd rfl busy
  pushes := .singleton online
  resolver := rfl
  validated := rfl
  told := .nil
  underlay _ := rfl
  counted := rfl
  best _ decided := absurd decided (by simp [Underlay.started, MainPc.decided])

end Answered

/-- In every run the resolver is told of the Internet flag when it changes and at
no other time; the tunnel is put on a network other than its last, and each such
change is answered by one hint or one flip of the route; and the network that is
put under the tunnel is an available one that is not the hotspot, the first of
those with the highest score. -/
theorem hand_overs_are_answered {active : Option Network} {ipv6 online : Bool}
    {multicastLock : Option Bool} {moves : List Move} {session : Session}
    (run : Run step anyStep (started active ipv6 online multicastLock) moves session) :
    (session.pushes.IsChain (· ≠ ·) ∧ session.pushes.getLast? = some session.validated) ∧
      (session.told.IsChain (· ≠ ·) ∧
        (session.tunnelActive = true →
          session.told.getLast? = session.currentUnderlying) ∧
        (session.main = .idle → session.told ≠ [] →
          session.told.length = 1 + session.hints + session.flips)) ∧
      ∀ network, session.main.decided = some network →
        (network ∈ session.availableNetworks ∧ session.hotspotNetwork ≠ some network) ∧
          ∃ chosen ∈ session.candidates, chosen.1 = network ∧ ∀ other ∈ session.candidates,
            Candidate.score other ≤ Candidate.score chosen ∧
              (Candidate.score chosen ≤ Candidate.score other →
                session.candidates.idxOf chosen ≤ session.candidates.idxOf other) := by
  have answered : Answered session :=
    run.invariant (Answered.started active ipv6 online multicastLock)
      fun _ _ _ inv _ stepTo => inv.step stepTo
  refine ⟨⟨answered.pushes, answered.resolver.trans answered.validated⟩,
    ⟨answered.told, answered.underlay, fun idle nonempty => ?_⟩, fun network decided => ?_⟩
  · have counted := answered.counted
    have positive : 0 < session.told.length := List.length_pos_iff.mpr nonempty
    rw [idle, Nat.min_eq_left positive] at counted
    exact counted
  · have best := answered.best network decided
    exact ⟨best.mem, best.score_le⟩

section Example

private def phone (validated : Bool) : Input where
  connectivity := {
    capabilities := fun network =>
      some ⟨network == 3, false, network == 5, validated || network == 5⟩
    linkProperties := fun _ => none
    activeNetwork := some 3 }
  lanMdns := false
  built := true
  established := true
  appsChanged := false

private def tick (validated : Bool) (callback : Callback) : List Move :=
  .callback callback (phone validated).connectivity ::
    List.replicate 4 (.main (phone validated))

/-- Wi-Fi loses its validation while the mobile network has it. -/
private def handOver : List Move :=
  tick true (.onAvailable 3) ++ tick true (.onAvailable 5) ++
    tick false (.onCapabilitiesChanged 3)

theorem dying_wifi_hands_over : ∃ session,
    Run step anyStep (started (some 3) false true none) handOver session ∧
      session.told = [3, 5] ∧ session.pushes = [true] ∧
      session.told.length = 1 + session.hints + session.flips ∧ session.hints = 1 := by
  obtain ⟨session, run, idle, told, pushes, hints⟩ : ∃ session,
      Run step anyStep (started (some 3) false true none) handOver session ∧
        session.main = .idle ∧ session.told = [3, 5] ∧ session.pushes = [true] ∧
        session.hints = 1 :=
    exists_run_of_execute _ (by decide +kernel)
  obtain ⟨-, ⟨-, -, counted⟩, -⟩ := hand_overs_are_answered run
  exact ⟨session, run, told, pushes, counted idle (by rw [told]; nofun), hints⟩

end Example

end Fips2Go.Underlay
