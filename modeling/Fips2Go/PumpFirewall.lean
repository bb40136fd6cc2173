import Fips2Go.PumpTraffic

/-!
# The firewall in the pump

The calls on the firewall are what the reader forwarded and what the bridge asked
about, in the order of the run.  So what reaches the TUN from the mesh is justified
by what the apps sent there, every packet of the node is accounted for, and the
drop log stays short.
-/

namespace Fips2Go.PumpTraffic

open GuardedRuns
open Fips2Go.Filter (Call InboundFilter Justified)
open MeshHttp (Tap)
open Pump (Way way)

variable {meshPrefix : UInt8} {dnsAddr : FixedBytes 16} {forwarder : Bool}
  {allowedPorts : Option (List UInt16)} {state next : Traffic}

/-! ### The calls on the firewall -/

/-- What the reader noted. -/
def Call.noted : Call → Option (Nat × Bytes)
  | .noteOutbound _ now packet => some (now, packet)
  | .allowInbound .. => none

/-- The firewall has seen the packets that the node let into the mesh, in order, and
a packet was passed on its verdict. -/
structure Recorded (allowedPorts : Option (List UInt16)) (state : Traffic) : Prop where
  filter : state.filter =
    allowedPorts.map fun ports => (InboundFilter.new ports).after state.history
  noted : allowedPorts.isSome → state.history.filterMap Call.noted = state.forwarded
  passed : ∀ ports, allowedPorts = some ports → ∀ now packet, (now, packet) ∈ state.passed →
    ∃ before after, state.history = before ++ Call.allowInbound now packet :: after ∧
      Justified ports before now packet

namespace Recorded

theorem started (tap : Tap) : Recorded allowedPorts (Traffic.started allowedPorts tap) where
  filter := by cases allowedPorts <;> rfl
  noted _ := rfl
  passed _ _ _ _ member := by cases member

/-- Nothing of the firewall changes. -/
theorem congr (recorded : Recorded allowedPorts state) (filter : next.filter = state.filter)
    (history : next.history = state.history) (forwarded : next.forwarded = state.forwarded)
    (passed : next.passed = state.passed) : Recorded allowedPorts next := by
  refine ⟨?_, ?_, ?_⟩
  · rw [filter, history]
    exact recorded.filter
  · rw [history, forwarded]
    exact recorded.noted
  · rw [history, passed]
    exact recorded.passed

/-- A packet goes into the mesh. -/
theorem forward (recorded : Recorded allowedPorts state)
    (order : FiniteTable.IterationOrder Filter.FlowKey Nat) (now : Nat) (packet : Bytes)
    (reading : Bool) :
    Recorded allowedPorts { state.noteOutbound order now packet with
      forwarded := (state.noteOutbound order now packet).forwarded ++ [(now, packet)]
      reading } := by
  unfold Traffic.noteOutbound
  cases allowed : allowedPorts with
  | none =>
      subst allowed
      have off : state.filter = none := recorded.filter
      simp only [off]
      exact ⟨rfl, nofun, nofun⟩
  | some ports =>
      subst allowed
      have on : state.filter = some ((InboundFilter.new ports).after state.history) :=
        recorded.filter
      simp only [on]
      refine ⟨?_, fun some => ?_, ?_⟩
      · simp only [Option.map_some, InboundFilter.after_append]
        rfl
      · rw [List.filterMap_append, recorded.noted some]
        rfl
      · intro ports' same now' packet' member
        obtain ⟨before, after, history, justified⟩ :=
          recorded.passed ports' same now' packet' member
        exact ⟨before, after ++ [Call.noteOutbound order now packet], by simp [history], justified⟩

/-- The firewall is asked about a packet. -/
theorem ask {ports : List UInt16} (recorded : Recorded (some ports) state) (now : Nat)
    (packet : Bytes) {filter : InboundFilter} (on : state.filter = some filter) :
    Recorded (some ports) { state with
      filter := some (filter.allowInbound now packet).2
      history := state.history ++ [Call.allowInbound now packet] } := by
  have current : filter = (InboundFilter.new ports).after state.history :=
    Option.some.inj (on.symm.trans recorded.filter)
  refine ⟨?_, fun some => ?_, ?_⟩
  · simp only [Option.map_some, InboundFilter.after_append, current]
    rfl
  · rw [List.filterMap_append, recorded.noted some]
    exact List.append_nil _
  · intro ports' same now' packet' member
    obtain ⟨before, after, history, justified⟩ := recorded.passed ports' same now' packet' member
    exact ⟨before, after ++ [Call.allowInbound now packet], by simp [history], justified⟩

theorem deny (recorded : Recorded allowedPorts state) (packet : Bytes) :
    Recorded allowedPorts (state.deny packet) := by
  unfold Traffic.deny
  simp only
  split <;> exact recorded.congr rfl rfl rfl rfl

/-- A packet is passed with nothing to ask, or on the last verdict. -/
theorem pass (recorded : Recorded allowedPorts state) (packet : Bytes) (now : Nat) (taken : Bool)
    (asked : ∀ ports, allowedPorts = some ports → ∃ before after,
      state.history = before ++ Call.allowInbound now packet :: after ∧
        Justified ports before now packet) :
    Recorded allowedPorts (state.pass packet now taken) := by
  unfold Traffic.pass
  cases taken with
  | false => exact recorded.congr rfl rfl rfl rfl
  | true =>
      refine ⟨recorded.filter, recorded.noted, ?_⟩
      intro ports same now' packet' member
      rcases List.mem_append.mp member with earlier | last
      · exact recorded.passed ports same now' packet' earlier
      · obtain ⟨rfl, rfl⟩ := Prod.mk.inj (List.mem_singleton.mp last)
        exact asked ports same

theorem letThrough (recorded : Recorded allowedPorts state) (packet : Bytes) (now : Nat)
    (taken : Bool) : Recorded allowedPorts (state.letThrough packet now taken) := by
  unfold Traffic.letThrough
  cases allowed : allowedPorts with
  | none =>
      subst allowed
      have off : state.filter = none := recorded.filter
      simp only [off]
      exact recorded.pass packet now taken nofun
  | some ports =>
      subst allowed
      have on : state.filter = some ((InboundFilter.new ports).after state.history) :=
        recorded.filter
      simp only [on]
      have asked := recorded.ask now packet on
      split
      next admitted =>
        refine asked.pass packet now taken ?_
        rintro _ ⟨⟩
        exact ⟨state.history, [], rfl,
          Filter.justified_of_admitted ports state.history now packet admitted⟩
      next => exact asked.deny packet

theorem deliver (recorded : Recorded allowedPorts state) (packet : Bytes) (now : Nat)
    (taken : Bool) : Recorded allowedPorts (state.deliver packet now taken) := by
  unfold Traffic.deliver
  simp only
  split
  · exact recorded.congr rfl rfl rfl rfl
  · refine Recorded.letThrough ?_ _ now taken
    exact recorded.congr rfl rfl rfl rfl

theorem writeBack (recorded : Recorded allowedPorts state) (packet : Bytes) (taken : Bool) :
    Recorded allowedPorts (state.writeBack packet taken) := by
  unfold Traffic.writeBack
  split <;> exact recorded.congr rfl rfl rfl rfl

theorem readPacket (recorded : Recorded allowedPorts state) (packet : Bytes)
    (processed : Processed) (order : FiniteTable.IterationOrder Filter.FlowKey Nat) (now : Nat)
    (taken : Bool) :
    Recorded allowedPorts
      (state.readPacket meshPrefix dnsAddr forwarder packet processed order now taken) := by
  unfold Traffic.readPacket
  split
  · exact recorded.congr rfl rfl rfl rfl
  · split_ifs <;> exact recorded.congr rfl rfl rfl rfl
  · cases processed with
    | forward packet => exact recorded.forward order now packet _
    | hairpin packet => exact recorded.writeBack packet taken
    | respond response => exact recorded.writeBack response taken
    | drop => exact recorded

theorem step {act : Act} (recorded : Recorded allowedPorts state)
    (stepTo : step meshPrefix dnsAddr forwarder state act = some next) :
    Recorded allowedPorts next := by
  cases act with
  | read packet processed order now taken =>
      obtain ⟨-, ⟨⟩⟩ := Option.ite_none_right_eq_some.mp stepTo
      exact recorded.readPacket packet processed order now taken
  | deliver packet now taken =>
      obtain ⟨-, ⟨⟩⟩ := Option.ite_none_right_eq_some.mp stepTo
      exact recorded.deliver packet now taken
  | stopReading =>
      cases stepTo
      exact recorded.congr rfl rfl rfl rfl
  | stopBridging =>
      cases stepTo
      exact recorded.congr rfl rfl rfl rfl
  | flows op =>
      simp only [PumpTraffic.step] at stepTo
      split at stepTo
      · cases stepTo
        exact recorded.congr rfl rfl rfl rfl
      · cases stepTo

end Recorded

/-! ### Accounts and the drop log -/

/-- Every packet of the node but those in hand was taken by a flow, denied, passed,
or found the TUN's channel closed, which ends the bridge; the drop log has one line
for each of its ports, and lacks a denied port only when it is full. -/
structure Accounted (inHand : Nat) (state : Traffic) : Prop where
  delivered : state.delivered.length = state.claimed.length + state.denied.length +
    state.passed.length + state.unsent.length + inHand
  unsent : state.unsent.length ≤ 1
  going : state.bridging = true → state.unsent = []
  ports : state.lines.map Line.port = state.loggedPorts.reverse
  once : state.loggedPorts.Nodup
  short : state.loggedPorts.length ≤ maxLogged
  lines : ∀ line ∈ state.lines, ∃ packet ∈ state.denied, describe packet = line
  logged : ∀ packet ∈ state.denied, (describe packet).port ∈ state.loggedPorts ∨
    state.loggedPorts.length = maxLogged

namespace Accounted

variable {inHand : Nat}

theorem started (tap : Tap) : Accounted 0 (Traffic.started allowedPorts tap) where
  delivered := rfl
  unsent := Nat.zero_le 1
  going _ := rfl
  ports := rfl
  once := List.nodup_nil
  short := Nat.zero_le _
  lines _ member := by cases member
  logged _ member := by cases member

theorem deny (accounted : Accounted 1 state) (packet : Bytes) :
    Accounted 0 (state.deny packet) := by
  have delivered := accounted.delivered
  have denied : (state.denied ++ [packet]).length = state.denied.length + 1 :=
    List.length_append
  have stays : ∀ line ∈ state.lines, ∃ other ∈ state.denied ++ [packet], describe other = line := by
    intro line member
    obtain ⟨other, old, described⟩ := accounted.lines line member
    exact ⟨other, List.mem_append_left _ old, described⟩
  unfold Traffic.deny
  simp only
  split
  next first =>
    refine ⟨?_, accounted.unsent, accounted.going, ?_, ?_, ?_, ?_, ?_⟩
    · simp only [denied]
      omega
    · rw [List.map_append, accounted.ports, List.reverse_cons]
      rfl
    · have unlogged : (describe packet).port ∉ state.loggedPorts := by simpa using first.2
      exact List.nodup_cons.mpr ⟨unlogged, accounted.once⟩
    · exact first.1
    · intro line member
      rcases List.mem_append.mp member with old | last
      · exact stays line old
      · exact ⟨packet, List.mem_append_right _ List.mem_cons_self,
          (List.mem_singleton.mp last).symm⟩
    · intro other member
      rcases List.mem_append.mp member with old | last
      · rcases accounted.logged other old with known | full
        · exact .inl (List.mem_cons_of_mem _ known)
        · have room : state.loggedPorts.length < maxLogged := first.1
          omega
      · rw [List.mem_singleton.mp last]
        exact .inl List.mem_cons_self
  next known =>
    refine ⟨?_, accounted.unsent, accounted.going, accounted.ports, accounted.once,
      accounted.short, stays, ?_⟩
    · simp only [denied]
      omega
    · intro other member
      rcases List.mem_append.mp member with old | last
      · exact accounted.logged other old
      · rw [List.mem_singleton.mp last]
        by_cases logged : (describe packet).port ∈ state.loggedPorts
        · exact .inl logged
        · have full : ¬ state.loggedPorts.length < maxLogged :=
            fun room => known ⟨room, by simpa using logged⟩
          exact .inr (Nat.le_antisymm accounted.short (Nat.le_of_not_lt full))

theorem pass (accounted : Accounted 1 state) (bridging : state.bridging = true) (packet : Bytes)
    (now : Nat) (taken : Bool) : Accounted 0 (state.pass packet now taken) := by
  have delivered := accounted.delivered
  have none := accounted.going bridging
  unfold Traffic.pass
  cases taken with
  | true =>
      refine { accounted with delivered := ?_ }
      simp only [if_true, List.length_append, List.length_singleton]
      omega
  | false =>
      refine { accounted with delivered := ?_, unsent := ?_, going := nofun }
      · simp only [Bool.false_eq_true, if_false, List.length_append, List.length_singleton]
        omega
      · simp [none]

/-- The firewall and the tap keep no accounts of the bridge. -/
theorem ask (accounted : Accounted inHand state) (filter : Option InboundFilter)
    (history : List Call) (tap : Tap) :
    Accounted inHand { state with filter, history, tap } :=
  ⟨accounted.delivered, accounted.unsent, accounted.going, accounted.ports, accounted.once,
    accounted.short, accounted.lines, accounted.logged⟩

theorem letThrough (accounted : Accounted 1 state) (bridging : state.bridging = true)
    (packet : Bytes) (now : Nat) (taken : Bool) :
    Accounted 0 (state.letThrough packet now taken) := by
  unfold Traffic.letThrough
  split
  · exact accounted.pass bridging packet now taken
  next filter _ =>
    have asked := accounted.ask (some (filter.allowInbound now packet).2)
      (state.history ++ [Call.allowInbound now packet]) state.tap
    simp only
    split
    · exact asked.pass bridging packet now taken
    · exact asked.deny packet

theorem deliver (accounted : Accounted 0 state) (bridging : state.bridging = true)
    (packet : Bytes) (now : Nat) (taken : Bool) :
    Accounted 0 (state.deliver packet now taken) := by
  have inHand : Accounted 1 { state with delivered := state.delivered ++ [packet] } :=
    { accounted with
      delivered := by
        have before := accounted.delivered
        rw [List.length_append]
        exact congrArg (· + 1) before }
  unfold Traffic.deliver
  simp only
  split
  next tap _ =>
    have before := accounted.delivered
    refine { inHand with delivered := ?_ }
    simp only [List.length_append, List.length_singleton]
    omega
  next tap packet _ =>
    exact (inHand.ask state.filter state.history tap).letThrough bridging packet now taken

/-- The reader's records are none of the bridge's. -/
theorem reader (accounted : Accounted inHand state) (filter : Option InboundFilter)
    (history : List Call) (reading : Bool) (asked clearnet returned : List Bytes)
    (forwarded : List (Nat × Bytes)) :
    Accounted inHand
      { state with filter, history, reading, asked, clearnet, returned, forwarded } :=
  ⟨accounted.delivered, accounted.unsent, accounted.going, accounted.ports, accounted.once,
    accounted.short, accounted.lines, accounted.logged⟩

theorem writeBack (accounted : Accounted inHand state) (packet : Bytes) (taken : Bool) :
    Accounted inHand (state.writeBack packet taken) := by
  unfold Traffic.writeBack
  split <;> exact accounted.reader _ _ _ _ _ _ _

theorem noteOutbound (accounted : Accounted inHand state)
    (order : FiniteTable.IterationOrder Filter.FlowKey Nat) (now : Nat) (packet : Bytes) :
    Accounted inHand (state.noteOutbound order now packet) := by
  unfold Traffic.noteOutbound
  split
  · exact accounted
  · exact accounted.reader _ _ _ _ _ _ _

theorem readPacket (accounted : Accounted inHand state) (packet : Bytes) (processed : Processed)
    (order : FiniteTable.IterationOrder Filter.FlowKey Nat) (now : Nat) (taken : Bool) :
    Accounted inHand
      (state.readPacket meshPrefix dnsAddr forwarder packet processed order now taken) := by
  unfold Traffic.readPacket
  split
  · exact accounted.reader _ _ _ _ _ _ _
  · split_ifs
    · exact accounted.reader _ _ _ _ _ _ _
    · exact accounted.reader _ _ _ _ _ _ _
    · exact accounted
  · cases processed with
    | forward packet => exact (accounted.noteOutbound order now packet).reader _ _ _ _ _ _ _
    | hairpin packet => exact accounted.writeBack packet taken
    | respond response => exact accounted.writeBack response taken
    | drop => exact accounted

theorem step {act : Act} (accounted : Accounted 0 state)
    (stepTo : step meshPrefix dnsAddr forwarder state act = some next) : Accounted 0 next := by
  cases act with
  | read packet processed order now taken =>
      obtain ⟨-, ⟨⟩⟩ := Option.ite_none_right_eq_some.mp stepTo
      exact accounted.readPacket packet processed order now taken
  | deliver packet now taken =>
      obtain ⟨bridging, ⟨⟩⟩ := Option.ite_none_right_eq_some.mp stepTo
      exact accounted.deliver bridging packet now taken
  | stopReading =>
      cases stepTo
      exact accounted.reader _ _ _ _ _ _ _
  | stopBridging =>
      cases stepTo
      exact { accounted with going := nofun }
  | flows op =>
      simp only [PumpTraffic.step] at stepTo
      split at stepTo
      next tap _ =>
        cases stepTo
        exact accounted.ask state.filter state.history tap
      next => cases stepTo

end Accounted

/-! ### Flows of the node itself -/

theorem coherent_step {act : Act} (coherent : MeshHttp.Coherent state.tap)
    (stepTo : step meshPrefix dnsAddr forwarder state act = some next) :
    MeshHttp.Coherent next.tap := by
  have given : ∀ {given : Traffic} (packet : Bytes) (now : Nat) (taken : Bool),
      (given.letThrough packet now taken).tap = given.tap := by
    intro given packet now taken
    unfold Traffic.letThrough Traffic.pass Traffic.deny
    split
    · split <;> rfl
    · simp only
      split_ifs <;> rfl
  cases act with
  | read packet processed order now taken =>
      obtain ⟨-, ⟨⟩⟩ := Option.ite_none_right_eq_some.mp stepTo
      have same : (state.readPacket meshPrefix dnsAddr forwarder packet processed order now
          taken).tap = state.tap := by
        unfold Traffic.readPacket Traffic.route Traffic.writeBack Traffic.noteOutbound
        split
        · rfl
        · split_ifs <;> rfl
        · cases processed <;> simp only
          · split <;> rfl
          · split <;> rfl
          · split <;> rfl
      rw [same]
      exact coherent
  | deliver packet now taken =>
      obtain ⟨-, ⟨⟩⟩ := Option.ite_none_right_eq_some.mp stepTo
      have claimed := coherent.claimPacket packet
      unfold Traffic.deliver
      simp only
      split
      next tap claims =>
        rw [claims] at claimed
        exact claimed
      next tap packet claims =>
        rw [given]
        rw [claims] at claimed
        exact claimed
  | stopReading =>
      cases stepTo
      exact coherent
  | stopBridging =>
      cases stepTo
      exact coherent
  | flows op =>
      simp only [PumpTraffic.step] at stepTo
      split at stepTo
      next tap steps =>
        cases stepTo
        exact coherent.step steps
      next => cases stepTo

/-- A reply to a flow of the node itself goes down its channel and no other, past
neither the firewall nor the TUN. -/
theorem deliver_claimed (coherent : MeshHttp.Coherent state.tap) {guard : MeshHttp.FlowGuard}
    (alive : guard ∈ state.tap.guards) {packet : Bytes}
    (own : MeshHttp.flowKey packet = some guard.key) (now : Nat) (taken : Bool) :
    let after := state.deliver packet now taken
    after.tap.sent guard.tx = state.tap.sent guard.tx ++ [packet] ∧
      (∀ tx ≠ guard.tx, after.tap.sent tx = state.tap.sent tx) ∧
      after.history = state.history ∧ after.passed = state.passed := by
  have reaches := coherent.reaches alive own
  have delivers : state.deliver packet now taken =
      { state with
        delivered := state.delivered ++ [packet]
        tap := (state.tap.claim packet).1
        claimed := state.claimed ++ [packet] } := by
    have none := reaches.taken
    unfold Traffic.deliver
    simp only
    split
    next tap claims => rw [claims]
    next tap given claims =>
      rw [claims] at none
      cases none
  intro after
  have same : after = _ := delivers
  rw [same]
  exact ⟨reaches.delivered, reaches.others, rfl, rfl⟩

/-! ### Whole runs -/

structure Sound (allowedPorts : Option (List UInt16)) (state : Traffic) : Prop where
  recorded : Recorded allowedPorts state
  accounted : Accounted 0 state
  coherent : MeshHttp.Coherent state.tap

theorem sound_of_run {tap : Tap} (coherent : MeshHttp.Coherent tap) {acts : List Act}
    (run : Run (step meshPrefix dnsAddr forwarder) anyStep (Traffic.started allowedPorts tap)
      acts state) : Sound allowedPorts state :=
  run.invariant ⟨.started tap, .started tap, coherent⟩ fun _ _ _ sound _ stepTo =>
    ⟨sound.recorded.step stepTo, sound.accounted.step stepTo, coherent_step sound.coherent stepTo⟩

/-- In every interleaving of the reader, the bridge and the flows of the node
itself: what the bridge passed to the TUN was justified, when the firewall was asked,
by the packets that the node had let into the mesh by then; a reply to one of the
node's own flows goes down its channel only; every packet of the node is accounted
for, and one that was not sent has ended the bridge; and the drop log has one line for
each denied port until it is full. -/
theorem mesh_traffic_is_solicited {ports : List UInt16} {tap : Tap}
    (coherent : MeshHttp.Coherent tap) {acts : List Act}
    (run : Run (step meshPrefix dnsAddr forwarder) anyStep (Traffic.started (some ports) tap)
      acts state) :
    (∀ now packet, (now, packet) ∈ state.passed → ∃ before after,
      state.history = before ++ Call.allowInbound now packet :: after ∧
        before.filterMap Call.noted <+: state.forwarded ∧ Justified ports before now packet) ∧
    (∀ guard ∈ state.tap.guards, ∀ packet, MeshHttp.flowKey packet = some guard.key →
      ∀ now taken, (state.deliver packet now taken).tap.sent guard.tx =
          state.tap.sent guard.tx ++ [packet] ∧
        (∀ tx ≠ guard.tx, (state.deliver packet now taken).tap.sent tx = state.tap.sent tx) ∧
        (state.deliver packet now taken).history = state.history ∧
        (state.deliver packet now taken).passed = state.passed) ∧
    (state.delivered.length = state.claimed.length + state.denied.length + state.passed.length +
        state.unsent.length ∧ state.unsent.length ≤ 1 ∧
      (state.unsent ≠ [] → state.bridging = false)) ∧
    (state.lines.map Line.port).Nodup ∧ state.lines.length ≤ maxLogged ∧
    (∀ line ∈ state.lines, ∃ packet ∈ state.denied, describe packet = line) ∧
    ∀ packet ∈ state.denied, (describe packet).port ∈ state.lines.map Line.port ∨
      state.lines.length = maxLogged := by
  have sound := sound_of_run coherent run
  have accounts := sound.accounted
  have length : state.lines.length = state.loggedPorts.length := by
    rw [← List.length_map, accounts.ports, List.length_reverse]
  have ended : state.unsent ≠ [] → state.bridging = false := by
    intro unsent
    rw [Bool.eq_false_iff]
    exact fun bridging => unsent (accounts.going bridging)
  refine ⟨?_, ?_, ⟨accounts.delivered, accounts.unsent, ended⟩, ?_, ?_, accounts.lines, ?_⟩
  · intro now packet member
    obtain ⟨before, after, history, justified⟩ :=
      sound.recorded.passed ports rfl now packet member
    refine ⟨before, after, history, ?_, justified⟩
    rw [← sound.recorded.noted rfl, history, List.filterMap_append]
    exact List.prefix_append _ _
  · intro guard alive packet own now taken
    exact deliver_claimed sound.coherent alive own now taken
  · rw [accounts.ports]
    exact List.nodup_reverse.mpr accounts.once
  · rw [length]
    exact accounts.short
  · intro packet member
    rw [accounts.ports, length, List.mem_reverse]
    exact accounts.logged packet member

/-! ### A page that is loaded, and a scan -/

def resolverAddr : FixedBytes 16 := ⟨0xfd :: List.replicate 14 0 ++ [0x36], rfl⟩

def webRequest : Bytes := Filter.pkt Filter.protoTcp (Filter.addr 1) 40000 (Filter.addr 2) 80

def webReply : Bytes := Filter.pkt Filter.protoTcp (Filter.addr 2) 80 (Filter.addr 1) 40000

def scan : Bytes := Filter.pkt Filter.protoTcp (Filter.addr 3) 50000 (Filter.addr 1) 22

private def pageAndScan : List Act :=
  [.read webRequest (.forward webRequest) .asKept 0 true, .deliver scan 1 true,
    .deliver webReply 2 true, .deliver scan 3 true]

/-- The page is passed, both scans are denied, and one of them is logged. -/
theorem scan_is_denied : ∃ state,
    Run (step 0xfd resolverAddr false) anyStep (Traffic.started (some []) MeshHttp.initial)
      pageAndScan state ∧
    state.passed = [(2, webReply)] ∧ state.denied = [scan, scan] ∧
    (state.lines.map Line.port = [22] ∧ state.lines.length ≤ maxLogged) ∧
    ∃ before after, state.history = before ++ Call.allowInbound 2 webReply :: after ∧
      before.filterMap Call.noted <+: state.forwarded ∧ Justified [] before 2 webReply := by
  obtain ⟨state, run, passed, denied, lines⟩ : ∃ state,
      Run (step 0xfd resolverAddr false) anyStep (Traffic.started (some []) MeshHttp.initial)
        pageAndScan state ∧
      state.passed = [(2, webReply)] ∧ state.denied = [scan, scan] ∧
      state.lines.map Line.port = [22] :=
    exists_run_of_execute _ (by decide +kernel)
  obtain ⟨solicited, -, -, -, short, -⟩ :=
    mesh_traffic_is_solicited MeshHttp.Coherent.initial run
  refine ⟨state, run, passed, denied, ⟨lines, short⟩, solicited 2 webReply ?_⟩
  rw [passed]
  exact List.mem_singleton_self _

end Fips2Go.PumpTraffic
