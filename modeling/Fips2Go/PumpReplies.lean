import Fips2Go.PumpFirewall

/-!
# Replies to what an app has sent

A packet that the node let into the mesh opens the firewall for its replies: until
the flow has been idle for too long, each reply is passed to the TUN, whatever
happens in between, unless the table of flows is full of live ones when another flow
is opened.
-/

namespace Fips2Go.PumpTraffic

open GuardedRuns
open Fips2Go.Filter
open MeshHttp (Tap)
open Pump (Way way)

/-! ### A flow that stays in the table -/

/-- The clock stays in an interval, and no call opens another flow where every place
of the table is taken by a live one. -/
def Undisturbed (filter : InboundFilter) (first last : Nat) (calls : List Call) : Prop :=
  ∀ before call after, calls = before ++ call :: after →
    first ≤ call.now ∧ call.now ≤ last ∧
      ¬ ((call.opened (filter.after before).flows).isSome = true ∧
        FullOfLive (filter.after before).flows call.now)

theorem Undisturbed.tail {filter : InboundFilter} {first last : Nat} {call : Call}
    {calls : List Call} (undisturbed : Undisturbed filter first last (call :: calls)) :
    Undisturbed (filter.step call) first last calls := by
  intro before next after parts
  exact undisturbed (call :: before) next after (by rw [parts]; rfl)

theorem size_step_le_succ {filter : InboundFilter} (bounded : filter.flows.size ≤ maxFlows)
    (call : Call) : (filter.step call).flows.size ≤ filter.flows.size + 1 := by
  cases call with
  | noteOutbound order now packet =>
      simp only [InboundFilter.step]
      rcases filter.flows_noteOutbound_cases order now packet with
        ⟨-, equal⟩ | ⟨key, -, ⟨-, equal⟩ | ⟨-, -, equal⟩ | ⟨-, full, equal⟩⟩
      · exact equal ▸ Nat.le_succ _
      · exact equal ▸ filter.flows.size_insert_le key now
      · exact equal ▸ filter.flows.size_insert_le key now
      · have room := InboundFilter.size_makeRoom_lt bounded order now
        have inserted :=
          FiniteTable.size_insert_le (InboundFilter.makeRoom filter.flows order now) key now
        rw [equal]
        omega
  | allowInbound now packet =>
      simp only [InboundFilter.step]
      rcases filter.flows_allowInbound_cases now packet with
        equal | ⟨key, seen, -, equal | ⟨-, equal⟩⟩
      · exact equal ▸ Nat.le_succ _
      · exact equal ▸ filter.flows.size_insert_le key now
      · exact equal ▸ (FiniteTable.size_retain_le _ _).trans (Nat.le_succ _)

/-- A few calls cannot fill the table. -/
theorem Undisturbed.of_few {filter : InboundFilter} {first last : Nat} {calls : List Call}
    (timely : ∀ call ∈ calls, first ≤ call.now ∧ call.now ≤ last)
    (few : filter.flows.size + calls.length ≤ maxFlows) :
    Undisturbed filter first last calls := by
  have small : ∀ before after, calls = before ++ after →
      (filter.after before).flows.size + after.length ≤ maxFlows := by
    intro before
    induction before generalizing filter calls with
    | nil =>
        rintro after rfl
        exact few
    | cons call before ih =>
        rintro after rfl
        have grown := size_step_le_succ (Nat.le_of_add_right_le few) call
        have rest (later : Call) (member : later ∈ before ++ after) :
            first ≤ later.now ∧ later.now ≤ last := timely later (List.mem_cons_of_mem _ member)
        refine ih rest ?_ after rfl
        rw [List.cons_append, List.length_cons] at few
        omega
  intro before call after parts
  obtain ⟨notBefore, notAfter⟩ := timely call (by simp [parts])
  refine ⟨notBefore, notAfter, fun disturbed => ?_⟩
  have room := small before (call :: after) parts
  have full := disturbed.2.1
  rw [List.length_cons] at room
  omega

/-- The flow is in the table, last seen not before a time. -/
def Holds (filter : InboundFilter) (key : FlowKey) (first : Nat) : Prop :=
  ∃ seen, first ≤ seen ∧ filter.flows.get? key = some seen

theorem idleLimit_pos (proto : UInt8) : 0 < idleLimit proto := by
  unfold idleLimit
  split <;> decide

theorem unexpired_of_lt {key : FlowKey} {first seen now : Nat} (later : first ≤ seen)
    (soon : now < first + idleLimit key.proto) : unexpired now key seen = true := by
  have positive := idleLimit_pos key.proto
  unfold unexpired
  exact decide_eq_true (by omega)

theorem Holds.step {filter : InboundFilter} (bounded : filter.flows.size ≤ maxFlows)
    {key : FlowKey} (unlisted : key.localPort ∉ filter.allowedPorts) {first : Nat}
    (holds : Holds filter key first) {call : Call} (notBefore : first ≤ call.now)
    (soon : call.now < first + idleLimit key.proto)
    (room : ¬ ((call.opened filter.flows).isSome = true ∧ FullOfLive filter.flows call.now)) :
    Holds (filter.step call) key first := by
  obtain ⟨seen, later, stored⟩ := holds
  have kept : (filter.step call).flows.contains key = true := by
    by_contra left
    exact room (InboundFilter.fullOfLive_of_leaves bounded stored (unexpired_of_lt later soon)
      (by simpa using left))
  obtain ⟨seenNow, storedNow⟩ := (FiniteTable.contains_iff _ key).mp kept
  refine ⟨seenNow, ?_, storedNow⟩
  rcases InboundFilter.get?_step unlisted storedNow with ⟨-, same, -⟩ | ⟨-, before⟩
  · rw [same]
    exact notBefore
  · rw [stored, Option.some.injEq] at before
    rw [← before]
    exact later

/-- A flow outlasts the calls of its idle time. -/
theorem Holds.after {filter : InboundFilter} (bounded : filter.flows.size ≤ maxFlows)
    {key : FlowKey} (unlisted : key.localPort ∉ filter.allowedPorts) {first last : Nat}
    (soon : last < first + idleLimit key.proto) {calls : List Call}
    (undisturbed : Undisturbed filter first last calls) (holds : Holds filter key first) :
    Holds (filter.after calls) key first := by
  induction calls generalizing filter with
  | nil => exact holds
  | cons call calls ih =>
      obtain ⟨notBefore, notAfter, room⟩ := undisturbed [] call calls rfl
      refine ih (InboundFilter.size_step_le bounded call) ?_ undisturbed.tail ?_
      · rw [InboundFilter.allowedPorts_step]
        exact unlisted
      · exact holds.step bounded unlisted notBefore (notAfter.trans_lt soon) room

/-- What was noted is held. -/
theorem holds_noteOutbound {filter : InboundFilter}
    (order : FiniteTable.IterationOrder FlowKey Nat) (now : Nat) {packet : Bytes} {key : FlowKey}
    (tracked : outboundKey packet = some key) :
    Holds (filter.noteOutbound order now packet) key now := by
  refine ⟨now, Nat.le_refl _, ?_⟩
  rw [InboundFilter.flows_noteOutbound_of_key tracked, FiniteTable.get?_insert_self]

/-- A packet of a flow that is held is admitted. -/
theorem Holds.admits {filter : InboundFilter} {key : FlowKey} {first now : Nat}
    (holds : Holds filter key first) (soon : now < first + idleLimit key.proto) {reply : Bytes}
    (tracked : replyKey reply = some key) (unlisted : key.localPort ∉ filter.allowedPorts) :
    (filter.allowInbound now reply).1 = true := by
  obtain ⟨seen, later, stored⟩ := holds
  rw [InboundFilter.allowInbound_of_key tracked unlisted, stored]
  simp [unexpired_of_lt later soon]

/-! ### The pump -/

variable {meshPrefix : UInt8} {dnsAddr : FixedBytes 16} {forwarder : Bool} {ports : List UInt16}
  {state next : Traffic}

/-- The history only grows. -/
theorem history_step {act : Act}
    (stepTo : step meshPrefix dnsAddr forwarder state act = some next) :
    state.history <+: next.history := by
  have letThrough : ∀ (given : Traffic) (packet : Bytes) (now : Nat) (taken : Bool),
      given.history <+: (given.letThrough packet now taken).history := by
    intro given packet now taken
    unfold Traffic.letThrough Traffic.pass Traffic.deny
    split
    · split <;> exact List.prefix_rfl
    · simp only
      split_ifs <;> exact List.prefix_append _ _
  cases act with
  | read packet processed order now taken =>
      obtain ⟨-, ⟨⟩⟩ := Option.ite_none_right_eq_some.mp stepTo
      unfold Traffic.readPacket Traffic.route Traffic.writeBack Traffic.noteOutbound
      split
      · exact List.prefix_rfl
      · split_ifs <;> exact List.prefix_rfl
      · cases processed <;> simp only
        · split
          · exact List.prefix_rfl
          · exact List.prefix_append _ _
        · split <;> exact List.prefix_rfl
        · split <;> exact List.prefix_rfl
        · exact List.prefix_rfl
  | deliver packet now taken =>
      obtain ⟨-, ⟨⟩⟩ := Option.ite_none_right_eq_some.mp stepTo
      unfold Traffic.deliver
      simp only
      split
      · exact List.prefix_rfl
      next tap given _ =>
        exact letThrough { state with delivered := state.delivered ++ [packet], tap }
          given now taken
  | stopReading =>
      cases stepTo
      exact List.prefix_rfl
  | stopBridging =>
      cases stepTo
      exact List.prefix_rfl
  | flows op =>
      simp only [PumpTraffic.step] at stepTo
      split at stepTo
      · cases stepTo
        exact List.prefix_rfl
      · cases stepTo

theorem history_run {final : Traffic} {acts : List Act}
    (run : Run (step meshPrefix dnsAddr forwarder) anyStep state acts final) :
    state.history <+: final.history := by
  induction run with
  | nil => exact List.prefix_rfl
  | snoc run allowed stepTo ih => exact ih.trans (history_step stepTo)

/-- The step that lets a packet into the mesh has the firewall hold its flow. -/
theorem filter_forward (recorded : Recorded (some ports) state) {packet sent : Bytes}
    (mesh : way meshPrefix dnsAddr packet = .mesh)
    {order : FiniteTable.IterationOrder FlowKey Nat} {now : Nat} {taken : Bool}
    (stepTo : step meshPrefix dnsAddr forwarder state
      (.read packet (.forward sent) order now taken) = some next) :
    next.history = state.history ++ [Call.noteOutbound order now sent] := by
  obtain ⟨-, ⟨⟩⟩ := Option.ite_none_right_eq_some.mp stepTo
  have on : state.filter = some ((InboundFilter.new ports).after state.history) :=
    recorded.filter
  simp only [Traffic.readPacket, mesh, Traffic.route, Traffic.noteOutbound, on]

/-- A packet that belongs to no flow of the node itself, and that the firewall admits,
is passed. -/
theorem deliver_admitted (sound : Sound (some ports) state)
    (bridging : state.bridging = true) {reply : Bytes}
    (foreign : ∀ guard ∈ state.tap.guards, MeshHttp.flowKey reply ≠ some guard.key) {now : Nat}
    (admitted : (((InboundFilter.new ports).after state.history).allowInbound now reply).1 =
      true) :
    ∃ next, step meshPrefix dnsAddr forwarder state (.deliver reply now true) = some next ∧
      next.passed = state.passed ++ [(now, reply)] := by
  refine ⟨state.deliver reply now true, if_pos bridging, ?_⟩
  have on : state.filter = some ((InboundFilter.new ports).after state.history) :=
    sound.recorded.filter
  simp only [Traffic.deliver, sound.coherent.givenBack reply foreign, Traffic.letThrough, on,
    admitted, if_true, Traffic.pass]

/-- Once the node has let a packet into the mesh, each reply to it is passed to the TUN
as long as the flow's idle time has not gone by, whatever the reader, the bridge and
the flows of the node itself do in between: unless another flow was opened where the
table was full of live ones, or the reply belongs to a flow of the node itself. -/
theorem replies_are_passed {tap : Tap} (coherent : MeshHttp.Coherent tap) {acts : List Act}
    (run : Run (step meshPrefix dnsAddr forwarder) anyStep (Traffic.started (some ports) tap)
      acts state)
    {packet sent : Bytes} (mesh : way meshPrefix dnsAddr packet = .mesh)
    {order : FiniteTable.IterationOrder FlowKey Nat} {first : Nat} {taken : Bool}
    (forwards : step meshPrefix dnsAddr forwarder state
      (.read packet (.forward sent) order first taken) = some next)
    {later : List Act} {final : Traffic}
    (continues : Run (step meshPrefix dnsAddr forwarder) anyStep next later final)
    {reply : Bytes} (answers : ReverseOf sent reply) {last : Nat}
    (soon : last < first + idleLimit (nextHeader reply))
    (undisturbed : Undisturbed ((InboundFilter.new ports).after next.history) first last
      (final.history.drop next.history.length))
    (bridging : final.bridging = true)
    (foreign : ∀ guard ∈ final.tap.guards, MeshHttp.flowKey reply ≠ some guard.key) :
    ∃ passed, step meshPrefix dnsAddr forwarder final (.deliver reply last true) = some passed ∧
      passed.passed = final.passed ++ [(last, reply)] := by
  have sound := sound_of_run coherent run
  have whole := (run.snoc trivial forwards).append continues
  obtain ⟨key, sentKey, tracked⟩ := reverseOf_iff.mp answers
  obtain ⟨calls, grown⟩ := history_run continues
  have dropped : final.history.drop next.history.length = calls := by
    rw [← grown, List.drop_left]
  rw [dropped] at undisturbed
  refine deliver_admitted (sound_of_run coherent whole) bridging foreign ?_
  rw [← grown, InboundFilter.after_append]
  by_cases listed : key.localPort ∈ ports
  · rw [InboundFilter.allowInbound_listed tracked]
    rw [InboundFilter.allowedPorts_after, InboundFilter.allowedPorts_after]
    exact (InboundFilter.mem_allowedPorts_new ports _).mpr listed
  · have unlisted : key.localPort ∉
        ((InboundFilter.new ports).after next.history).allowedPorts := by
      rw [InboundFilter.allowedPorts_after, InboundFilter.mem_allowedPorts_new]
      exact listed
    have proto : key.proto = nextHeader reply := by
      rw [replyKey_of_carriesPorts answers.replyPorts, Option.some.injEq] at tracked
      rw [← tracked]
    have limit : last < first + idleLimit key.proto := by
      rw [proto]
      exact soon
    have bounded := InboundFilter.size_after_le
      (show (InboundFilter.new ports).flows.size ≤ maxFlows from Nat.zero_le _)
    have held : Holds ((InboundFilter.new ports).after next.history) key first := by
      rw [filter_forward sound.recorded mesh forwards, InboundFilter.after_append]
      exact holds_noteOutbound order first sentKey
    refine (held.after (bounded next.history) unlisted limit undisturbed).admits limit tracked ?_
    rw [InboundFilter.allowedPorts_after]
    exact unlisted

/-- A second page, to the same node. -/
private def pageRequest : Bytes := pkt protoTcp (addr 1) 40001 (addr 2) 443

/-- A flow of the node itself is opened, another page is asked for, and a scan comes. -/
private def meanwhile : List Act :=
  [.flows (.open ⟨addr 4, rfl⟩ 80 0),
    .read pageRequest (.forward pageRequest) .asKept (seconds 60) true,
    .deliver scan (seconds 120) true]

/-- After a scan and the request. -/
private def noted : Traffic :=
  ((Traffic.started (some []) MeshHttp.initial).deliver scan 0 true).readPacket 0xfd resolverAddr
    false webRequest (.forward webRequest) .asKept 1 true

/-- A reply nine minutes later, between scans. -/
theorem late_reply_is_passed : ∃ state next final passed,
    Run (step 0xfd resolverAddr false) anyStep (Traffic.started (some []) MeshHttp.initial)
      [.deliver scan 0 true] state ∧
    step 0xfd resolverAddr false state
      (.read webRequest (.forward webRequest) .asKept 1 true) = some next ∧
    Run (step 0xfd resolverAddr false) anyStep next meanwhile final ∧
    (final.tap.guards.length = 1 ∧ final.denied = [scan, scan] ∧ final.history.length = 4) ∧
    step 0xfd resolverAddr false final (.deliver webReply (seconds 540) true) = some passed ∧
    passed.passed = [(seconds 540, webReply)] := by
  have answers : ReverseOf webRequest webReply :=
    reverseOf_iff.mpr ⟨⟨protoTcp, 40000, ⟨addr 2, rfl⟩, 80⟩, by decide +kernel, by decide +kernel⟩
  have soon : seconds 540 < 1 + idleLimit (nextHeader webReply) := by decide
  obtain ⟨state, run, reads⟩ : ∃ state,
      Run (step 0xfd resolverAddr false) anyStep (Traffic.started (some []) MeshHttp.initial)
        [.deliver scan 0 true] state ∧
      step 0xfd resolverAddr false state
        (.read webRequest (.forward webRequest) .asKept 1 true) = some noted :=
    ⟨_, .snoc .nil trivial rfl, rfl⟩
  obtain ⟨final, continues, shown, quiet, timely, few, bridging, foreign⟩ : ∃ final,
      Run (step 0xfd resolverAddr false) anyStep noted meanwhile final ∧
      (final.tap.guards.length = 1 ∧ final.denied = [scan, scan] ∧ final.history.length = 4) ∧
      final.passed = [] ∧
      (∀ call ∈ final.history.drop noted.history.length,
        1 ≤ call.now ∧ call.now ≤ seconds 540) ∧
      ((InboundFilter.new []).after noted.history).flows.size +
        (final.history.drop noted.history.length).length ≤ maxFlows ∧
      final.bridging = true ∧
      ∀ guard ∈ final.tap.guards, MeshHttp.flowKey webReply ≠ some guard.key :=
    exists_run_of_execute _ (by decide +kernel)
  obtain ⟨passed, delivers, goes⟩ := replies_are_passed MeshHttp.Coherent.initial run
    (by decide +kernel) reads continues answers soon (.of_few timely few) bridging foreign
  refine ⟨state, noted, final, passed, run, reads, continues, shown, delivers, goes.trans ?_⟩
  rw [quiet]
  rfl

end Fips2Go.PumpTraffic
