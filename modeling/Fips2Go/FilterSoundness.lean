import Fips2Go.FilterHeaders
import Mathlib.Data.List.Chain

/-!
# What the firewall admits

An inbound packet is admitted only if it is ICMPv6, goes to an allowlisted
port, or answers an earlier outbound packet through an unbroken chain of
traffic of the same flow.  The proof carries one invariant along the whole
history: every entry of the flow table is the end of such a chain.
-/

namespace Fips2Go.Filter

namespace InboundFilter

/-- Whether a call is traffic of the flow: an outbound packet of it, or an
inbound packet of it that the filter admits. -/
def isFlowEvent (filter : InboundFilter) (key : FlowKey) : Call → Bool
  | .noteOutbound _ _ packet => decide (outboundKey packet = some key)
  | .allowInbound now packet =>
      (filter.allowInbound now packet).1 && decide (replyKey packet = some key)

/-- Clock readings of the flow's traffic along a sequence of calls. -/
def flowTimes (filter : InboundFilter) (key : FlowKey) : List Call → List Nat
  | [] => []
  | call :: calls =>
      if filter.isFlowEvent key call then
        call.now :: (filter.step call).flowTimes key calls
      else (filter.step call).flowTimes key calls

theorem flowTimes_append (filter : InboundFilter) (key : FlowKey)
    (first second : List Call) :
    filter.flowTimes key (first ++ second) =
      filter.flowTimes key first ++ (filter.after first).flowTimes key second := by
  induction first generalizing filter with
  | nil => rfl
  | cons call calls ih =>
      simp only [List.cons_append, flowTimes, after_cons, ih]
      split <;> rfl

theorem get?_makeRoom {flows : FlowTable} {order : FiniteTable.IterationOrder FlowKey Nat}
    {now : Nat} {key : FlowKey} {seen : Nat}
    (stored : (makeRoom flows order now).get? key = some seen) :
    flows.get? key = some seen := by
  have live_sub (live : (flows.retain (unexpired now)).get? key = some seen) :
      flows.get? key = some seen :=
    ((flows.get?_retain_eq_some_iff _ _ _).mp live).1
  unfold makeRoom at stored
  dsimp only at stored
  split at stored
  · split at stored
    · exact live_sub ((FiniteTable.get?_retain_eq_some_iff _ _ _ _).mp stored).1
    · exact live_sub stored
  · exact live_sub stored

theorem flows_noteOutbound_of_key {filter : InboundFilter}
    {order : FiniteTable.IterationOrder FlowKey Nat} {now : Nat}
    {packet : Bytes} {key : FlowKey} (tracked : outboundKey packet = some key) :
    (filter.noteOutbound order now packet).flows =
      (if maxFlows ≤ filter.flows.size ∧ ¬ filter.flows.contains key then
        makeRoom filter.flows order now else filter.flows).insert key now := by
  simp only [noteOutbound, tracked]

theorem noteOutbound_untracked {filter : InboundFilter}
    {order : FiniteTable.IterationOrder FlowKey Nat} {now : Nat}
    {packet : Bytes} (untracked : outboundKey packet = none) :
    filter.noteOutbound order now packet = filter := by
  simp only [noteOutbound, untracked]

/-- The verdict on a packet of a flow whose local port is not allowlisted is
the flow table's. -/
theorem allowInbound_of_key {filter : InboundFilter} {now : Nat}
    {packet : Bytes} {key : FlowKey} (tracked : replyKey packet = some key)
    (unlisted : key.localPort ∉ filter.allowedPorts) :
    filter.allowInbound now packet =
      match filter.flows.get? key with
      | some seen =>
          if unexpired now key seen then
            (true, { filter with flows := filter.flows.insert key now })
          else (false, { filter with flows := filter.flows.remove key })
      | none => (false, filter) := by
  obtain ⟨p, parsed, notIcmpv6, rfl⟩ := parse_of_replyKey tracked
  have notFound : ¬ (SortedSearch.binarySearch filter.allowedPorts p.dstPort).isSome := by
    intro found
    exact unlisted ((filter.search_allowedPorts _).mp found)
  unfold allowInbound
  cases stored : filter.flows.get? (inboundKey p) with
  | none => simp only [parsed, if_neg notIcmpv6, if_neg notFound, stored]
  | some seen => simp only [parsed, if_neg notIcmpv6, if_neg notFound, stored]

/-- A packet outside every flow leaves the table alone. -/
theorem flows_allowInbound_untracked {filter : InboundFilter} {now : Nat}
    {packet : Bytes} (untracked : replyKey packet = none) :
    (filter.allowInbound now packet).2 = filter := by
  unfold replyKey at untracked
  unfold allowInbound
  cases parsed : parse packet with
  | none => rfl
  | some p =>
      simp only [parsed] at untracked
      split at untracked
      next icmpv6 => simp [icmpv6]
      · simp at untracked

/-- An allowlisted packet passes without touching the table. -/
theorem allowInbound_listed {filter : InboundFilter} {now : Nat}
    {packet : Bytes} {key : FlowKey} (tracked : replyKey packet = some key)
    (listed : key.localPort ∈ filter.allowedPorts) :
    filter.allowInbound now packet = (true, filter) := by
  obtain ⟨p, parsed, notIcmpv6, rfl⟩ := parse_of_replyKey tracked
  have found : (SortedSearch.binarySearch filter.allowedPorts p.dstPort).isSome :=
    (filter.search_allowedPorts _).mpr listed
  unfold allowInbound
  simp only [parsed, if_neg notIcmpv6, if_pos found]

/-- Where an entry of the table after a call comes from: traffic of its own
flow at that very moment, or the same entry before the call. -/
theorem get?_step {filter : InboundFilter} {call : Call} {key : FlowKey} {seen : Nat}
    (unlisted : key.localPort ∉ filter.allowedPorts)
    (stored : (filter.step call).flows.get? key = some seen) :
    (filter.isFlowEvent key call = true ∧ seen = call.now ∧
        (call.isInbound = true → ∃ earlier, filter.flows.get? key = some earlier ∧
          unexpired call.now key earlier = true)) ∨
      (filter.isFlowEvent key call = false ∧ filter.flows.get? key = some seen) := by
  cases call with
  | noteOutbound order now packet =>
      simp only [step] at stored
      cases tracked : outboundKey packet with
      | none =>
          rw [noteOutbound_untracked tracked] at stored
          right
          exact ⟨by simp [isFlowEvent, tracked], stored⟩
      | some other =>
          rw [flows_noteOutbound_of_key tracked] at stored
          by_cases same : key = other
          · subst same
            left
            rw [FiniteTable.get?_insert_self, Option.some.injEq] at stored
            refine ⟨by simp [isFlowEvent, tracked], stored.symm, ?_⟩
            intro inbound
            simp [Call.isInbound] at inbound
          · right
            rw [FiniteTable.get?_insert_of_ne _ same] at stored
            refine ⟨by simp [isFlowEvent, tracked, Ne.symm same], ?_⟩
            split at stored
            · exact get?_makeRoom stored
            · exact stored
  | allowInbound now packet =>
      simp only [step] at stored
      cases tracked : replyKey packet with
      | none =>
          rw [flows_allowInbound_untracked tracked] at stored
          right
          exact ⟨by simp [isFlowEvent, tracked], stored⟩
      | some other =>
          by_cases listed : other.localPort ∈ filter.allowedPorts
          · rw [allowInbound_listed tracked listed] at stored
            have different : other ≠ key := fun same => unlisted (same ▸ listed)
            right
            exact ⟨by simp [isFlowEvent, tracked, different], stored⟩
          · rw [allowInbound_of_key tracked listed] at stored
            by_cases same : key = other
            · subst same
              cases found : filter.flows.get? key with
              | none => simp [found] at stored
              | some earlier =>
                  by_cases live : unexpired now key earlier = true
                  · left
                    simp only [found, if_pos live, FiniteTable.get?_insert_self,
                      Option.some.injEq] at stored
                    refine ⟨?_, stored.symm, fun _ => ⟨earlier, rfl, live⟩⟩
                    simp [isFlowEvent, allowInbound_of_key tracked listed, found, live,
                      tracked]
                  · simp [found, live] at stored
            · right
              refine ⟨by simp [isFlowEvent, tracked, Ne.symm same], ?_⟩
              split at stored
              · split at stored
                · rwa [FiniteTable.get?_insert_of_ne _ same] at stored
                · rwa [FiniteTable.get?_remove_of_ne _ same] at stored
              · exact stored

end InboundFilter

/-- Two consecutive readings of a flow lie closer than its idle limit. -/
def WithinIdle (key : FlowKey) (earlier later : Nat) : Prop :=
  later < earlier + idleLimit key.proto

theorem withinIdle_of_unexpired {now : Nat} {key : FlowKey} {seen : Nat}
    (live : unexpired now key seen = true) : WithinIdle key seen now := by
  have below : now - seen < idleLimit key.proto := of_decide_eq_true live
  unfold WithinIdle
  omega

/-- An outbound packet of the flow, and since then an unbroken chain of the
flow's traffic, the last of it at `last`. -/
def Linked (ports : List UInt16) (history : List Call) (key : FlowKey)
    (last : Nat) : Prop :=
  ∃ before order sent packet between,
    history = before ++ .noteOutbound order sent packet :: between ∧
    outboundKey packet = some key ∧
    ∃ linked : List Nat,
      linked = sent :: ((InboundFilter.new ports).after
        (before ++ [.noteOutbound order sent packet])).flowTimes key between ∧
      linked.IsChain (WithinIdle key) ∧ linked.getLast? = some last

theorem InboundFilter.after_between (filter : InboundFilter) (before between : List Call)
    (call : Call) :
    (filter.after (before ++ [call])).after between =
      filter.after (before ++ call :: between) := by
  rw [← InboundFilter.after_append]
  simp

theorem Linked.snoc {ports : List UInt16} {history : List Call} {key : FlowKey}
    {last : Nat} (linked : Linked ports history key last) (call : Call)
    (event : ((InboundFilter.new ports).after history).isFlowEvent key call = true)
    (live : WithinIdle key last call.now) :
    Linked ports (history ++ [call]) key call.now := by
  obtain ⟨before, order, sent, packet, between, rfl, tracked, times, timesEq, chain,
    lastEq⟩ := linked
  refine ⟨before, order, sent, packet, between ++ [call], by simp, tracked,
    times ++ [call.now], ?_, ?_, by simp⟩
  · rw [InboundFilter.flowTimes_append, InboundFilter.after_between]
    simp [InboundFilter.flowTimes, event, timesEq]
  · refine List.IsChain.append chain (List.isChain_singleton _) ?_
    intro earlier earlierLast later laterHead
    simp only [lastEq, Option.mem_def, Option.some.injEq] at earlierLast
    simp only [List.head?_cons, Option.mem_def, Option.some.injEq] at laterHead
    rw [← earlierLast, ← laterHead]
    exact live

theorem Linked.skip {ports : List UInt16} {history : List Call} {key : FlowKey}
    {last : Nat} (linked : Linked ports history key last) (call : Call)
    (other : ((InboundFilter.new ports).after history).isFlowEvent key call = false) :
    Linked ports (history ++ [call]) key last := by
  obtain ⟨before, order, sent, packet, between, rfl, tracked, times, timesEq, chain,
    lastEq⟩ := linked
  refine ⟨before, order, sent, packet, between ++ [call], by simp, tracked,
    times, ?_, chain, lastEq⟩
  rw [InboundFilter.flowTimes_append, InboundFilter.after_between]
  simp [InboundFilter.flowTimes, other, timesEq]

theorem Linked.ofOutbound {ports : List UInt16} (history : List Call) {key : FlowKey}
    {order : FiniteTable.IterationOrder FlowKey Nat} {now : Nat} {packet : Bytes}
    (tracked : outboundKey packet = some key) :
    Linked ports (history ++ [.noteOutbound order now packet]) key now :=
  ⟨history, order, now, packet, [], rfl, tracked, [now], rfl,
    List.isChain_singleton _, rfl⟩

/-- Every entry of the flow table ends an unbroken chain of its own flow's
traffic. -/
theorem linked_of_stored (ports : List UInt16) (history : List Call) {key : FlowKey}
    {seen : Nat} (unlisted : key.localPort ∉ ports)
    (stored : ((InboundFilter.new ports).after history).flows.get? key = some seen) :
    Linked ports history key seen := by
  induction history using List.reverseRecOn generalizing seen with
  | nil => simp at stored
  | append_singleton history call ih =>
      rw [InboundFilter.after_append] at stored
      have unlistedNow : key.localPort ∉
          ((InboundFilter.new ports).after history).allowedPorts := by
        rw [InboundFilter.allowedPorts_after, InboundFilter.mem_allowedPorts_new]
        exact unlisted
      rcases InboundFilter.get?_step unlistedNow stored with
        ⟨event, seenNow, refreshed⟩ | ⟨other, kept⟩
      · subst seenNow
        cases call with
        | noteOutbound order now packet =>
            apply Linked.ofOutbound
            simpa [InboundFilter.isFlowEvent] using event
        | allowInbound now packet =>
            obtain ⟨earlier, found, live⟩ := refreshed rfl
            exact (ih found).snoc _ event (withinIdle_of_unexpired live)
      · exact (ih kept).skip call other

/-- What an admitted packet must look like. -/
def Justified (ports : List UInt16) (history : List Call) (now : Nat)
    (reply : Bytes) : Prop :=
  (IsIpv6 reply ∧ nextHeader reply = protoIcmpv6) ∨
    CarriesPorts reply ∧
      (dstPortOf reply ∈ ports ∨
        ∃ before order sent packet between key,
          history = before ++ .noteOutbound order sent packet :: between ∧
          ReverseOf packet reply ∧ replyKey reply = some key ∧
          (sent :: ((InboundFilter.new ports).after
              (before ++ [.noteOutbound order sent packet])).flowTimes key between ++
            [now]).IsChain (WithinIdle key))

theorem justified_of_admitted (ports : List UInt16) (history : List Call) (now : Nat)
    (reply : Bytes)
    (admitted : (((InboundFilter.new ports).after history).allowInbound now reply).1 = true) :
    Justified ports history now reply := by
  cases tracked : replyKey reply with
  | none =>
      left
      unfold replyKey at tracked
      unfold InboundFilter.allowInbound at admitted
      cases parsed : parse reply with
      | none => simp [parsed] at admitted
      | some p =>
          rcases parse_cases parsed with icmpv6 | ports
          · exact icmpv6
          · have notIcmpv6 := nextHeader_ne_icmpv6 ports
            rw [parse_ports ports] at tracked
            simp [notIcmpv6] at tracked
  | some key =>
      right
      have carries := carriesPorts_of_replyKey tracked
      refine ⟨carries, ?_⟩
      have portEq : key.localPort = dstPortOf reply := by
        rw [replyKey_of_carriesPorts carries, Option.some.injEq] at tracked
        rw [← tracked]
      by_cases listed : dstPortOf reply ∈ ports
      · exact Or.inl listed
      right
      have unlisted : key.localPort ∉ ports := portEq ▸ listed
      have unlistedNow : key.localPort ∉
          ((InboundFilter.new ports).after history).allowedPorts := by
        rw [InboundFilter.allowedPorts_after, InboundFilter.mem_allowedPorts_new]
        exact unlisted
      rw [InboundFilter.allowInbound_of_key tracked unlistedNow] at admitted
      cases found : ((InboundFilter.new ports).after history).flows.get? key with
      | none => simp [found] at admitted
      | some seen =>
          have live : unexpired now key seen = true := by
            by_contra expired
            simp [found, expired] at admitted
          obtain ⟨before, order, sent, packet, between, historyEq, sentKey, times,
            timesEq, chain, lastEq⟩ := linked_of_stored ports history unlisted found
          refine ⟨before, order, sent, packet, between, key, historyEq,
            reverseOf_iff.mpr ⟨key, sentKey, tracked⟩, tracked, ?_⟩
          rw [← timesEq]
          refine List.IsChain.append chain (List.isChain_singleton _) ?_
          intro earlier earlierLast later laterHead
          simp only [lastEq, Option.mem_def, Option.some.injEq] at earlierLast
          simp only [List.head?_cons, Option.mem_def, Option.some.injEq] at laterHead
          rw [← earlierLast, ← laterHead]
          exact withinIdle_of_unexpired live

/-- Firewall soundness over whole runs: every admitted packet is justified,
and without a single outbound packet only ICMPv6 and allowlisted ports are
let in. -/
theorem admitted_only_if_justified (ports : List UInt16) (history : List Call)
    (now : Nat) (reply : Bytes)
    (admitted : (((InboundFilter.new ports).after history).allowInbound now reply).1 = true) :
    Justified ports history now reply ∧
      ((∀ call ∈ history, call.isInbound = true) →
        nextHeader reply ≠ protoIcmpv6 → dstPortOf reply ∈ ports) := by
  have justified := justified_of_admitted ports history now reply admitted
  refine ⟨justified, ?_⟩
  intro onlyInbound notIcmpv6
  rcases justified with ⟨_, icmpv6⟩ | ⟨_, listed | linked⟩
  · exact absurd icmpv6 notIcmpv6
  · exact listed
  · obtain ⟨before, order, sent, packet, between, key, historyEq, _⟩ := linked
    have inbound := onlyInbound (.noteOutbound order sent packet) (by simp [historyEq])
    simp [Call.isInbound] at inbound

/-- A minimal packet: the fixed header and four octets of ports. -/
def pkt (proto : UInt8) (src : Bytes) (sport : UInt16) (dst : Bytes) (dport : UInt16) :
    Bytes :=
  [0x60, 0, 0, 0, 0, 0, proto, 0] ++ src ++ dst ++ Bytes.toBe16 sport ++
    Bytes.toBe16 dport

def addr (last : UInt8) : Bytes := 0xfd :: (List.replicate 14 0 ++ [last])

/-- Return traffic of an outbound TCP flow, five seconds later. -/
theorem return_traffic_justified :
    Justified [] [.noteOutbound .asKept 0 (pkt protoTcp (addr 1) 40000 (addr 2) 80)]
        (seconds 5) (pkt protoTcp (addr 2) 80 (addr 1) 40000) ∧
      ((∀ call ∈ [Call.noteOutbound .asKept 0 (pkt protoTcp (addr 1) 40000 (addr 2) 80)],
          call.isInbound = true) →
        nextHeader (pkt protoTcp (addr 2) 80 (addr 1) 40000) ≠ protoIcmpv6 →
        dstPortOf (pkt protoTcp (addr 2) 80 (addr 1) 40000) ∈ ([] : List UInt16)) := by
  apply admitted_only_if_justified
  decide

end Fips2Go.Filter
