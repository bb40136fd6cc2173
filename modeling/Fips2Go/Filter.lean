import Fips2Go.ByteStrings
import Fips2Go.FiniteTable
import Fips2Go.SortedSearch
import Mathlib.Order.Nat

/-!
# The stateful inbound firewall

`shim/src/filter.rs`: outbound mesh packets record their flow in a bounded
table, and an inbound packet passes when it is ICMPv6, when its destination
port is allowlisted, or when it belongs to a recorded flow that has not been
idle for too long.

Clock readings are whole nanoseconds and are passed in by the caller, as is
the order in which the hash map is iterated when the stalest flow is evicted:
neither is under the filter's control.
-/

namespace Fips2Go.Filter

open FiniteTable (IterationOrder)

abbrev Addr := FixedBytes 16

def protoTcp : UInt8 := 6
def protoUdp : UInt8 := 17
def protoIcmpv6 : UInt8 := 58

def seconds (count : Nat) : Nat := count * 1000000000

def tcpIdle : Nat := seconds 600
def udpIdle : Nat := seconds 180

/-- Bound on tracked flows. -/
def maxFlows : Nat := 4096

/-- An outbound-initiated flow, from our side's perspective. -/
structure FlowKey where
  proto : UInt8
  localPort : UInt16
  remoteAddr : Addr
  remotePort : UInt16
  deriving DecidableEq

/-- The parsed transport header of a plain IPv6 packet. -/
structure Parsed where
  proto : UInt8
  srcAddr : Addr
  srcPort : UInt16
  dstPort : UInt16
  deriving DecidableEq

/-- Protocol, source address and ports of an IPv6 packet whose transport
header directly follows the fixed header.  ICMPv6 parses with ports 0. -/
def parse (packet : Bytes) : Option Parsed :=
  if short : packet.length < 40 then none
  else if packet[0] >>> 4 ≠ 6 then none
  else
    let proto := packet[6]
    let srcAddr := packet.sliceAt 8 16 (by omega)
    if proto = protoIcmpv6 then
      some { proto, srcAddr, srcPort := 0, dstPort := 0 }
    else if proto = protoTcp ∨ proto = protoUdp then
      if truncated : packet.length < 44 then none
      else some
        { proto, srcAddr
          srcPort := Bytes.be16 packet[40] packet[41]
          dstPort := Bytes.be16 packet[42] packet[43] }
    else none

theorem length_of_parse {packet : Bytes} {parsed : Parsed}
    (parses : parse packet = some parsed) : 40 ≤ packet.length := by
  by_contra short
  simp [parse, show packet.length < 40 by omega] at parses

/-- The destination address, read only from packets that parse. -/
def dstAddr (packet : Bytes) (long : 40 ≤ packet.length) : Addr :=
  packet.sliceAt 24 16 long

def idleLimit (proto : UInt8) : Nat :=
  if proto = protoTcp then tcpIdle else udpIdle

/-- The flow an outbound packet belongs to; `none` for what the filter does
not track (ICMPv6 and whatever does not parse). -/
def outboundKey (packet : Bytes) : Option FlowKey :=
  match parses : parse packet with
  | none => none
  | some p =>
      if p.proto = protoIcmpv6 then none
      else some
        { proto := p.proto
          localPort := p.srcPort
          remoteAddr := dstAddr packet (length_of_parse parses)
          remotePort := p.dstPort }

/-- The flow an inbound packet would be the return traffic of. -/
def inboundKey (p : Parsed) : FlowKey where
  proto := p.proto
  localPort := p.dstPort
  remoteAddr := p.srcAddr
  remotePort := p.srcPort

abbrev FlowTable := FiniteTable FlowKey Nat

/-- `now.duration_since(seen)` is below the idle limit of the flow. -/
def unexpired (now : Nat) (key : FlowKey) (seen : Nat) : Bool :=
  decide (now - seen < idleLimit key.proto)

/-- The allowlist is kept sorted, as the binary search needs. -/
structure InboundFilter where
  allowedPorts : List UInt16
  sortedPorts : allowedPorts.Pairwise (· < ·)
  flows : FlowTable

namespace InboundFilter

def new (allowedPorts : List UInt16) : InboundFilter where
  allowedPorts := SortedSearch.sortDedup allowedPorts
  sortedPorts := SortedSearch.pairwise_sortDedup allowedPorts
  flows := FiniteTable.empty

/-- Make room for one more flow: purge the expired entries and, if the table
is still full, evict the stalest one. -/
def makeRoom (flows : FlowTable) (order : IterationOrder FlowKey Nat)
    (now : Nat) : FlowTable :=
  let live := flows.retain (unexpired now)
  if maxFlows ≤ live.size then
    match live.minByValue order with
    | some oldest => live.remove oldest.1
    | none => live
  else live

/-- Record or refresh the flow of an outbound mesh packet. -/
def noteOutbound (filter : InboundFilter) (order : IterationOrder FlowKey Nat)
    (now : Nat) (packet : Bytes) : InboundFilter :=
  match outboundKey packet with
  | none => filter
  | some key =>
      let flows :=
        if maxFlows ≤ filter.flows.size ∧ ¬ filter.flows.contains key then
          makeRoom filter.flows order now
        else filter.flows
      { filter with flows := flows.insert key now }

/-- Verdict for a mesh packet about to be written to the TUN. -/
def allowInbound (filter : InboundFilter) (now : Nat) (packet : Bytes) :
    Bool × InboundFilter :=
  match parse packet with
  | none => (false, filter)
  | some p =>
      if p.proto = protoIcmpv6 then (true, filter)
      else if (SortedSearch.binarySearch filter.allowedPorts p.dstPort).isSome then
        (true, filter)
      else
        let key := inboundKey p
        match filter.flows.get? key with
        | some seen =>
            if unexpired now key seen then
              (true, { filter with flows := filter.flows.insert key now })
            else (false, { filter with flows := filter.flows.remove key })
        | none => (false, filter)

end InboundFilter

/-- One call on the filter.  Each outbound call meets the hash map in an
iteration order of its own. -/
inductive Call
  | noteOutbound (order : IterationOrder FlowKey Nat) (now : Nat) (packet : Bytes)
  | allowInbound (now : Nat) (packet : Bytes)

def Call.now : Call → Nat
  | .noteOutbound _ now _ => now
  | .allowInbound now _ => now

def Call.isInbound : Call → Bool
  | .noteOutbound .. => false
  | .allowInbound .. => true

namespace InboundFilter

/-- The filter after one call, whatever its verdict. -/
def step (filter : InboundFilter) : Call → InboundFilter
  | .noteOutbound order now packet => filter.noteOutbound order now packet
  | .allowInbound now packet => (filter.allowInbound now packet).2

/-- The filter after a sequence of calls. -/
def after (filter : InboundFilter) (calls : List Call) : InboundFilter :=
  calls.foldl step filter

/-- The verdicts given along a sequence of calls, in order. -/
def verdicts (filter : InboundFilter) : List Call → List Bool
  | [] => []
  | .noteOutbound order now packet :: calls =>
      (filter.noteOutbound order now packet).verdicts calls
  | .allowInbound now packet :: calls =>
      (filter.allowInbound now packet).1 ::
        (filter.allowInbound now packet).2.verdicts calls

@[simp] theorem after_nil (filter : InboundFilter) : filter.after [] = filter := rfl

@[simp] theorem after_cons (filter : InboundFilter) (call : Call) (calls : List Call) :
    filter.after (call :: calls) = (filter.step call).after calls := rfl

theorem after_append (filter : InboundFilter) (first second : List Call) :
    filter.after (first ++ second) = (filter.after first).after second :=
  List.foldl_append

@[simp] theorem flows_new (ports : List UInt16) :
    (new ports).flows = FiniteTable.empty := rfl

@[simp] theorem allowedPorts_step (filter : InboundFilter) (call : Call) :
    (filter.step call).allowedPorts = filter.allowedPorts := by
  cases call with
  | noteOutbound order now packet =>
      simp only [step, noteOutbound]
      split <;> rfl
  | allowInbound now packet =>
      simp only [step, allowInbound]
      repeat' split
      all_goals rfl

@[simp] theorem allowedPorts_after (filter : InboundFilter) (calls : List Call) :
    (filter.after calls).allowedPorts = filter.allowedPorts := by
  induction calls generalizing filter with
  | nil => rfl
  | cons call calls ih => rw [after_cons, ih, allowedPorts_step]

theorem mem_allowedPorts_new (ports : List UInt16) (port : UInt16) :
    port ∈ (new ports).allowedPorts ↔ port ∈ ports :=
  SortedSearch.mem_sortDedup ports port

theorem search_allowedPorts (filter : InboundFilter) (port : UInt16) :
    (SortedSearch.binarySearch filter.allowedPorts port).isSome = true ↔
      port ∈ filter.allowedPorts :=
  SortedSearch.isSome_binarySearch_iff filter.sortedPorts port

end InboundFilter

end Fips2Go.Filter
