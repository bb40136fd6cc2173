import Fips2Go.Divert
import Fips2Go.DnsOneReply
import Fips2Go.FilterHeaders
import Fips2Go.PacketBounds

/-!
# Four readers of one header

The firewall, the reply tap, the DNS intercept and the pump each take the
headers of a packet apart by hand, from minimum lengths of their own.  All four
are given with every index and slice checked and shown never to fail one, and
what they read is compared: it is always the same header.

The prefix of mesh addresses is a constant of the node
(`fips::identity::IPV6_ADDRESS_PREFIX`) and a parameter here.
-/

namespace Fips2Go.Filter

open Machine (Checked octetAt between fixed)

/-- `parse` with its indices and slices checked. -/
def readParse (packet : Bytes) : Checked (Option Parsed) :=
  if packet.length < 40 then .ok none
  else do
    let version ← octetAt packet 0
    if version >>> 4 ≠ 6 then return none
    let proto ← octetAt packet 6
    let srcAddr ← fixed 16 (← between packet 8 24)
    if proto = protoIcmpv6 then
      return some { proto, srcAddr, srcPort := 0, dstPort := 0 }
    else if proto = protoTcp ∨ proto = protoUdp then
      match packet.slice? 40 4 with
      | none => return none
      | some l4 =>
          let srcPort := Bytes.be16 (← octetAt l4 0) (← octetAt l4 1)
          let dstPort := Bytes.be16 (← octetAt l4 2) (← octetAt l4 3)
          return some { proto, srcAddr, srcPort, dstPort }
    else return none

/-- No index and no slice is out of range. -/
theorem readParse_eq (packet : Bytes) : readParse packet = .ok (parse packet) := by
  unfold readParse parse
  by_cases short : packet.length < 40
  · rw [if_pos short, dif_pos short]
  rw [if_neg short, dif_neg short]
  simp (disch := omega) only [Machine.octetAt_of_lt, Machine.between_of_le, Machine.fixed_take,
    bind, Except.bind, pure, Except.pure]
  by_cases version : packet[0] >>> 4 ≠ 6
  · rw [if_pos version, if_pos version]
  rw [if_neg version, if_neg version]
  by_cases icmpv6 : packet[6] = protoIcmpv6
  · rw [if_pos icmpv6, if_pos icmpv6]
  rw [if_neg icmpv6, if_neg icmpv6]
  by_cases ports : packet[6] = protoTcp ∨ packet[6] = protoUdp
  · rw [if_pos ports, if_pos ports]
    by_cases truncated : packet.length < 44
    · rw [dif_pos truncated, Bytes.slice?, if_neg (by omega)]
    · rw [dif_neg truncated, Bytes.slice?, if_pos (by omega)]
      simp (disch := omega) only [Machine.octetAt_take]
  · rw [if_neg ports, if_neg ports]

end Fips2Go.Filter

namespace Fips2Go.MeshHttp

open Machine (Checked octetAt between fixed)

/-- The closure `port` of `flow_key`. -/
def port (b : Bytes) : Checked UInt16 := do
  return Bytes.be16 (← octetAt b 0) (← octetAt b 1)

/-- `flow_key` with its indices and slices checked. -/
def readFlowKey (p : Bytes) : Checked (Option FlowKey) :=
  if p.length < 44 then .ok none
  else do
    let version ← octetAt p 0
    if version >>> 4 ≠ 6 then return none
    let next ← octetAt p 6
    if next = 6 ∨ next = 17 then
      let addr ← fixed 16 (← between p 8 24)
      return some (addr, ← port (← between p 40 42), ← port (← between p 42 44))
    else if next ≠ 58 then return none
    else
      let type ← octetAt p 40
      if type = 129 ∧ 48 ≤ p.length then
        let addr ← fixed 16 (← between p 8 24)
        return some (addr, 0, ← port (← between p 44 46))
      else if type = 1 ∧ 48 + 44 ≤ p.length then
        let quoted ← octetAt p (48 + 6)
        if quoted = 6 ∨ quoted = 17 then
          let q ← between p 48 p.length
          let addr ← fixed 16 (← between q 24 40)
          return some (addr, ← port (← between q 42 44), ← port (← between q 40 42))
        else return none
      else return none

theorem port_take {bytes : Bytes} {index : Nat} (within : index + 1 < bytes.length) :
    port ((bytes.drop index).take 2) = .ok (Bytes.be16 bytes[index] bytes[index + 1]) := by
  simp (disch := omega) only [port, Machine.octetAt_take, bind, Except.bind, pure, Except.pure,
    Nat.add_zero]

/-- No index and no slice is out of range, and the two slices with fixed sizes
have them. -/
theorem readFlowKey_eq (p : Bytes) : readFlowKey p = .ok (flowKey p) := by
  unfold readFlowKey flowKey
  by_cases short : p.length < 44
  · rw [if_pos short, dif_pos short]
  rw [if_neg short, dif_neg short]
  simp (disch := omega) only [Machine.octetAt_of_lt, Machine.between_of_le, Machine.fixed_take,
    Nat.reduceSub, port_take, bind, Except.bind, pure, Except.pure]
  by_cases version : p[0] >>> 4 ≠ 6
  · rw [if_pos version, if_pos version]
  rw [if_neg version, if_neg version]
  by_cases ports : p[6] = 6 ∨ p[6] = 17
  · rw [if_pos ports, if_pos ports]
  rw [if_neg ports, if_neg ports]
  by_cases icmpv6 : p[6] ≠ 58
  · rw [if_pos icmpv6, if_pos icmpv6]
  rw [if_neg icmpv6, if_neg icmpv6]
  by_cases reply : p[40] = 129 ∧ 48 ≤ p.length
  · have long := reply.2
    rw [if_pos reply, dif_pos reply]
    simp (disch := omega) only [Machine.between_of_le, Nat.reduceSub, port_take]
  rw [if_neg reply, dif_neg reply]
  by_cases error : p[40] = 1 ∧ 48 + 44 ≤ p.length
  · have long := error.2
    rw [if_pos error, dif_pos error]
    have quoteLong : 44 ≤ (p.drop 48).length := by
      rw [List.length_drop]
      omega
    have kind : octetAt p (48 + 6) = .ok (p.drop 48)[6] := by
      rw [Machine.octetAt_of_lt (by omega), List.getElem_drop]
    have quote : between p 48 p.length = .ok (p.drop 48) := Machine.between_length (by omega)
    simp only [kind, quote]
    by_cases quoted : (p.drop 48)[6] = 6 ∨ (p.drop 48)[6] = 17
    · rw [if_pos quoted, if_pos quoted]
      simp (disch := omega) only [Machine.between_of_le, Machine.fixed_take, Nat.reduceSub,
        port_take]
    · rw [if_neg quoted, if_neg quoted]
  · rw [if_neg error, dif_neg error]

/-- The packet takes the arm of `flow_key` for TCP and UDP. -/
def ThroughPorts (p : Bytes) : Prop := p[6]? = some 6 ∨ p[6]? = some 17

end Fips2Go.MeshHttp

namespace Fips2Go.Pump

open Machine (Checked octetAt)

/-- A packet for the mesh, whose addresses all start with `meshPrefix`. -/
def isMeshBound (meshPrefix : UInt8) (packet : Bytes) : Bool :=
  if long : 40 ≤ packet.length then packet[0] >>> 4 = 6 && packet[24] = meshPrefix
  else false

/-- `is_mesh_bound` with its indices checked. -/
def readMeshBound (meshPrefix : UInt8) (packet : Bytes) : Checked Bool :=
  if packet.length < 40 then .ok false
  else do
    let version ← octetAt packet 0
    if version >>> 4 ≠ 6 then return false
    let first ← octetAt packet 24
    return first = meshPrefix

/-- Where `run_reader` takes a packet: to the resolver, to the clearnet forwarder
or through the node's outbound pipeline. -/
inductive Way where
  | resolver
  | clearnet
  | mesh
  deriving DecidableEq, Repr

def way (meshPrefix : UInt8) (dnsAddr : FixedBytes 16) (packet : Bytes) : Way :=
  if Dns.intercepts packet dnsAddr then .resolver
  else if !isMeshBound meshPrefix packet then .clearnet
  else .mesh

variable {meshPrefix : UInt8}

/-- No index is out of range. -/
theorem readMeshBound_eq (packet : Bytes) :
    readMeshBound meshPrefix packet = .ok (isMeshBound meshPrefix packet) := by
  unfold readMeshBound isMeshBound
  by_cases short : packet.length < 40
  · rw [if_pos short, dif_neg (by omega)]
  rw [if_neg short, dif_pos (by omega)]
  simp (disch := omega) only [Machine.octetAt_of_lt, bind, Except.bind, pure, Except.pure]
  by_cases version : packet[0] >>> 4 ≠ 6
  · rw [if_pos version, decide_eq_false version, Bool.false_and]
  · rw [if_neg version, decide_eq_true (not_not.mp version), Bool.true_and]

end Fips2Go.Pump

namespace Fips2Go.PacketReaders

open Fips2Go.Filter (CarriesPorts IsIpv6 Parsed dstAddrOf dstPortOf nextHeader octet
  octet_eq_getElem parse protoTcp protoUdp readParse replyKey srcAddrOf srcPortOf)
open MeshHttp (ThroughPorts flowKey readFlowKey)
open Packet (Ipv6Udp parseIpv6Udp readIpv6Udp)
open Pump (isMeshBound readMeshBound way)

variable {packet : Bytes}

/-! ### The reply tap -/

theorem flowKey_of_carriesPorts (ports : CarriesPorts packet) {src : FixedBytes 16}
    (source : src.val = srcAddrOf packet) :
    flowKey packet = some (src, srcPortOf packet, dstPortOf packet) := by
  obtain ⟨⟨long, version⟩, next, longer⟩ := ports
  unfold nextHeader protoTcp protoUdp at next
  rw [flowKey, dif_neg (by omega), octet_eq_getElem (by omega), if_neg (not_not.mpr version)]
  simp only [octet_eq_getElem (show 6 < packet.length by omega)]
  rw [if_pos next, Filter.srcPortOf_eq (by omega), Filter.dstPortOf_eq longer,
    Option.some.injEq, Prod.mk.injEq]
  exact ⟨Subtype.ext source.symm, rfl⟩

theorem throughPorts_of_carriesPorts (ports : CarriesPorts packet) : ThroughPorts packet := by
  obtain ⟨⟨long, -⟩, next, -⟩ := ports
  unfold nextHeader at next
  rw [← octet_eq_getElem (by omega)] at next
  rw [ThroughPorts, List.getElem?_eq_getElem (by omega)]
  exact next.imp (congrArg some) (congrArg some)

/-- A key that is not read out of an ICMPv6 message comes from the ports. -/
theorem carriesPorts_of_flowKey {key : MeshHttp.FlowKey} (found : flowKey packet = some key)
    (arm : ThroughPorts packet) : CarriesPorts packet := by
  unfold flowKey at found
  split at found
  · cases found
  next short =>
    split at found
    · cases found
    next version =>
      have next := arm
      rw [ThroughPorts, List.getElem?_eq_getElem (by omega), Option.some_inj, Option.some_inj,
        octet_eq_getElem (by omega)] at next
      rw [octet_eq_getElem (by omega)] at version
      exact ⟨⟨by omega, not_not.mp version⟩, next, by omega⟩

/-- A TCP or UDP result of the firewall is a key of the reply tap from the ports. -/
theorem parse_ports_iff (src : FixedBytes 16) (srcPort dstPort : UInt16) :
    (∃ proto, (proto = protoTcp ∨ proto = protoUdp) ∧
        parse packet = some { proto, srcAddr := src, srcPort, dstPort }) ↔
      flowKey packet = some (src, srcPort, dstPort) ∧ ThroughPorts packet := by
  constructor
  · rintro ⟨proto, carried, parsed⟩
    have tracked : proto ≠ Filter.protoIcmpv6 := by
      rcases carried with rfl | rfl
      · decide
      · decide
    have ports := Filter.carriesPorts_of_parse parsed tracked
    refine ⟨?_, throughPorts_of_carriesPorts ports⟩
    rw [Filter.parse_ports ports, Option.some.injEq, Parsed.mk.injEq] at parsed
    obtain ⟨-, srcAddr, source, target⟩ := parsed
    rw [← source, ← target]
    exact flowKey_of_carriesPorts ports (congrArg Subtype.val srcAddr.symm)
  · rintro ⟨found, arm⟩
    have ports := carriesPorts_of_flowKey found arm
    have long := ports.1.1
    refine ⟨nextHeader packet, ports.2.1, (Filter.parse_ports ports).trans ?_⟩
    rw [flowKey_of_carriesPorts ports (Bytes.sliceAt_val packet 8 16 (by omega)),
      Option.some.injEq, Prod.mk.injEq, Prod.mk.injEq] at found
    obtain ⟨srcAddr, source, target⟩ := found
    rw [Option.some.injEq, Parsed.mk.injEq]
    exact ⟨rfl, srcAddr, source, target⟩

/-! ### The DNS intercept -/

/-- The view is of a UDP packet, field by field. -/
structure Views (packet : Bytes) (view : Ipv6Udp) : Prop where
  ports : CarriesPorts packet
  proto : nextHeader packet = protoUdp
  src : view.src.val = srcAddrOf packet
  dst : view.dst.val = dstAddrOf packet
  srcPort : view.srcPort = srcPortOf packet
  dstPort : view.dstPort = dstPortOf packet

theorem views_of_parseIpv6Udp {view : Ipv6Udp} (parsed : parseIpv6Udp packet = some view) :
    Views packet view := by
  unfold parseIpv6Udp at parsed
  split at parsed
  · cases parsed
  next short =>
    split at parsed
    · cases parsed
    next udp =>
      obtain ⟨version, proto⟩ := not_or.mp udp
      rw [octet_eq_getElem (by omega)] at version proto
      simp only at parsed
      split at parsed
      · cases parsed
      · split at parsed
        · cases parsed
        · rw [← Option.some.inj parsed]
          exact {
            ports := ⟨⟨by omega, not_not.mp version⟩, Or.inr (not_not.mp proto), by omega⟩
            proto := not_not.mp proto
            src := rfl
            dst := rfl
            srcPort := Filter.srcPortOf_eq (by omega)
            dstPort := Filter.dstPortOf_eq (by omega) }

/-- The firewall reads what the DNS intercept does. -/
theorem Views.parse {view : Ipv6Udp} (views : Views packet view) :
    Filter.parse packet = some
      { proto := protoUdp
        srcAddr := view.src
        srcPort := view.srcPort
        dstPort := view.dstPort } := by
  rw [Filter.parse_ports views.ports, Option.some.injEq, Parsed.mk.injEq]
  exact ⟨views.proto, Subtype.ext views.src.symm, views.srcPort.symm, views.dstPort.symm⟩

/-! ### The pump -/

theorem isMeshBound_iff (meshPrefix : UInt8) :
    isMeshBound meshPrefix packet = true ↔ IsIpv6 packet ∧ octet packet 24 = meshPrefix := by
  unfold isMeshBound IsIpv6
  by_cases long : 40 ≤ packet.length
  · rw [dif_pos long, octet_eq_getElem (by omega), octet_eq_getElem (by omega)]
    simp [long]
  · simp [long]

/-- Of a datagram the pump reads the destination that the DNS intercept does. -/
theorem Views.isMeshBound_iff {view : Ipv6Udp} (views : Views packet view) (meshPrefix : UInt8) :
    isMeshBound meshPrefix packet = true ↔ view.dst.val.head? = some meshPrefix := by
  have long := views.ports.1.1
  have first : view.dst.val.head? = some (octet packet 24) := by
    rw [views.dst, dstAddrOf, ← octet_eq_getElem (by omega)]
    simp [List.head?_take]
  rw [PacketReaders.isMeshBound_iff, first, Option.some_inj]
  exact and_iff_right views.ports.1

/-- On every byte string the four readers stay in bounds and read one header: the
firewall has a TCP or UDP result when the reply tap has a key from the ports,
with the same address and ports; where the DNS intercept sees a datagram the
firewall sees it too; and a datagram for a mesh address is mesh-bound. -/
theorem packet_readers_agree {meshPrefix : UInt8} (documented : meshPrefix = 0xfd)
    (packet : Bytes) :
    (readParse packet = .ok (parse packet) ∧
      readFlowKey packet = .ok (flowKey packet) ∧
      readIpv6Udp packet = .ok (parseIpv6Udp packet) ∧
      readMeshBound meshPrefix packet = .ok (isMeshBound meshPrefix packet)) ∧
    (∀ src srcPort dstPort,
      (∃ proto, (proto = protoTcp ∨ proto = protoUdp) ∧
          parse packet = some { proto, srcAddr := src, srcPort, dstPort }) ↔
        flowKey packet = some (src, srcPort, dstPort) ∧ ThroughPorts packet) ∧
    (∀ view, parseIpv6Udp packet = some view →
      parse packet = some
        { proto := protoUdp
          srcAddr := view.src
          srcPort := view.srcPort
          dstPort := view.dstPort }) ∧
    (∀ view, parseIpv6Udp packet = some view → view.dst.val.head? = some 0xfd →
      isMeshBound meshPrefix packet = true) := by
  refine ⟨⟨Filter.readParse_eq packet, MeshHttp.readFlowKey_eq packet,
    Packet.readIpv6Udp_eq packet, Pump.readMeshBound_eq packet⟩, parse_ports_iff, ?_, ?_⟩
  · intro view parsed
    exact (views_of_parseIpv6Udp parsed).parse
  · intro view parsed first
    rw [(views_of_parseIpv6Udp parsed).isMeshBound_iff, documented]
    exact first

/-- A query to the resolver of the tunnel, from one mesh address to another. -/
def sampleQuery : Bytes :=
  Packet.buildIpv6Udp ⟨0xfd :: List.replicate 15 9, rfl⟩
    ⟨0xfd :: List.replicate 14 0 ++ [0x53], rfl⟩ 40000 53 [7, 7]

theorem sample_query_is_read_alike :
    readFlowKey sampleQuery = .ok (some (⟨0xfd :: List.replicate 15 9, rfl⟩, 40000, 53)) ∧
      isMeshBound 0xfd sampleQuery = true := by
  have parsed : parseIpv6Udp sampleQuery = some _ :=
    Packet.parseIpv6Udp_buildIpv6Udp _ _ 40000 53 (by decide)
  obtain ⟨⟨-, bounded, -, -⟩, keys, firewall, mesh⟩ := packet_readers_agree rfl sampleQuery
  have key := ((keys _ _ _).mp ⟨protoUdp, Or.inr rfl, firewall _ parsed⟩).1
  rw [bounded, key]
  exact ⟨rfl, mesh _ parsed rfl⟩

end Fips2Go.PacketReaders
