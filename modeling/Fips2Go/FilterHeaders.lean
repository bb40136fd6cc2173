import Fips2Go.Filter

/-!
# Header fields and flow keys

The header fields of a packet, read off its octets independently of the
firewall's own parser, and the agreement of the two.  In particular the key
an outbound packet is stored under is the key its replies are looked up
under.
-/

namespace Fips2Go.Filter

section Octets

variable (packet : Bytes)

/-- The octet at an index, 0 past the end. -/
def octet (index : Nat) : UInt8 := packet.getD index 0

def nextHeader : UInt8 := octet packet 6
def srcPortOf : UInt16 := Bytes.be16 (octet packet 40) (octet packet 41)
def dstPortOf : UInt16 := Bytes.be16 (octet packet 42) (octet packet 43)
def srcAddrOf : Bytes := (packet.drop 8).take 16
def dstAddrOf : Bytes := (packet.drop 24).take 16

def IsIpv6 : Prop := 40 ≤ packet.length ∧ octet packet 0 >>> 4 = 6

/-- TCP or UDP directly after the fixed header, with the four port octets. -/
def CarriesPorts : Prop :=
  IsIpv6 packet ∧ (nextHeader packet = protoTcp ∨ nextHeader packet = protoUdp) ∧
    44 ≤ packet.length

end Octets

/-- `reply` travels the flow of `sent` in the other direction. -/
structure ReverseOf (sent reply : Bytes) : Prop where
  sentPorts : CarriesPorts sent
  replyPorts : CarriesPorts reply
  proto : nextHeader sent = nextHeader reply
  localPort : srcPortOf sent = dstPortOf reply
  remoteAddr : dstAddrOf sent = srcAddrOf reply
  remotePort : dstPortOf sent = srcPortOf reply

/-- The flow a TCP or UDP packet would be the return traffic of. -/
def replyKey (packet : Bytes) : Option FlowKey :=
  match parse packet with
  | none => none
  | some p => if p.proto = protoIcmpv6 then none else some (inboundKey p)

/-- A flow is looked up for what parses and is not ICMPv6. -/
theorem parse_of_replyKey {packet : Bytes} {key : FlowKey}
    (tracked : replyKey packet = some key) :
    ∃ parsed, parse packet = some parsed ∧ parsed.proto ≠ protoIcmpv6 ∧
      inboundKey parsed = key := by
  unfold replyKey at tracked
  split at tracked
  · simp at tracked
  next parsed parses =>
    split at tracked
    · simp at tracked
    next notIcmpv6 => exact ⟨parsed, parses, notIcmpv6, Option.some.inj tracked⟩

theorem octet_eq_getElem {packet : Bytes} {index : Nat}
    (bound : index < packet.length) : packet[index] = octet packet index := by
  simp [octet, List.getD_eq_getElem?_getD, bound]

theorem srcPortOf_eq {packet : Bytes} (long : 42 ≤ packet.length) :
    Bytes.be16 packet[40] packet[41] = srcPortOf packet := by
  rw [srcPortOf, octet_eq_getElem, octet_eq_getElem]

theorem dstPortOf_eq {packet : Bytes} (long : 44 ≤ packet.length) :
    Bytes.be16 packet[42] packet[43] = dstPortOf packet := by
  rw [dstPortOf, octet_eq_getElem, octet_eq_getElem]

theorem parse_icmpv6 {packet : Bytes} (ipv6 : IsIpv6 packet)
    (proto : nextHeader packet = protoIcmpv6) :
    parse packet = some
      { proto := protoIcmpv6
        srcAddr := packet.sliceAt 8 16 (by have := ipv6.1; omega)
        srcPort := 0
        dstPort := 0 } := by
  have long := ipv6.1
  have version := ipv6.2
  unfold nextHeader at proto
  rw [parse, dif_neg (by omega), octet_eq_getElem (by omega),
    if_neg (by simpa using version)]
  simp only [octet_eq_getElem (show 6 < packet.length by omega), proto, if_true]

theorem parse_ports {packet : Bytes} (ports : CarriesPorts packet) :
    parse packet = some
      { proto := nextHeader packet
        srcAddr := packet.sliceAt 8 16 (by have := ports.1.1; omega)
        srcPort := srcPortOf packet
        dstPort := dstPortOf packet } := by
  obtain ⟨⟨long, version⟩, proto, longer⟩ := ports
  have notIcmpv6 : nextHeader packet ≠ protoIcmpv6 := by
    rcases proto with tcp | udp
    · rw [tcp]
      decide
    · rw [udp]
      decide
  unfold nextHeader at notIcmpv6 proto
  rw [parse, dif_neg (by omega), octet_eq_getElem (by omega),
    if_neg (by simpa using version)]
  simp only [octet_eq_getElem (show 6 < packet.length by omega), if_neg notIcmpv6,
    if_pos proto, dif_neg (show ¬ packet.length < 44 by omega), nextHeader,
    srcPortOf_eq (show 42 ≤ packet.length by omega), dstPortOf_eq longer]

/-- Nothing else parses. -/
theorem parse_cases {packet : Bytes} {parsed : Parsed}
    (parses : parse packet = some parsed) :
    (IsIpv6 packet ∧ nextHeader packet = protoIcmpv6) ∨ CarriesPorts packet := by
  unfold parse at parses
  split at parses
  · simp at parses
  next short =>
    split at parses
    · simp at parses
    next version =>
      have ipv6 : IsIpv6 packet := by
        refine ⟨by omega, ?_⟩
        rw [← octet_eq_getElem (by omega)]
        simpa using version
      simp only [octet_eq_getElem (show 6 < packet.length by omega)] at parses
      split at parses
      next icmpv6 => exact Or.inl ⟨ipv6, icmpv6⟩
      next =>
        split at parses
        next proto =>
          split at parses
          · simp at parses
          next truncated => exact Or.inr ⟨ipv6, proto, by omega⟩
        · simp at parses

theorem nextHeader_ne_icmpv6 {packet : Bytes} (ports : CarriesPorts packet) :
    nextHeader packet ≠ protoIcmpv6 := by
  rcases ports.2.1 with tcp | udp
  · rw [tcp]
    decide
  · rw [udp]
    decide

theorem replyKey_of_carriesPorts {packet : Bytes} (ports : CarriesPorts packet) :
    replyKey packet = some
      { proto := nextHeader packet
        localPort := dstPortOf packet
        remoteAddr := packet.sliceAt 8 16 (by have := ports.1.1; omega)
        remotePort := srcPortOf packet } := by
  rw [replyKey, parse_ports ports]
  simp [nextHeader_ne_icmpv6 ports, inboundKey]

theorem outboundKey_of_carriesPorts {packet : Bytes} (ports : CarriesPorts packet) :
    outboundKey packet = some
      { proto := nextHeader packet
        localPort := srcPortOf packet
        remoteAddr := dstAddr packet ports.1.1
        remotePort := dstPortOf packet } := by
  unfold outboundKey
  split
  next none => simp [parse_ports ports] at none
  next parsed parses =>
    rw [parse_ports ports] at parses
    simp only [Option.some.injEq] at parses
    simp only [← parses, if_neg (nextHeader_ne_icmpv6 ports)]

/-- What parses and is not ICMPv6 carries ports. -/
theorem carriesPorts_of_parse {packet : Bytes} {parsed : Parsed}
    (parses : parse packet = some parsed) (tracked : parsed.proto ≠ protoIcmpv6) :
    CarriesPorts packet := by
  rcases parse_cases parses with ⟨ipv6, icmpv6⟩ | ports
  · rw [parse_icmpv6 ipv6 icmpv6, Option.some.injEq] at parses
    exact absurd (congrArg Parsed.proto parses).symm tracked
  · exact ports

theorem carriesPorts_of_replyKey {packet : Bytes} {key : FlowKey}
    (tracked : replyKey packet = some key) : CarriesPorts packet := by
  obtain ⟨parsed, parses, notIcmpv6, -⟩ := parse_of_replyKey tracked
  exact carriesPorts_of_parse parses notIcmpv6

theorem carriesPorts_of_outboundKey {packet : Bytes} {key : FlowKey}
    (tracked : outboundKey packet = some key) : CarriesPorts packet := by
  unfold outboundKey at tracked
  split at tracked
  · simp at tracked
  next parsed parses =>
    refine carriesPorts_of_parse parses fun icmpv6 => ?_
    simp [icmpv6] at tracked

/-- A reply is looked up under the key its outbound packet was stored under,
and under no other. -/
theorem reverseOf_iff {sent reply : Bytes} :
    ReverseOf sent reply ↔
      ∃ key, outboundKey sent = some key ∧ replyKey reply = some key := by
  constructor
  · rintro ⟨sentPorts, replyPorts, proto, localPort, remoteAddr, remotePort⟩
    refine ⟨_, outboundKey_of_carriesPorts sentPorts, ?_⟩
    rw [replyKey_of_carriesPorts replyPorts, Option.some.injEq, FlowKey.mk.injEq]
    exact ⟨proto.symm, localPort.symm, Subtype.ext remoteAddr.symm, remotePort.symm⟩
  · rintro ⟨key, outbound, inbound⟩
    have sentPorts := carriesPorts_of_outboundKey outbound
    have replyPorts := carriesPorts_of_replyKey inbound
    rw [outboundKey_of_carriesPorts sentPorts, Option.some.injEq] at outbound
    rw [replyKey_of_carriesPorts replyPorts, Option.some.injEq, ← outbound,
      FlowKey.mk.injEq] at inbound
    obtain ⟨proto, localPort, remoteAddr, remotePort⟩ := inbound
    exact ⟨sentPorts, replyPorts, proto.symm, localPort.symm,
      (congrArg Subtype.val remoteAddr).symm, remotePort.symm⟩

end Fips2Go.Filter
