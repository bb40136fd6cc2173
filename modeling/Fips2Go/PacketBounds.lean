import Fips2Go.Machine
import Fips2Go.Packet

/-!
# Parsing against building

Parsing inverts building, whatever follows the packet, and takes nothing less
than the packet.  The parser is also given with every index and slice checked,
as the program does them, and shown never to fail one.
-/

namespace Fips2Go.Packet

open Machine (Checked octetAt between fixed)

/-- `parse_ipv6_udp` with its indices and slices checked. -/
def readIpv6Udp (packet : Bytes) : Checked (Option Ipv6Udp) :=
  if packet.length < 48 then .ok none
  else do
    let version ← octetAt packet 0
    if version >>> 4 ≠ 6 then return none
    let nextHeader ← octetAt packet 6
    if nextHeader ≠ 17 then return none
    let payloadLen := (Bytes.be16 (← octetAt packet 4) (← octetAt packet 5)).toNat
    if payloadLen < 8 ∨ packet.length < 40 + payloadLen then return none
    let udpLen := (Bytes.be16 (← octetAt packet 44) (← octetAt packet 45)).toNat
    if udpLen < 8 ∨ udpLen > payloadLen then return none
    let src ← fixed 16 (← between packet 8 24)
    let dst ← fixed 16 (← between packet 24 40)
    let srcPort := Bytes.be16 (← octetAt packet 40) (← octetAt packet 41)
    let dstPort := Bytes.be16 (← octetAt packet 42) (← octetAt packet 43)
    let payload ← between packet 48 (40 + udpLen)
    return some { src, dst, srcPort, dstPort, payload }

/-- No index and no slice is out of range. -/
theorem readIpv6Udp_eq (packet : Bytes) : readIpv6Udp packet = .ok (parseIpv6Udp packet) := by
  unfold readIpv6Udp parseIpv6Udp
  by_cases short : packet.length < 48
  · rw [if_pos short, dif_pos short]
  rw [if_neg short, dif_neg short]
  simp (disch := omega) only [Machine.octetAt_of_lt, bind, Except.bind, pure, Except.pure]
  by_cases version : packet[0] >>> 4 ≠ 6
  · rw [if_pos version, if_pos (Or.inl version)]
  rw [if_neg version]
  by_cases nextHeader : packet[6] ≠ 17
  · rw [if_pos nextHeader, if_pos (Or.inr nextHeader)]
  rw [if_neg nextHeader, if_neg (not_or.mpr ⟨version, nextHeader⟩)]
  generalize (Bytes.be16 packet[4] packet[5]).toNat = payloadLen
  by_cases ipv6 : payloadLen < 8 ∨ packet.length < 40 + payloadLen
  · rw [if_pos ipv6, if_pos ipv6]
  rw [if_neg ipv6, if_neg ipv6]
  generalize (Bytes.be16 packet[44] packet[45]).toNat = udpLen
  by_cases udp : udpLen < 8 ∨ udpLen > payloadLen
  · rw [if_pos udp, if_pos udp]
  rw [if_neg udp, if_neg udp]
  have payload : 40 + udpLen - 48 = udpLen - 8 := by omega
  simp (disch := omega) only [Machine.between_of_le, Machine.fixed_take, Nat.reduceSub, payload]

/-- The payload is the part of the packet that the UDP length tells of, within
the IPv6 payload and the packet. -/
theorem payload_of_parse {packet : Bytes} {view : Ipv6Udp}
    (parsed : parseIpv6Udp packet = some view) :
    ∃ payloadLen udpLen : UInt16,
      packet.slice? 4 2 = some (Bytes.toBe16 payloadLen) ∧
      packet.slice? 44 2 = some (Bytes.toBe16 udpLen) ∧
      8 ≤ udpLen.toNat ∧ udpLen.toNat ≤ payloadLen.toNat ∧
      40 + payloadLen.toNat ≤ packet.length ∧
      packet.slice? 48 (udpLen.toNat - 8) = some view.payload := by
  have word : ∀ index, (within : index + 2 ≤ packet.length) →
      packet.slice? index 2 =
        some (Bytes.toBe16 (Bytes.be16 packet[index] packet[index + 1])) := by
    intro index within
    rw [Bytes.toBe16_be16]
    exact Bytes.slice?_two within
  unfold parseIpv6Udp at parsed
  split at parsed
  · cases parsed
  next long =>
    split at parsed
    · cases parsed
    · simp only at parsed
      split at parsed
      · cases parsed
      next ipv6 =>
        split at parsed
        · cases parsed
        next udp =>
          rw [← Option.some.inj parsed]
          refine ⟨Bytes.be16 packet[4] packet[5], Bytes.be16 packet[44] packet[45],
            word 4 (by omega), word 44 (by omega), by omega, by omega, by omega, ?_⟩
          exact if_pos (by omega)

theorem length_buildIpv6Udp (src dst : Addr) (srcPort dstPort : UInt16) (payload : Bytes) :
    (buildIpv6Udp src dst srcPort dstPort payload).length = 48 + payload.length := by
  simp [buildIpv6Udp, src.property, dst.property]
  omega

/-- A strict prefix of a packet is not parsed. -/
theorem parseIpv6Udp_take (src dst : Addr) (srcPort dstPort : UInt16) {payload : Bytes}
    (fits : payload.length ≤ 65527) {size : Nat}
    (cut : size < (buildIpv6Udp src dst srcPort dstPort payload).length) :
    parseIpv6Udp ((buildIpv6Udp src dst srcPort dstPort payload).take size) = none := by
  rw [length_buildIpv6Udp] at cut
  have taken : ((buildIpv6Udp src dst srcPort dstPort payload).take size).length = size := by
    rw [List.length_take, length_buildIpv6Udp]
    omega
  cases parsed : parseIpv6Udp ((buildIpv6Udp src dst srcPort dstPort payload).take size) with
  | none => rfl
  | some view =>
      obtain ⟨payloadLen, udpLen, length, -, large, ordered, within, -⟩ := payload_of_parse parsed
      rw [taken] at within
      have long : 48 ≤ size := by omega
      have declared : Bytes.slice? ((buildIpv6Udp src dst srcPort dstPort payload).take size)
          4 2 = some (Bytes.toBe16 (UInt16.ofNat (8 + payload.length))) := by
        rw [Bytes.slice?, if_pos (by omega), List.drop_take, List.take_take,
          Nat.min_eq_left (by omega)]
        rfl
      rw [declared, Option.some.injEq] at length
      have word := congrArg UInt16.toNat (Bytes.toBe16_injective length)
      rw [UInt16.toNat_ofNat'] at word
      omega

/-- Building and parsing are inverse, and parsing stays in bounds: what is built
is read back whatever follows it, every strict prefix of it is refused, no read
of any byte string is out of range, and a payload is the part of the packet that
its lengths tell of. -/
theorem build_and_parse_are_inverse (src dst : Addr) (srcPort dstPort : UInt16)
    {payload : Bytes} (fits : payload.length ≤ 65527) :
    (∀ trailing, parseIpv6Udp (buildIpv6Udp src dst srcPort dstPort payload ++ trailing) =
      some { src, dst, srcPort, dstPort, payload }) ∧
    (∀ part, part <+: buildIpv6Udp src dst srcPort dstPort payload →
      part ≠ buildIpv6Udp src dst srcPort dstPort payload → parseIpv6Udp part = none) ∧
    (∀ packet, readIpv6Udp packet = .ok (parseIpv6Udp packet)) ∧
    (∀ packet view, parseIpv6Udp packet = some view → ∃ payloadLen udpLen : UInt16,
      packet.slice? 4 2 = some (Bytes.toBe16 payloadLen) ∧
      packet.slice? 44 2 = some (Bytes.toBe16 udpLen) ∧
      8 ≤ udpLen.toNat ∧ udpLen.toNat ≤ payloadLen.toNat ∧
      40 + payloadLen.toNat ≤ packet.length ∧
      packet.slice? 48 (udpLen.toNat - 8) = some view.payload) := by
  refine ⟨parseIpv6Udp_append src dst srcPort dstPort (by omega), ?_, readIpv6Udp_eq,
    fun packet view => payload_of_parse⟩
  intro part ahead strict
  have taken := List.prefix_iff_eq_take.mp ahead
  have shorter : part.length < (buildIpv6Udp src dst srcPort dstPort payload).length := by
    refine Nat.lt_of_le_of_ne ahead.length_le fun same => strict ?_
    exact ahead.eq_of_length same
  rw [taken]
  exact parseIpv6Udp_take src dst srcPort dstPort fits shorter

/-- A datagram on port 53 with two octets after it. -/
theorem datagram_is_read_back :
    parseIpv6Udp (buildIpv6Udp ⟨List.replicate 16 0xfd, rfl⟩ ⟨List.replicate 16 0xfc, rfl⟩
        40000 53 [104, 105] ++ [1, 2]) =
      some ⟨⟨List.replicate 16 0xfd, rfl⟩, ⟨List.replicate 16 0xfc, rfl⟩, 40000, 53,
        [104, 105]⟩ :=
  (build_and_parse_are_inverse _ _ _ _ (by decide)).1 [1, 2]

end Fips2Go.Packet
