import Fips2Go.ByteStrings
import Mathlib

/-!
# IPv6/UDP packets

`shim/src/packet.rs`: the two functions with which the DNS proxy takes a query
out of a tunnel packet and wraps its reply.  Parsing knows no extension
headers; building fills in the checksum that UDP over IPv6 requires.
-/

namespace Fips2Go.Packet

abbrev Addr := FixedBytes 16

/-- The sum of the 16-bit words of a string, a last odd octet padded with
zero, in a 32-bit accumulator. -/
def addWords (sum : Nat) : Bytes → Nat
  | [] => sum
  | [high] => (sum + (Bytes.be16 high 0).toNat) % 2 ^ 32
  | high :: low :: rest => addWords ((sum + (Bytes.be16 high low).toNat) % 2 ^ 32) rest

/-- `while sum > 0xffff`, with `fuel` bounding the number of rounds. -/
def foldCarries : Nat → Nat → Nat
  | 0, sum => sum
  | fuel + 1, sum =>
      if sum > 0xffff then foldCarries fuel (sum % 0x10000 + sum / 0x10000) else sum

/-- The octets of a 32-bit word, most significant first. -/
def toBe32 (word : Nat) : Bytes :=
  Bytes.toBe16 (UInt16.ofNat (word / 0x10000)) ++ Bytes.toBe16 (UInt16.ofNat word)

def udpChecksum (src dst : Addr) (udp : Bytes) : UInt16 :=
  let sum := addWords 0 src.val
  let sum := addWords sum dst.val
  let sum := addWords sum (toBe32 (udp.length % 2 ^ 32))
  let sum := addWords sum [0, 0, 0, 17]
  let sum := addWords sum udp
  let folded := ~~~ UInt16.ofNat (foldCarries sum sum)
  if folded = 0 then 0xffff else folded

def buildIpv6Udp (src dst : Addr) (srcPort dstPort : UInt16) (payload : Bytes) : Bytes :=
  let udpLen := UInt16.ofNat (8 + payload.length)
  let ports := Bytes.toBe16 srcPort ++ Bytes.toBe16 dstPort ++ Bytes.toBe16 udpLen
  let checksum := udpChecksum src dst (ports ++ [0, 0] ++ payload)
  [0x60, 0, 0, 0] ++ Bytes.toBe16 udpLen ++ [17, 64] ++ src.val ++ dst.val ++
    (ports ++ Bytes.toBe16 checksum ++ payload)

structure Ipv6Udp where
  src : Addr
  dst : Addr
  srcPort : UInt16
  dstPort : UInt16
  payload : Bytes
  deriving DecidableEq, Repr

def parseIpv6Udp (packet : Bytes) : Option Ipv6Udp :=
  if short : packet.length < 48 then none
  else if packet[0] >>> 4 ≠ 6 ∨ packet[6] ≠ 17 then none
  else
    let payloadLen := (Bytes.be16 packet[4] packet[5]).toNat
    if payloadLen < 8 ∨ packet.length < 40 + payloadLen then none
    else
      let udpLen := (Bytes.be16 packet[44] packet[45]).toNat
      if udpLen < 8 ∨ udpLen > payloadLen then none
      else some {
        src := packet.sliceAt 8 16 (by omega)
        dst := packet.sliceAt 24 16 (by omega)
        srcPort := Bytes.be16 packet[40] packet[41]
        dstPort := Bytes.be16 packet[42] packet[43]
        payload := (packet.drop 48).take (udpLen - 8) }

/-- What is built is parsed back, whatever follows it, as long as its length fits
into 16 bits. -/
theorem parseIpv6Udp_append (src dst : Addr) (srcPort dstPort : UInt16) {payload : Bytes}
    (small : payload.length < 65528) (trailing : Bytes) :
    parseIpv6Udp (buildIpv6Udp src dst srcPort dstPort payload ++ trailing) =
      some { src, dst, srcPort, dstPort, payload } := by
  have size : (UInt16.ofNat (8 + payload.length)).toNat = 8 + payload.length := by
    rw [UInt16.toNat_ofNat']
    omega
  have srcLength := src.property
  have dstLength := dst.property
  simp only [buildIpv6Udp]
  generalize udpChecksum src dst _ = checksum
  obtain ⟨l0, l1, length, sized⟩ := Bytes.exists_octets (UInt16.ofNat (8 + payload.length))
  obtain ⟨s0, s1, source, read⟩ := Bytes.exists_octets srcPort
  obtain ⟨d0, d1, target, read'⟩ := Bytes.exists_octets dstPort
  obtain ⟨c0, c1, checked, _⟩ := Bytes.exists_octets checksum
  rw [← sized] at size
  simp only [length, source, target, checked, List.append_assoc, List.cons_append,
    List.nil_append]
  unfold parseIpv6Udp
  rw [dif_neg (by simp [srcLength, dstLength]; omega)]
  simp [srcLength, dstLength, size, read, read']
  refine ⟨by decide, by omega, Subtype.ext ?_, Subtype.ext ?_, ?_⟩
  · simp [Bytes.sliceAt_val, srcLength]
  · simp [Bytes.sliceAt_val, srcLength, dstLength]
  · have pastSrc : src.val.drop 40 = [] := List.drop_eq_nil_of_le (by omega)
    have pastDst : dst.val.drop 24 = [] := List.drop_eq_nil_of_le (by omega)
    simp [List.drop_append, srcLength, dstLength, pastSrc, pastDst]

theorem parseIpv6Udp_buildIpv6Udp (src dst : Addr) (srcPort dstPort : UInt16) {payload : Bytes}
    (small : payload.length < 65528) :
    parseIpv6Udp (buildIpv6Udp src dst srcPort dstPort payload) =
      some { src, dst, srcPort, dstPort, payload } := by
  have parsed := parseIpv6Udp_append src dst srcPort dstPort small []
  rwa [List.append_nil] at parsed

end Fips2Go.Packet
