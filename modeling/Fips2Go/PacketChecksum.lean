import Fips2Go.OnesComplement
import Fips2Go.Packet

/-!
# The UDP checksum

What `udp_checksum` computes, over the words that it adds.  The accumulator
holds their sum without wrapping, two rounds fold it, and the complement of
what is left brings the receiver's sum to all ones.
-/

namespace Fips2Go.Packet

open OnesComplement (words carry)

/-- The words that are added up, in the order of the additions. -/
def summedWords (src dst : Addr) (udp : Bytes) : List Nat :=
  words src.val ++ words dst.val ++ words (toBe32 (udp.length % 2 ^ 32)) ++
    words [0, 0, 0, 17] ++ words udp

/-- The accumulator when the carries are about to be folded. -/
def accumulated (src dst : Addr) (udp : Bytes) : Nat :=
  addWords (addWords (addWords (addWords (addWords 0 src.val) dst.val)
    (toBe32 (udp.length % 2 ^ 32))) [0, 0, 0, 17]) udp

/-- The segment of a packet to be built, before its checksum is filled in. -/
def unsummed (srcPort dstPort : UInt16) (payload : Bytes) : Bytes :=
  Bytes.toBe16 srcPort ++ Bytes.toBe16 dstPort ++
    Bytes.toBe16 (UInt16.ofNat (8 + payload.length)) ++ [0, 0] ++ payload

/-- What a receiver sums with the segment: both addresses, the length, and the
next header. -/
def pseudoHeader (packet : Bytes) : Bytes :=
  (packet.drop 8).take 32 ++ toBe32 (packet.length - 40) ++ [0, 0, 0] ++ (packet.drop 6).take 1

theorem addWords_eq {sum : Nat} {bytes : Bytes} (fits : sum < 2 ^ 32) :
    addWords sum bytes = (sum + (words bytes).sum) % 2 ^ 32 := by
  induction bytes using List.twoStepInduction generalizing sum with
  | nil =>
      simp only [addWords, words, List.sum_nil, Nat.add_zero]
      exact (Nat.mod_eq_of_lt fits).symm
  | singleton high => simp [addWords, words]
  | cons_cons high low rest ih =>
      rw [addWords, ih (Nat.mod_lt _ (by decide)), Nat.mod_add_mod, words, List.sum_cons,
        Nat.add_assoc]

theorem sum_summedWords_lt (src dst : Addr) {udp : Bytes} (short : udp.length ≤ 0xffff) :
    (summedWords src dst udp).sum < 2 ^ 32 := by
  have srcSum := OnesComplement.sum_words_le src.val
  have dstSum := OnesComplement.sum_words_le dst.val
  have lengthSum := OnesComplement.sum_words_le (toBe32 (udp.length % 2 ^ 32))
  have nextSum := OnesComplement.sum_words_le [0, 0, 0, 17]
  have udpSum := OnesComplement.sum_words_le udp
  rw [src.property] at srcSum
  rw [dst.property] at dstSum
  have four : (toBe32 (udp.length % 2 ^ 32)).length = 4 := rfl
  rw [four] at lengthSum
  simp only [List.length_cons, List.length_nil] at nextSum
  simp only [summedWords, List.sum_append]
  omega

/-- No addition overflows. -/
theorem sum_lt_of_prefix {src dst : Addr} {udp : Bytes} (short : udp.length ≤ 0xffff)
    {summed : List Nat} (ahead : summed <+: summedWords src dst udp) : summed.sum < 2 ^ 32 := by
  obtain ⟨rest, parts⟩ := ahead
  have total := sum_summedWords_lt src dst short
  rw [← parts, List.sum_append] at total
  omega

theorem accumulated_eq {src dst : Addr} {udp : Bytes} (short : udp.length ≤ 0xffff) :
    accumulated src dst udp = (summedWords src dst udp).sum := by
  have wrapped : accumulated src dst udp = (summedWords src dst udp).sum % 2 ^ 32 := by
    simp (disch := omega) only [accumulated, summedWords, addWords_eq, Nat.mod_add_mod,
      List.sum_append, Nat.zero_add]
  rw [wrapped]
  exact Nat.mod_eq_of_lt (sum_summedWords_lt src dst short)

theorem foldCarries_of_le {total : Nat} (small : total ≤ 0xffff) (rounds : Nat) :
    foldCarries rounds total = total := by
  cases rounds with
  | zero => rfl
  | succ rounds => exact if_neg (by omega)

theorem foldCarries_succ {total : Nat} (large : total > 0xffff) (rounds : Nat) :
    foldCarries (rounds + 1) total = foldCarries rounds (carry total) :=
  if_pos large

theorem foldCarries_spec (rounds total : Nat) :
    foldCarries rounds total % 0xffff = total % 0xffff ∧
      (foldCarries rounds total = 0 ↔ total = 0) := by
  induction rounds generalizing total with
  | zero => exact ⟨rfl, Iff.rfl⟩
  | succ rounds ih =>
      by_cases large : total > 0xffff
      · obtain ⟨residue, zero, -⟩ := OnesComplement.carry_spec total
        rw [foldCarries_succ large, (ih _).1, (ih _).2]
        exact ⟨residue, zero⟩
      · rw [foldCarries_of_le (by omega)]
        exact ⟨rfl, Iff.rfl⟩

/-- The loop ends after two rounds. -/
theorem foldCarries_ends {total : Nat} (fits : total < 2 ^ 32) (more : Nat) :
    foldCarries (more + 2) total = foldCarries 2 total ∧ foldCarries 2 total ≤ 0xffff := by
  by_cases large : total > 0xffff
  · rw [foldCarries_succ large, foldCarries_succ large]
    by_cases larger : carry total > 0xffff
    · have ended := OnesComplement.carry_carry_le fits
      rw [foldCarries_succ larger, foldCarries_succ larger, foldCarries_of_le ended,
        foldCarries_of_le ended]
      exact ⟨rfl, ended⟩
    · rw [foldCarries_of_le (by omega), foldCarries_of_le (by omega)]
      exact ⟨rfl, by omega⟩
  · rw [foldCarries_of_le (by omega), foldCarries_of_le (by omega)]
    exact ⟨rfl, by omega⟩

/-- The checksum is not zero, and complements the sum. -/
theorem udpChecksum_spec (src dst : Addr) {udp : Bytes} (short : udp.length ≤ 0xffff) :
    udpChecksum src dst udp ≠ 0 ∧
      ((summedWords src dst udp).sum + (udpChecksum src dst udp).toNat) % 0xffff = 0 := by
  have fits := sum_summedWords_lt src dst short
  have computed : udpChecksum src dst udp =
      if ~~~ UInt16.ofNat (foldCarries (accumulated src dst udp) (accumulated src dst udp)) = 0
      then 0xffff
      else ~~~ UInt16.ofNat (foldCarries (accumulated src dst udp) (accumulated src dst udp)) :=
    rfl
  rw [accumulated_eq short] at computed
  generalize (summedWords src dst udp).sum = total at computed fits ⊢
  obtain ⟨residue, -⟩ := foldCarries_spec total total
  have folded : foldCarries total total ≤ 0xffff := by
    by_cases large : total > 0xffff
    · obtain ⟨same, ended⟩ := foldCarries_ends fits (total - 2)
      rw [show total - 2 + 2 = total by omega] at same
      omega
    · rw [foldCarries_of_le (by omega)]
      omega
  have complement : (~~~ UInt16.ofNat (foldCarries total total)).toNat =
      0xffff - foldCarries total total := by
    rw [UInt16.toNat_not, UInt16.toNat_ofNat']
    simp only [UInt16.size]
    omega
  rw [computed]
  split
  next zero =>
    rw [zero] at complement
    have ones : (0xffff : UInt16).toNat = 0xffff := rfl
    have none : (0 : UInt16).toNat = 0 := rfl
    exact ⟨by decide, by omega⟩
  next nonzero => exact ⟨nonzero, by omega⟩

/-! ### Built packets -/

/-- The ports and the length. -/
def udpPorts (srcPort dstPort : UInt16) (payload : Bytes) : Bytes :=
  Bytes.toBe16 srcPort ++ Bytes.toBe16 dstPort ++
    Bytes.toBe16 (UInt16.ofNat (8 + payload.length))

theorem buildIpv6Udp_eq (src dst : Addr) (srcPort dstPort : UInt16) (payload : Bytes) :
    buildIpv6Udp src dst srcPort dstPort payload =
      [0x60, 0, 0, 0] ++ Bytes.toBe16 (UInt16.ofNat (8 + payload.length)) ++ [17, 64] ++
        src.val ++ dst.val ++ (udpPorts srcPort dstPort payload ++
          Bytes.toBe16 (udpChecksum src dst (unsummed srcPort dstPort payload)) ++ payload) :=
  rfl

theorem words_toBe16 (word : UInt16) (rest : Bytes) :
    words (Bytes.toBe16 word ++ rest) = word.toNat :: words rest := by
  simp only [Bytes.toBe16, List.cons_append, List.nil_append, words, Bytes.be16_toBe16]

/-- Filling in the checksum adds it to the sum. -/
theorem sum_words_checksum (srcPort dstPort checksum : UInt16) (payload : Bytes) :
    (words (udpPorts srcPort dstPort payload ++ Bytes.toBe16 checksum ++ payload)).sum =
      (words (unsummed srcPort dstPort payload)).sum + checksum.toNat := by
  have zero : ([0, 0] : Bytes) = Bytes.toBe16 0 := by decide
  simp only [unsummed, udpPorts, zero, List.append_assoc, words_toBe16, List.sum_cons]
  have none : (0 : UInt16).toNat = 0 := rfl
  omega

theorem pseudoHeader_buildIpv6Udp (src dst : Addr) (srcPort dstPort : UInt16) (payload : Bytes) :
    pseudoHeader (buildIpv6Udp src dst srcPort dstPort payload) =
      src.val ++ dst.val ++ toBe32 (8 + payload.length) ++ [0, 0, 0, 17] := by
  have srcLength := src.property
  have dstLength := dst.property
  have size : (buildIpv6Udp src dst srcPort dstPort payload).length - 40 =
      8 + payload.length := by
    simp [buildIpv6Udp_eq, udpPorts, srcLength, dstLength]
    omega
  unfold pseudoHeader
  rw [size, buildIpv6Udp_eq]
  simp [Bytes.toBe16, List.take_append, srcLength, dstLength]

theorem segment_buildIpv6Udp (src dst : Addr) (srcPort dstPort : UInt16) (payload : Bytes) :
    (buildIpv6Udp src dst srcPort dstPort payload).drop 40 =
      udpPorts srcPort dstPort payload ++
        Bytes.toBe16 (udpChecksum src dst (unsummed srcPort dstPort payload)) ++ payload := by
  rw [buildIpv6Udp_eq]
  exact List.drop_left' (by simp [src.property, dst.property])

theorem checksum_buildIpv6Udp (src dst : Addr) (srcPort dstPort : UInt16) (payload : Bytes) :
    (buildIpv6Udp src dst srcPort dstPort payload).slice? 46 2 =
      some (Bytes.toBe16 (udpChecksum src dst (unsummed srcPort dstPort payload))) := by
  have front : (buildIpv6Udp src dst srcPort dstPort payload).take 40 ++
      udpPorts srcPort dstPort payload ++
        Bytes.toBe16 (udpChecksum src dst (unsummed srcPort dstPort payload)) ++ payload =
      buildIpv6Udp src dst srcPort dstPort payload := by
    rw [List.append_assoc, List.append_assoc, ← List.append_assoc (udpPorts ..),
      ← segment_buildIpv6Udp, List.take_append_drop]
  have sliced := Bytes.slice?_append
    ((buildIpv6Udp src dst srcPort dstPort payload).take 40 ++ udpPorts srcPort dstPort payload)
    (Bytes.toBe16 (udpChecksum src dst (unsummed srcPort dstPort payload))) payload
  have position : ((buildIpv6Udp src dst srcPort dstPort payload).take 40 ++
      udpPorts srcPort dstPort payload).length = 46 := by
    simp [buildIpv6Udp_eq, udpPorts, src.property, dst.property]
    omega
  rwa [front, position] at sliced

/-- The UDP checksum of every packet that is built verifies: the receiver's sum
is all ones, the field is not zero, no addition overflows, and the folding
ends. -/
theorem checksum_verifies (src dst : Addr) (srcPort dstPort : UInt16) {payload : Bytes}
    (fits : payload.length ≤ 65527) :
    let packet := buildIpv6Udp src dst srcPort dstPort payload
    let udp := unsummed srcPort dstPort payload
    OnesComplement.sum (words (pseudoHeader packet ++ packet.drop 40)) = 0xffff ∧
      (∃ checksum, packet.slice? 46 2 = some (Bytes.toBe16 checksum) ∧ checksum ≠ 0) ∧
      (∀ summed, summed <+: summedWords src dst udp → summed.sum < 2 ^ 32) ∧
      (∀ more, foldCarries (more + 2) (accumulated src dst udp) =
          foldCarries 2 (accumulated src dst udp) ∧
        foldCarries 2 (accumulated src dst udp) ≤ 0xffff) := by
  intro packet udp
  have size : udp.length = 8 + payload.length := by
    simp [udp, unsummed]
    omega
  have short : udp.length ≤ 0xffff := by omega
  obtain ⟨nonzero, complements⟩ := udpChecksum_spec src dst short
  have received : (words (pseudoHeader packet ++ packet.drop 40)).sum =
      (summedWords src dst udp).sum + (udpChecksum src dst udp).toNat := by
    have width : (8 + payload.length) % 2 ^ 32 = 8 + payload.length := by omega
    have even : (src.val ++ dst.val ++ toBe32 (8 + payload.length)).length % 2 = 0 := by
      simp [src.property, dst.property, toBe32]
    rw [pseudoHeader_buildIpv6Udp, segment_buildIpv6Udp]
    rw [OnesComplement.words_append (by simp [src.property, dst.property, toBe32]),
      OnesComplement.words_append even,
      OnesComplement.words_append (by simp [src.property, dst.property]),
      OnesComplement.words_append (by simp [src.property])]
    simp only [summedWords, List.sum_append, sum_words_checksum, size, width, Nat.add_assoc]
    rfl
  refine ⟨?_, ⟨_, checksum_buildIpv6Udp .., nonzero⟩, fun summed => sum_lt_of_prefix short, ?_⟩
  · refine OnesComplement.sum_eq_ones (fun word => OnesComplement.word_le) ?_ ?_
    · rw [received]
      exact complements
    · have positive : (udpChecksum src dst udp).toNat ≠ 0 :=
        fun zero => nonzero (UInt16.toNat_inj.mp zero)
      omega
  · intro more
    have total := sum_summedWords_lt src dst short
    rw [← accumulated_eq short] at total
    exact foldCarries_ends total more

/-- A payload of seven octets, whose last word is padded. -/
theorem odd_payload_verifies :
    let packet := buildIpv6Udp ⟨List.replicate 16 1, rfl⟩ ⟨List.replicate 16 2, rfl⟩ 1234 53
      [97, 98, 99, 120, 121, 122, 33]
    OnesComplement.sum (words (pseudoHeader packet ++ packet.drop 40)) = 0xffff :=
  (checksum_verifies _ _ _ _ (by decide)).1

end Fips2Go.Packet
