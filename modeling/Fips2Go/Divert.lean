import Fips2Go.ByteStrings
import Fips2Go.FiniteTable
import Fips2Go.GuardedRuns
import Mathlib.Data.Fin.Basic
import Mathlib.Logic.Function.Basic

/-!
# The reply tap of in-process flows

`Divert` and `FlowGuard` of `shim/src/meshhttp.rs`.  A flow is open while its
guard lives; a packet from the mesh that belongs to an open flow is sent on
the flow's channel instead of to the inbound firewall and the TUN.  Which port
the search for a free one begins at is up to the caller of the step.
-/

namespace Fips2Go.MeshHttp

open GuardedRuns

abbrev Addr := FixedBytes 16

/-- (remote address, remote port, local port) of an in-process flow. -/
abbrev FlowKey := Addr × UInt16 × UInt16

def localPortsStart : UInt16 := 61000
def localPortsEnd : UInt16 := 65535

/-- The flow a packet from the mesh belongs to. -/
def flowKey (p : Bytes) : Option FlowKey :=
  if short : p.length < 44 then none
  else if p[0] >>> 4 ≠ 6 then none
  else if p[6] = 6 ∨ p[6] = 17 then
    some (p.sliceAt 8 16 (by omega), Bytes.be16 p[40] p[41], Bytes.be16 p[42] p[43])
  else if p[6] ≠ 58 then none
  else if reply : p[40] = 129 ∧ 48 ≤ p.length then
    some (p.sliceAt 8 16 (by omega), 0, Bytes.be16 p[44] p[45])
  else if error : p[40] = 1 ∧ 48 + 44 ≤ p.length then
    let q : Bytes := p.drop 48
    have long : 44 ≤ q.length := by
      rw [List.length_drop]
      omega
    if q[6] = 6 ∨ q[6] = 17 then
      some (q.sliceAt 24 16 (by omega), Bytes.be16 q[42] q[43], Bytes.be16 q[40] q[41])
    else none
  else none

/-- The sending end of a flow's channel. -/
abbrev Sender := Nat

structure Divert where
  active : Nat
  flows : FiniteTable FlowKey Sender

/-- Where a packet goes: down the channel of a flow, or back to the caller. -/
inductive Claim where
  | sent (tx : Sender)
  | given (packet : Bytes)
  deriving DecidableEq

def Divert.claim (divert : Divert) (packet : Bytes) : Claim :=
  if divert.active = 0 then .given packet
  else
    match flowKey packet with
    | none => .given packet
    | some key =>
        match divert.flows.get? key with
        | some tx => .sent tx
        | none => .given packet

/-- `LOCAL_PORTS.end() - LOCAL_PORTS.start() + 1` in 64 bits. -/
def span : UInt64 := (localPortsEnd - localPortsStart).toUInt64 + 1

/-- The port tried in round `i`. -/
def portAt (first i : UInt64) : UInt16 :=
  localPortsStart + ((first + i) % span).toUInt16

/-- The first round of the search that finds a free key. -/
def Divert.freePort (divert : Divert) (remote : Addr) (remotePort : UInt16)
    (random : UInt64) : Option UInt16 :=
  let first := random % span
  let rounds := (List.range span.toNat).map (fun i => portAt first (UInt64.ofNat i))
  rounds.find? (fun port => !divert.flows.contains (remote, remotePort, port))

/-- `FlowGuard`; its receiver is the other end of channel `tx`. -/
structure FlowGuard where
  key : FlowKey
  tx : Sender
  deriving DecidableEq

/-- The tap, the guards that live, what was sent on each channel, and the
number of channels made so far. -/
structure Tap where
  divert : Divert
  guards : List FlowGuard
  sent : Sender → List Bytes
  channels : Nat

def Tap.open (tap : Tap) (remote : Addr) (remotePort : UInt16) (random : UInt64) :
    Tap × Option FlowGuard :=
  match tap.divert.freePort remote remotePort random with
  | none => (tap, none)
  | some port =>
      let key := (remote, remotePort, port)
      let guard := ⟨key, tap.channels⟩
      ({ tap with
          divert :=
            { active := tap.divert.active + 1
              flows := tap.divert.flows.insert key tap.channels }
          guards := guard :: tap.guards
          channels := tap.channels + 1 }, some guard)

/-- `FlowGuard::drop`. -/
def Tap.drop (tap : Tap) (guard : FlowGuard) : Tap :=
  { tap with
    divert :=
      { active := tap.divert.active - 1
        flows := tap.divert.flows.remove guard.key }
    guards := tap.guards.erase guard }

def Tap.claim (tap : Tap) (packet : Bytes) : Tap × Option Bytes :=
  match tap.divert.claim packet with
  | .given packet => (tap, some packet)
  | .sent tx =>
      ({ tap with sent := Function.update tap.sent tx (tap.sent tx ++ [packet]) }, none)

inductive Op where
  | open (remote : Addr) (remotePort : UInt16) (random : UInt64)
  | drop (guard : FlowGuard)
  | claim (packet : Bytes)

/-- Only a guard that lives can be dropped. -/
def step (tap : Tap) : Op → Option Tap
  | .open remote remotePort random => some (tap.open remote remotePort random).1
  | .drop guard => if guard ∈ tap.guards then some (tap.drop guard) else none
  | .claim packet => some (tap.claim packet).1

/-- `Divert::default()`. -/
def initial : Tap where
  divert := { active := 0, flows := FiniteTable.empty }
  guards := []
  sent := fun _ => []
  channels := 0

/-! ### Packets by their layout -/

/-- The fixed header of an IPv6 packet; the octets between the first one and
the next header are the rest of the flow label and the payload length. -/
structure Header where
  first : UInt8
  between : FixedBytes 5
  nextHeader : UInt8
  hopLimit : UInt8
  src : Addr
  dst : Addr

def Header.bytes (header : Header) : Bytes :=
  header.first :: header.between.val ++ [header.nextHeader, header.hopLimit] ++
    header.src.val ++ header.dst.val

def Header.IsIpv6 (header : Header) : Prop := header.first >>> 4 = 6

/-- TCP or UDP follows. -/
def Header.HasPorts (header : Header) : Prop :=
  header.nextHeader = 6 ∨ header.nextHeader = 17

instance (header : Header) : Decidable header.IsIpv6 :=
  inferInstanceAs (Decidable (_ = _))

instance (header : Header) : Decidable header.HasPorts :=
  inferInstanceAs (Decidable (_ ∨ _))

/-- The packets that belong to a flow: TCP and UDP by their ports, an ICMPv6
echo reply by its identifier, and an ICMPv6 destination unreachable by the
ports of the TCP or UDP packet that it quotes. -/
inductive Belongs : Bytes → FlowKey → Prop
  | ports (header : Header) (ipv6 : header.IsIpv6) (next : header.HasPorts)
      (srcPort dstPort : UInt16) (rest : Bytes) :
      Belongs
        (header.bytes ++ (Bytes.toBe16 srcPort ++ Bytes.toBe16 dstPort ++ rest))
        (header.src, srcPort, dstPort)
  | echoReply (header : Header) (ipv6 : header.IsIpv6) (next : header.nextHeader = 58)
      (code : UInt8) (checksum ident seqNo : UInt16) (rest : Bytes) :
      Belongs
        (header.bytes ++ (129 :: code :: Bytes.toBe16 checksum ++ Bytes.toBe16 ident ++
          Bytes.toBe16 seqNo ++ rest))
        (header.src, 0, ident)
  | unreachable (header : Header) (ipv6 : header.IsIpv6) (next : header.nextHeader = 58)
      (code : UInt8) (checksum : UInt16) (unused : FixedBytes 4) (quoted : Header)
      (quotedNext : quoted.HasPorts) (srcPort dstPort : UInt16) (rest : Bytes) :
      Belongs
        (header.bytes ++ (1 :: code :: Bytes.toBe16 checksum ++ unused.val ++
          (quoted.bytes ++ (Bytes.toBe16 srcPort ++ Bytes.toBe16 dstPort ++ rest))))
        (quoted.dst, dstPort, srcPort)

namespace Header

variable (header : Header) (payload : Bytes)

@[simp] theorem length_bytes : header.bytes.length = 40 := by
  simp [bytes, header.between.property, header.src.property, header.dst.property]

/-- The header's octets with the five in between written out. -/
theorem bytes_eq : ∃ a b c d e, header.bytes =
    [header.first, a, b, c, d, e, header.nextHeader, header.hopLimit] ++
      (header.src.val ++ header.dst.val) := by
  obtain ⟨between, length⟩ : { between : Bytes // between = header.between.val } := ⟨_, rfl⟩
  have five := header.between.property
  rw [← length] at five
  match between, five with
  | [a, b, c, d, e], _ => exact ⟨a, b, c, d, e, by simp [bytes, ← length]⟩

theorem getElem_first (bound : 0 < (header.bytes ++ payload).length) :
    (header.bytes ++ payload)[0] = header.first := rfl

theorem getElem_nextHeader (bound : 6 < (header.bytes ++ payload).length) :
    (header.bytes ++ payload)[6] = header.nextHeader := by
  obtain ⟨a, b, c, d, e, eq⟩ := header.bytes_eq
  simp [eq]

theorem getElem_payload {index : Nat} (after : 40 ≤ index)
    (bound : index < (header.bytes ++ payload).length) :
    (header.bytes ++ payload)[index] =
      payload.get ⟨index - 40, by simp at bound; omega⟩ := by
  rw [List.getElem_append_right (by simpa using after)]
  simp

theorem sliceAt_src (within : 8 + 16 ≤ (header.bytes ++ payload).length) :
    Bytes.sliceAt (header.bytes ++ payload) 8 16 within = header.src := by
  obtain ⟨a, b, c, d, e, eq⟩ := header.bytes_eq
  apply Subtype.ext
  simp [Bytes.sliceAt_val, eq, header.src.property]

theorem sliceAt_dst (within : 24 + 16 ≤ (header.bytes ++ payload).length) :
    Bytes.sliceAt (header.bytes ++ payload) 24 16 within = header.dst := by
  obtain ⟨a, b, c, d, e, eq⟩ := header.bytes_eq
  apply Subtype.ext
  simp [Bytes.sliceAt_val, eq, header.src.property, header.dst.property]

end Header

private theorem exists_front {p : Bytes} {size : Nat} (long : size ≤ p.length) :
    ∃ (front : FixedBytes size) (rest : Bytes), p = front.val ++ rest :=
  ⟨⟨p.take size, by simpa using long⟩, p.drop size, (List.take_append_drop size p).symm⟩

/-- Forty octets are a header. -/
theorem exists_header {p : Bytes} (long : 40 ≤ p.length) :
    ∃ (header : Header) (payload : Bytes), p = header.bytes ++ payload := by
  match p, long with
  | first :: p, long =>
      simp only [List.length_cons] at long
      obtain ⟨between, p, rfl⟩ := exists_front (show 5 ≤ p.length by omega)
      simp only [List.length_append, between.property] at long
      match p, long with
      | nextHeader :: hopLimit :: p, long =>
          simp only [List.length_cons] at long
          obtain ⟨src, p, rfl⟩ := exists_front (show 16 ≤ p.length by omega)
          simp only [List.length_append, src.property] at long
          obtain ⟨dst, payload, rfl⟩ := exists_front (show 16 ≤ p.length by omega)
          exact ⟨⟨first, between, nextHeader, hopLimit, src, dst⟩, payload,
            by simp [Header.bytes]⟩

/-- The flow of a packet in terms of its header and what follows. -/
theorem flowKey_bytes (header : Header) (payload : Bytes) :
    flowKey (header.bytes ++ payload) =
      if short : payload.length < 4 then none
      else if ¬ header.IsIpv6 then none
      else if header.HasPorts then
        some (header.src, Bytes.be16 payload[0] payload[1], Bytes.be16 payload[2] payload[3])
      else if header.nextHeader ≠ 58 then none
      else if reply : payload[0] = 129 ∧ 8 ≤ payload.length then
        some (header.src, 0, Bytes.be16 payload[4] payload[5])
      else if error : payload[0] = 1 ∧ 8 + 44 ≤ payload.length then
        let q : Bytes := payload.drop 8
        have long : 44 ≤ q.length := by
          rw [List.length_drop]
          omega
        if q[6] = 6 ∨ q[6] = 17 then
          some (q.sliceAt 24 16 (by omega), Bytes.be16 q[42] q[43], Bytes.be16 q[40] q[41])
        else none
      else none := by
  unfold flowKey
  by_cases short : payload.length < 4
  · rw [dif_pos (by simp; omega), dif_pos short]
  · rw [dif_neg (by simp; omega), dif_neg short]
    simp only [header.getElem_first, header.getElem_nextHeader, header.sliceAt_src,
      header.getElem_payload _ (show 40 ≤ 40 by omega),
      header.getElem_payload _ (show 40 ≤ 41 by omega),
      header.getElem_payload _ (show 40 ≤ 42 by omega),
      header.getElem_payload _ (show 40 ≤ 43 by omega),
      header.getElem_payload _ (show 40 ≤ 44 by omega),
      header.getElem_payload _ (show 40 ≤ 45 by omega)]
    have echoes : 48 ≤ (header.bytes ++ payload).length ↔ 8 ≤ payload.length := by
      simp
      omega
    have quotes : 48 + 44 ≤ (header.bytes ++ payload).length ↔ 8 + 44 ≤ payload.length := by
      simp
      omega
    have quoted : (header.bytes ++ payload).drop 48 = payload.drop 8 := by
      simp [List.drop_append]
    simp only [echoes, quotes, quoted]
    rfl

/-- An ICMPv6 error is looked up by the packet after its own eight octets. -/
theorem flowKey_quote {header : Header} (quoted : Header) (ipv6 : header.IsIpv6)
    (next : header.nextHeader = 58) (icmp : FixedBytes 8)
    (error : icmp.val.head? = some 1) (payload : Bytes) :
    flowKey (header.bytes ++ (icmp.val ++ (quoted.bytes ++ payload))) =
      if short : payload.length < 4 then none
      else if quoted.HasPorts then
        some (quoted.dst, Bytes.be16 payload[2] payload[3], Bytes.be16 payload[0] payload[1])
      else none := by
  have portless : ¬ header.HasPorts := by simp [Header.HasPorts, next]
  have within : 0 < (icmp.val ++ (quoted.bytes ++ payload)).length := by
    rw [List.length_append, icmp.property]
    omega
  have kind : (icmp.val ++ (quoted.bytes ++ payload))[0] = 1 := by
    obtain ⟨more, split⟩ := List.head?_eq_some_iff.mp error
    simp [split]
  have quote : (icmp.val ++ (quoted.bytes ++ payload)).drop 8 = quoted.bytes ++ payload := by
    simp [icmp.property]
  have total : (icmp.val ++ (quoted.bytes ++ payload)).length = 48 + payload.length := by
    simp [icmp.property]
    omega
  rw [flowKey_bytes, dif_neg (by omega), if_neg (not_not.mpr ipv6), if_neg portless,
    if_neg (not_not.mpr next), dif_neg (by simp [kind])]
  by_cases short : payload.length < 4
  · rw [dif_neg (by omega), dif_pos short]
  · rw [dif_pos ⟨kind, by omega⟩, dif_neg short]
    simp only [quote, quoted.getElem_nextHeader, quoted.sliceAt_dst,
      quoted.getElem_payload _ (show 40 ≤ 40 by omega),
      quoted.getElem_payload _ (show 40 ≤ 41 by omega),
      quoted.getElem_payload _ (show 40 ≤ 42 by omega),
      quoted.getElem_payload _ (show 40 ≤ 43 by omega)]
    rfl

theorem flowKey_of_belongs {p : Bytes} {key : FlowKey} (belongs : Belongs p key) :
    flowKey p = some key := by
  induction belongs with
  | ports header ipv6 next srcPort dstPort rest =>
      rw [flowKey_bytes, dif_neg (by simp; omega), if_neg (not_not.mpr ipv6), if_pos next]
      simp [Bytes.toBe16, Bytes.be16_toBe16]
  | echoReply header ipv6 next code checksum ident seqNo rest =>
      have portless : ¬ header.HasPorts := by simp [Header.HasPorts, next]
      rw [flowKey_bytes, dif_neg (by simp), if_neg (not_not.mpr ipv6), if_neg portless,
        if_neg (not_not.mpr next), dif_pos (by simp; omega)]
      simp [Bytes.toBe16, Bytes.be16_toBe16]
  | unreachable header ipv6 next code checksum unused quoted quotedNext srcPort dstPort rest =>
      have eight : (1 :: code :: Bytes.toBe16 checksum ++ unused.val).length = 8 := by
        simp [unused.property]
      have quote := flowKey_quote quoted ipv6 next ⟨_, eight⟩ rfl
        (Bytes.toBe16 srcPort ++ Bytes.toBe16 dstPort ++ rest)
      rw [dif_neg (by simp; omega), if_pos quotedNext] at quote
      refine quote.trans ?_
      simp [Bytes.toBe16, Bytes.be16_toBe16]

/-- The first octets of a string that has them, as 16-bit words. -/
private theorem exists_words {p : Bytes} (long : 4 ≤ p.length) :
    ∃ (first second : UInt16) (rest : Bytes),
      p = Bytes.toBe16 first ++ Bytes.toBe16 second ++ rest := by
  match p, long with
  | a :: b :: c :: d :: rest, _ =>
      exact ⟨Bytes.be16 a b, Bytes.be16 c d, rest, by simp [Bytes.toBe16_be16]⟩

/-- An echo reply, or an error with the packet it quotes. -/
private theorem belongs_of_echoReply {header : Header} (ipv6 : header.IsIpv6)
    (next : header.nextHeader = 58) {payload : Bytes} (long : 8 ≤ payload.length)
    (type : payload[0] = 129) :
    Belongs (header.bytes ++ payload) (header.src, 0, Bytes.be16 payload[4] payload[5]) := by
  match payload, long with
  | first :: code :: payload, long =>
      simp only [List.length_cons] at long
      obtain ⟨checksum, ident, rest, rfl⟩ := exists_words (show 4 ≤ payload.length by omega)
      simp only [List.length_append, Bytes.length_toBe16] at long
      match rest, long with
      | high :: low :: rest, _ =>
          have belongs := Belongs.echoReply header ipv6 next code checksum ident
            (Bytes.be16 high low) rest
          have same : first = 129 := type
          subst same
          rw [Bytes.toBe16_be16] at belongs
          simpa [Bytes.toBe16, Bytes.be16_toBe16] using belongs

private theorem belongs_of_unreachable {header : Header} (ipv6 : header.IsIpv6)
    (next : header.nextHeader = 58) {payload : Bytes} (long : 8 + 44 ≤ payload.length)
    (type : payload[0] = 1) {key : FlowKey}
    (found : flowKey (header.bytes ++ payload) = some key) :
    Belongs (header.bytes ++ payload) key := by
  match payload, long with
  | first :: code :: payload, long =>
      simp only [List.length_cons] at long
      have same : first = 1 := type
      subst same
      match payload, long with
      | high :: low :: payload, long =>
          simp only [List.length_cons] at long
          obtain ⟨unused, quote, rfl⟩ := exists_front (show 4 ≤ payload.length by omega)
          simp only [List.length_append, unused.property] at long
          obtain ⟨quoted, body, rfl⟩ := exists_header (show 40 ≤ quote.length by omega)
          simp only [List.length_append, quoted.length_bytes] at long
          obtain ⟨srcPort, dstPort, rest, rfl⟩ := exists_words (show 4 ≤ body.length by omega)
          have eight : (1 :: code :: high :: low :: unused.val).length = 8 := by
            simp [unused.property]
          have looked := flowKey_quote quoted ipv6 next ⟨_, eight⟩ rfl
            (Bytes.toBe16 srcPort ++ Bytes.toBe16 dstPort ++ rest)
          rw [dif_neg (by simp; omega)] at looked
          have found := looked.symm.trans found
          by_cases quotedNext : quoted.HasPorts
          · rw [if_pos quotedNext] at found
            have same : (quoted.dst, dstPort, srcPort) = key := by
              simpa [Bytes.toBe16, Bytes.be16_toBe16] using found
            have belongs := Belongs.unreachable header ipv6 next code (Bytes.be16 high low)
              unused quoted quotedNext srcPort dstPort rest
            rw [Bytes.toBe16_be16, same] at belongs
            exact belongs
          · rw [if_neg quotedNext] at found
            cases found

theorem belongs_of_flowKey {p : Bytes} {key : FlowKey} (found : flowKey p = some key) :
    Belongs p key := by
  have long : 44 ≤ p.length := by
    by_contra short
    simp [flowKey, show p.length < 44 by omega] at found
  obtain ⟨header, payload, rfl⟩ := exists_header (show 40 ≤ p.length by omega)
  have nonempty : 4 ≤ payload.length := by
    simp at long
    omega
  have looked := found
  rw [flowKey_bytes, dif_neg (by omega)] at found
  by_cases ipv6 : header.IsIpv6
  · rw [if_neg (not_not.mpr ipv6)] at found
    by_cases transport : header.HasPorts
    · obtain ⟨srcPort, dstPort, rest, rfl⟩ := exists_words nonempty
      rw [if_pos transport] at found
      have same : (header.src, srcPort, dstPort) = key := by
        simpa [Bytes.toBe16, Bytes.be16_toBe16] using found
      exact same ▸ .ports header ipv6 transport srcPort dstPort rest
    · rw [if_neg transport] at found
      by_cases icmpv6 : header.nextHeader = 58
      · rw [if_neg (not_not.mpr icmpv6)] at found
        by_cases reply : payload[0] = 129 ∧ 8 ≤ payload.length
        · rw [dif_pos reply] at found
          cases found
          exact belongs_of_echoReply ipv6 icmpv6 reply.2 reply.1
        · rw [dif_neg reply] at found
          by_cases error : payload[0] = 1 ∧ 8 + 44 ≤ payload.length
          · exact belongs_of_unreachable ipv6 icmpv6 error.2 error.1 looked
          · rw [dif_neg error] at found
            cases found
      · rw [if_pos icmpv6] at found
        cases found
  · rw [if_pos ipv6] at found
    cases found

/-- The key of a packet tells the one flow it belongs to. -/
theorem flowKey_eq_some_iff {p : Bytes} {key : FlowKey} :
    flowKey p = some key ↔ Belongs p key :=
  ⟨belongs_of_flowKey, flowKey_of_belongs⟩

end Fips2Go.MeshHttp
