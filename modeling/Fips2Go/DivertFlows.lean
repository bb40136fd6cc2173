import Fips2Go.Divert

/-!
# What the reply tap takes

Over any run of openings, drops and claims the tap's table holds exactly the
keys of the guards that live.  A packet therefore reaches a flow exactly when
it belongs to it, and an error about a packet the flow has sent reaches the
flow unless that packet was an echo request.
-/

namespace Fips2Go.MeshHttp

open GuardedRuns

/-! ### Local ports -/

theorem span_toNat : span.toNat = 4536 := by decide

theorem first_lt (random : UInt64) : (random % span).toNat < 4536 := by
  rw [UInt64.toNat_mod, span_toNat]
  exact Nat.mod_lt _ (by decide)

/-- Neither the sum in 64 bits nor the port in 16 bits overflows. -/
theorem portAt_toNat {first i : UInt64} (within : first.toNat < 4536)
    (round : i.toNat < 4536) :
    (portAt first i).toNat = localPortsStart.toNat + (first.toNat + i.toNat) % span.toNat := by
  have start : localPortsStart.toNat = 61000 := by decide
  have small : (first.toNat + i.toNat) % 4536 < 4536 := Nat.mod_lt _ (by decide)
  simp only [portAt, UInt16.toNat_add, UInt64.toNat_toUInt16, UInt64.toNat_mod,
    UInt64.toNat_add, span_toNat, start]
  omega

theorem localPortsStart_le_portAt {first : UInt64} (within : first.toNat < 4536) {i : Nat}
    (round : i < 4536) : localPortsStart ≤ portAt first (UInt64.ofNat i) := by
  have small : (UInt64.ofNat i).toNat < 4536 := by
    rw [UInt64.toNat_ofNat']
    omega
  rw [UInt16.le_iff_toNat_le, portAt_toNat within small]
  exact Nat.le_add_right ..

theorem exists_round {first : UInt64} (within : first.toNat < 4536) {port : UInt16}
    (above : localPortsStart ≤ port) : ∃ i < 4536, portAt first (UInt64.ofNat i) = port := by
  have low : 61000 ≤ port.toNat := above
  have high := port.toNat_lt
  have start : localPortsStart.toNat = 61000 := by decide
  refine ⟨(port.toNat - 61000 + (4536 - first.toNat)) % 4536, Nat.mod_lt _ (by decide), ?_⟩
  have small : (port.toNat - 61000 + (4536 - first.toNat)) % 4536 < 4536 :=
    Nat.mod_lt _ (by decide)
  have round : (UInt64.ofNat ((port.toNat - 61000 + (4536 - first.toNat)) % 4536)).toNat =
      (port.toNat - 61000 + (4536 - first.toNat)) % 4536 := by
    rw [UInt64.toNat_ofNat']
    omega
  apply UInt16.toNat_inj.mp
  rw [portAt_toNat within (by omega), round, span_toNat, start]
  omega

section FreePort

variable {divert : Divert} {remote : Addr} {remotePort : UInt16} {random : UInt64}

theorem freePort_spec {port : UInt16}
    (found : divert.freePort remote remotePort random = some port) :
    divert.flows.contains (remote, remotePort, port) = false ∧ localPortsStart ≤ port := by
  unfold Divert.freePort at found
  have absent := List.find?_some found
  obtain ⟨i, round, rfl⟩ := List.mem_map.mp (List.mem_of_find?_eq_some found)
  rw [List.mem_range, span_toNat] at round
  exact ⟨by simpa using absent, localPortsStart_le_portAt (first_lt random) round⟩

/-- The search fails exactly when every local port is taken. -/
theorem freePort_eq_none_iff :
    divert.freePort remote remotePort random = none ↔
      ∀ port, localPortsStart ≤ port →
        divert.flows.contains (remote, remotePort, port) = true := by
  simp only [Divert.freePort, List.find?_eq_none, List.forall_mem_map, List.mem_range,
    span_toNat, Bool.not_eq_true, Bool.not_eq_false']
  constructor
  · intro taken port above
    obtain ⟨i, round, rfl⟩ := exists_round (first_lt random) above
    exact taken i round
  · intro taken i round
    apply taken
    exact localPortsStart_le_portAt (first_lt random) round

end FreePort

/-! ### The table and the guards -/

/-- The table holds the keys of the guards that live, each with a channel of
its own. -/
structure Coherent (tap : Tap) : Prop where
  active : tap.divert.active = tap.divert.flows.size
  stored : ∀ key tx, tap.divert.flows.get? key = some tx ↔ ⟨key, tx⟩ ∈ tap.guards
  nodup : tap.guards.Nodup
  ports : ∀ guard ∈ tap.guards, localPortsStart ≤ guard.key.2.2
  numbered : ∀ guard ∈ tap.guards, guard.tx < tap.channels
  channels : ∀ guard ∈ tap.guards, ∀ other ∈ tap.guards, guard.tx = other.tx → guard = other

namespace Coherent

variable {tap next : Tap}

theorem initial : Coherent initial := by
  constructor <;> simp [MeshHttp.initial, FiniteTable.size, FiniteTable.empty, FiniteTable.get?]

theorem contains_iff (coherent : Coherent tap) (key : FlowKey) :
    tap.divert.flows.contains key = true ↔ ∃ guard ∈ tap.guards, guard.key = key := by
  rw [FiniteTable.contains_iff]
  constructor
  · rintro ⟨tx, stored⟩
    exact ⟨_, (coherent.stored key tx).mp stored, rfl⟩
  · rintro ⟨guard, alive, rfl⟩
    exact ⟨guard.tx, (coherent.stored guard.key guard.tx).mpr alive⟩

theorem keys (coherent : Coherent tap) {guard other : FlowGuard}
    (alive : guard ∈ tap.guards) (alive' : other ∈ tap.guards)
    (same : guard.key = other.key) : guard = other := by
  have stored := (coherent.stored guard.key guard.tx).mpr alive
  have stored' := (coherent.stored other.key other.tx).mpr alive'
  rw [← same, stored] at stored'
  cases guard
  cases other
  simp_all

theorem openFlow (coherent : Coherent tap) (remote : Addr) (remotePort : UInt16)
    (random : UInt64) : Coherent (tap.open remote remotePort random).1 := by
  unfold Tap.open
  split
  next => exact coherent
  next port found =>
    obtain ⟨absent, above⟩ := freePort_spec found
    have unused : ∀ guard ∈ tap.guards, guard.key ≠ (remote, remotePort, port) := by
      intro guard alive same
      have present := (coherent.contains_iff _).mpr ⟨guard, alive, same⟩
      rw [absent] at present
      cases present
    constructor
    case active =>
      simp only [coherent.active, FiniteTable.size_insert_of_absent _ absent]
    case stored =>
      intro key tx
      rw [FiniteTable.get?_insert]
      split
      next same =>
        subst same
        simp only [Option.some.injEq, List.mem_cons, FlowGuard.mk.injEq, true_and]
        constructor
        · exact fun own => .inl own.symm
        · rintro (own | alive)
          · exact own.symm
          · exact absurd rfl (unused _ alive)
      next distinct => simp [coherent.stored, distinct]
    case nodup =>
      exact List.nodup_cons.mpr ⟨fun alive => unused _ alive rfl, coherent.nodup⟩
    case ports => simpa [above] using coherent.ports
    case numbered =>
      intro guard alive
      rcases List.mem_cons.mp alive with rfl | alive
      · exact Nat.lt_succ_self _
      · exact Nat.lt_succ_of_lt (coherent.numbered guard alive)
    case channels =>
      intro guard alive other alive' same
      rcases List.mem_cons.mp alive with rfl | alive
      · rcases List.mem_cons.mp alive' with rfl | alive'
        · rfl
        · exact absurd same.symm (Nat.ne_of_lt (coherent.numbered other alive'))
      · rcases List.mem_cons.mp alive' with rfl | alive'
        · exact absurd same (Nat.ne_of_lt (coherent.numbered guard alive))
        · exact coherent.channels guard alive other alive' same

theorem dropGuard (coherent : Coherent tap) {guard : FlowGuard}
    (alive : guard ∈ tap.guards) : Coherent (tap.drop guard) := by
  have present := (coherent.contains_iff guard.key).mpr ⟨guard, alive, rfl⟩
  have left (other : FlowGuard) :
      other ∈ tap.guards.erase guard ↔ other ≠ guard ∧ other ∈ tap.guards :=
    coherent.nodup.mem_erase_iff
  constructor
  case active =>
    have freed := FiniteTable.size_remove_of_contains _ present
    simp only [Tap.drop, coherent.active]
    omega
  case stored =>
    intro key tx
    simp only [Tap.drop, left]
    by_cases own : key = guard.key
    · subst own
      rw [FiniteTable.get?_remove_self]
      simp only [reduceCtorEq, false_iff]
      rintro ⟨distinct, alive'⟩
      exact distinct (coherent.keys alive' alive rfl)
    · rw [FiniteTable.get?_remove_of_ne _ own, coherent.stored]
      refine ⟨fun alive' => ⟨?_, alive'⟩, And.right⟩
      rintro rfl
      exact own rfl
  case nodup => exact coherent.nodup.erase guard
  case ports => exact fun other alive' => coherent.ports other ((left other).mp alive').2
  case numbered => exact fun other alive' => coherent.numbered other ((left other).mp alive').2
  case channels =>
    exact fun one alive' other alive'' => coherent.channels one ((left one).mp alive').2 other
      ((left other).mp alive'').2

theorem claimPacket (coherent : Coherent tap) (packet : Bytes) :
    Coherent (tap.claim packet).1 := by
  unfold Tap.claim
  split
  · exact coherent
  · exact ⟨coherent.active, coherent.stored, coherent.nodup, coherent.ports,
      coherent.numbered, coherent.channels⟩

theorem step (coherent : Coherent tap) {op : Op}
    (stepTo : MeshHttp.step tap op = some next) : Coherent next := by
  cases op with
  | «open» remote remotePort random =>
      simp only [MeshHttp.step, Option.some.injEq] at stepTo
      subst stepTo
      exact coherent.openFlow remote remotePort random
  | drop guard =>
      simp only [MeshHttp.step] at stepTo
      split at stepTo
      next alive =>
        cases stepTo
        exact coherent.dropGuard alive
      next => cases stepTo
  | claim packet =>
      simp only [MeshHttp.step, Option.some.injEq] at stepTo
      subst stepTo
      exact coherent.claimPacket packet

theorem run {ops : List Op} (run : Run MeshHttp.step anyStep MeshHttp.initial ops tap) :
    Coherent tap :=
  run.invariant initial fun _ _ _ coherent _ stepTo => coherent.step stepTo

end Coherent

/-! ### What a claim does -/

/-- The packet goes to the flow that `guard` keeps open, and nowhere else. -/
structure Reaches (tap : Tap) (guard : FlowGuard) (packet : Bytes) : Prop where
  taken : (tap.claim packet).2 = none
  delivered : (tap.claim packet).1.sent guard.tx = tap.sent guard.tx ++ [packet]
  others : ∀ tx, tx ≠ guard.tx → (tap.claim packet).1.sent tx = tap.sent tx
  kept : (tap.claim packet).1.divert = tap.divert ∧ (tap.claim packet).1.guards = tap.guards

namespace Coherent

variable {tap : Tap}

theorem reaches (coherent : Coherent tap) {packet : Bytes} {guard : FlowGuard}
    (alive : guard ∈ tap.guards)
    (own : flowKey packet = some guard.key) : Reaches tap guard packet := by
  have stored := (coherent.stored guard.key guard.tx).mpr alive
  have active : tap.divert.active ≠ 0 := by
    rw [coherent.active]
    have entry := (tap.divert.flows.get?_eq_some_iff guard.key guard.tx).mp stored
    exact Nat.ne_of_gt (List.length_pos_of_mem entry)
  have claimed : tap.claim packet =
      ({ tap with sent :=
        Function.update tap.sent guard.tx (tap.sent guard.tx ++ [packet]) }, none) := by
    simp only [Tap.claim, Divert.claim, if_neg active, own, stored]
  constructor <;> simp +contextual [claimed]

/-- What belongs to no open flow is given back, and nothing changes. -/
theorem givenBack (coherent : Coherent tap) (packet : Bytes)
    (foreign : ∀ guard ∈ tap.guards, flowKey packet ≠ some guard.key) :
    tap.claim packet = (tap, some packet) := by
  have given : tap.divert.claim packet = .given packet := by
    unfold Divert.claim
    split
    · rfl
    · split
      · rfl
      next key found =>
        split
        next tx stored =>
          exact absurd found (foreign _ ((coherent.stored key tx).mp stored))
        · rfl
  simp only [Tap.claim, given]

end Coherent

/-- Between operations the tap knows exactly the flows that are open, and a
claim takes exactly their packets. -/
structure Exact (tap : Tap) : Prop where
  active : tap.divert.active = tap.divert.flows.size
  keys : (tap.guards.map FlowGuard.key).Nodup
  channels : (tap.guards.map FlowGuard.tx).Nodup
  ports : ∀ guard ∈ tap.guards,
    localPortsStart ≤ guard.key.2.2 ∧ guard.key.2.2 ≤ localPortsEnd
  noOverflow : ∀ random round : UInt64, round < span →
    (portAt (random % span) round).toNat =
      localPortsStart.toNat + ((random % span).toNat + round.toNat) % span.toNat
  fails_iff : ∀ remote remotePort random,
    (tap.open remote remotePort random).2 = none ↔
      ∀ port, localPortsStart ≤ port → port ≤ localPortsEnd →
        ∃ guard ∈ tap.guards, guard.key = (remote, remotePort, port)
  consumes_iff : ∀ packet, (tap.claim packet).2 = none ↔
    ∃ guard ∈ tap.guards, Belongs packet guard.key
  delivers : ∀ packet, ∀ guard ∈ tap.guards,
    Belongs packet guard.key → Reaches tap guard packet
  givesBack : ∀ packet, (∀ guard ∈ tap.guards, ¬ Belongs packet guard.key) →
    tap.claim packet = (tap, some packet)

theorem le_localPortsEnd (port : UInt16) : port ≤ localPortsEnd := by
  have bound := port.toNat_lt
  rw [UInt16.le_iff_toNat_le]
  exact Nat.le_of_lt_succ bound

theorem open_eq_none_iff (tap : Tap) (remote : Addr) (remotePort : UInt16) (random : UInt64) :
    (tap.open remote remotePort random).2 = none ↔
      tap.divert.freePort remote remotePort random = none := by
  unfold Tap.open
  split <;> simp_all

namespace Coherent

variable {tap : Tap} (coherent : Coherent tap)
include coherent

theorem keysNodup : (tap.guards.map FlowGuard.key).Nodup :=
  coherent.nodup.map_on fun _ alive _ alive' same => coherent.keys alive alive' same

theorem channelsNodup : (tap.guards.map FlowGuard.tx).Nodup :=
  coherent.nodup.map_on fun _ alive _ alive' same => coherent.channels _ alive _ alive' same

theorem fails_iff (remote : Addr) (remotePort : UInt16) (random : UInt64) :
    (tap.open remote remotePort random).2 = none ↔
      ∀ port, localPortsStart ≤ port → port ≤ localPortsEnd →
        ∃ guard ∈ tap.guards, guard.key = (remote, remotePort, port) := by
  rw [open_eq_none_iff, freePort_eq_none_iff]
  simp only [coherent.contains_iff, le_localPortsEnd, true_implies]

theorem consumes_iff (packet : Bytes) :
    (tap.claim packet).2 = none ↔ ∃ guard ∈ tap.guards, Belongs packet guard.key := by
  constructor
  · intro taken
    by_contra foreign
    push Not at foreign
    have given := coherent.givenBack packet fun guard alive own =>
      foreign guard alive (flowKey_eq_some_iff.mp own)
    rw [given] at taken
    cases taken
  · rintro ⟨guard, alive, belongs⟩
    exact (coherent.reaches alive (flowKey_eq_some_iff.mpr belongs)).taken

theorem toExact : Exact tap where
  active := coherent.active
  keys := coherent.keysNodup
  channels := coherent.channelsNodup
  ports guard alive := ⟨coherent.ports guard alive, le_localPortsEnd _⟩
  noOverflow random round within := by
    rw [UInt64.lt_iff_toNat_lt, span_toNat] at within
    exact portAt_toNat (first_lt random) within
  fails_iff := coherent.fails_iff
  consumes_iff := coherent.consumes_iff
  delivers packet guard alive belongs :=
    coherent.reaches alive (flowKey_eq_some_iff.mpr belongs)
  givesBack packet foreign := coherent.givenBack packet fun guard alive own =>
    foreign guard alive (flowKey_eq_some_iff.mp own)

end Coherent

/-- Over any openings, drops and claims of arbitrary strings the tap takes the
packets of the flows that are open and no others. -/
theorem tap_takes_exactly_its_flows {ops : List Op} {tap : Tap}
    (run : Run step anyStep initial ops tap) : Exact tap :=
  (Coherent.run run).toExact

private def peer : Addr := ⟨List.replicate 16 0xfd, rfl⟩

private def us : Addr := ⟨List.replicate 16 0xfc, rfl⟩

private def header (nextHeader : UInt8) (src dst : Addr) : Header :=
  { first := 0x60, between := ⟨[0, 0, 0, 0, 8], rfl⟩, nextHeader, hopLimit := 64, src, dst }

/-- A reply on port 80 to the flow that the first opening yields. -/
private def segment : Bytes :=
  (header 6 peer us).bytes ++ (Bytes.toBe16 80 ++ Bytes.toBe16 61000 ++ [])

theorem tap_takes_a_segment : ∃ tap,
    Run step anyStep initial [.open peer 80 0, .claim segment] tap ∧ Exact tap ∧
      tap.sent 0 = [segment] ∧ tap.guards = [⟨(peer, 80, 61000), 0⟩] := by
  have passed : (execute step anyStep initial [.open peer 80 0, .claim segment]).any
      (fun tap => decide (tap.sent 0 = [segment] ∧
        tap.guards = [⟨(peer, 80, 61000), 0⟩])) = true := by decide +kernel
  obtain ⟨tap, run, sent, guards⟩ := exists_run_of_execute _ passed
  exact ⟨tap, run, tap_takes_exactly_its_flows run, sent, guards⟩

/-! ### Errors about what a flow has sent -/

inductive FlowKind where
  | exchange
  | relay
  | query
  | ping
  deriving DecidableEq

/-- The payload of the echo requests of `echo`. -/
def pingData : Bytes :=
  "fips-pubdom reachability".toList.map fun letter => UInt8.ofNat letter.toNat

/-- The packets that a flow sends to its remote: an exchange and a relay TCP
segments, a query UDP datagrams, a ping echo requests. -/
inductive Sends : FlowKind → FlowKey → Bytes → Prop
  | segment (kind : FlowKind) (overTcp : kind = .exchange ∨ kind = .relay) (header : Header)
      (ipv6 : header.IsIpv6) (next : header.nextHeader = 6) (remotePort localPort : UInt16)
      (rest : Bytes) (whole : 16 ≤ rest.length) :
      Sends kind (header.dst, remotePort, localPort)
        (header.bytes ++ (Bytes.toBe16 localPort ++ Bytes.toBe16 remotePort ++ rest))
  | datagram (header : Header) (ipv6 : header.IsIpv6) (next : header.nextHeader = 17)
      (remotePort localPort length checksum : UInt16) (payload : Bytes) :
      Sends .query (header.dst, remotePort, localPort)
        (header.bytes ++ (Bytes.toBe16 localPort ++ Bytes.toBe16 remotePort ++
          (Bytes.toBe16 length ++ Bytes.toBe16 checksum ++ payload)))
  | echoRequest (header : Header) (ipv6 : header.IsIpv6) (next : header.nextHeader = 58)
      (checksum ident seqNo : UInt16) :
      Sends .ping (header.dst, 0, ident)
        (header.bytes ++ (128 :: 0 :: Bytes.toBe16 checksum ++ Bytes.toBe16 ident ++
          Bytes.toBe16 seqNo ++ pingData))

/-- A destination unreachable, from whatever router, about a packet of which
it quotes the first 48 octets or more. -/
inductive ErrorAbout (packet : Bytes) : Bytes → Prop
  | intro (header : Header) (ipv6 : header.IsIpv6) (next : header.nextHeader = 58)
      (code : UInt8) (checksum : UInt16) (unused : FixedBytes 4) (quote : Bytes)
      (quotes : packet.take 48 <+: quote) :
      ErrorAbout packet
        (header.bytes ++ (1 :: code :: Bytes.toBe16 checksum ++ unused.val ++ quote))

/-- The protocol of the packets that a flow of this kind sends. -/
def FlowKind.nextHeader : FlowKind → UInt8
  | .exchange | .relay => 6
  | .query => 17
  | .ping => 58

theorem hasPorts_iff {kind : FlowKind} {header : Header}
    (next : header.nextHeader = kind.nextHeader) : header.HasPorts ↔ kind ≠ .ping := by
  rw [Header.HasPorts, next]
  cases kind <;> decide

theorem take_front (header : Header) (front : FixedBytes 8) {payload : Bytes} (rest : Bytes)
    (split : payload = front.val ++ rest) :
    (header.bytes ++ payload).take 48 = header.bytes ++ front.val := by
  subst split
  rw [← List.append_assoc, List.take_left' (by simp [front.property])]

/-- The first 48 octets of a sent packet: a header to the remote, and after it
the two ports unless the flow is a ping. -/
theorem Sends.exists_front {kind : FlowKind} {key : FlowKey} {packet : Bytes}
    (sends : Sends kind key packet) :
    ∃ (header : Header) (front : FixedBytes 8),
      packet.take 48 = header.bytes ++ front.val ∧ header.nextHeader = kind.nextHeader ∧
      (kind ≠ .ping → header.dst = key.1 ∧ ∃ rest,
        front.val = Bytes.toBe16 key.2.2 ++ Bytes.toBe16 key.2.1 ++ rest) := by
  induction sends with
  | segment kind overTcp header ipv6 next remotePort localPort rest whole =>
      have eight : (Bytes.toBe16 localPort ++ Bytes.toBe16 remotePort ++
          rest.take 4).length = 8 := by
        simp
        omega
      refine ⟨header, ⟨_, eight⟩, take_front header _ (rest.drop 4) (by simp), ?_,
        fun _ => ⟨rfl, _, rfl⟩⟩
      rcases overTcp with rfl | rfl <;> exact next
  | datagram header ipv6 next remotePort localPort length checksum payload =>
      have eight : (Bytes.toBe16 localPort ++ Bytes.toBe16 remotePort ++
          (Bytes.toBe16 length ++ Bytes.toBe16 checksum)).length = 8 := by simp
      exact ⟨header, ⟨_, eight⟩, take_front header _ payload (by simp), next,
        fun _ => ⟨rfl, _, rfl⟩⟩
  | echoRequest header ipv6 next checksum ident seqNo =>
      have eight : (128 :: 0 :: Bytes.toBe16 checksum ++ Bytes.toBe16 ident ++
          Bytes.toBe16 seqNo).length = 8 := by simp
      exact ⟨header, ⟨_, eight⟩, take_front header _ pingData (by simp), next,
        fun portless => absurd rfl portless⟩

/-- The flow an error is looked up under is that of the packet it is about,
unless that was an echo request: then it is no flow's. -/
theorem flowKey_errorAbout {kind : FlowKind} {key : FlowKey} {packet error : Bytes}
    (sends : Sends kind key packet) (about : ErrorAbout packet error) :
    flowKey error = if kind = .ping then none else some key := by
  obtain ⟨quoted, front, split, next', ported⟩ := sends.exists_front
  induction about with
  | intro header ipv6 next code checksum unused quote quotes =>
      obtain ⟨more, rfl⟩ := quotes
      have eight : (1 :: code :: Bytes.toBe16 checksum ++ unused.val).length = 8 := by
        simp [unused.property]
      have looked := flowKey_quote quoted ipv6 next ⟨_, eight⟩ rfl (front.val ++ more)
      rw [dif_neg (by simp [front.property]; omega)] at looked
      rw [split, List.append_assoc quoted.bytes, looked]
      simp only [hasPorts_iff next']
      by_cases portless : kind = .ping
      · simp [portless]
      · obtain ⟨dst, rest, words⟩ := ported portless
        simp [portless, words, dst, Bytes.toBe16, Bytes.be16_toBe16]

/-- An error about a packet that an open flow has sent reaches that flow
exactly when the flow is not a ping. -/
theorem errors_reach_flow_iff {ops : List Op} {tap : Tap}
    (run : Run step anyStep initial ops tap) {guard : FlowGuard} (alive : guard ∈ tap.guards)
    {kind : FlowKind} {packet : Bytes} (sends : Sends kind guard.key packet) {error : Bytes}
    (about : ErrorAbout packet error) : Reaches tap guard error ↔ kind ≠ .ping := by
  have coherent := Coherent.run run
  have looked := flowKey_errorAbout sends about
  by_cases portless : kind = .ping
  · rw [if_pos portless] at looked
    have given := coherent.givenBack error fun guard alive own => by
      rw [looked] at own
      cases own
    constructor
    · intro reaches
      have taken := reaches.taken
      rw [given] at taken
      cases taken
    · exact fun ported => absurd portless ported
  · rw [if_neg portless] at looked
    exact ⟨fun _ => portless, fun _ => coherent.reaches alive looked⟩

private def unused : FixedBytes 4 := ⟨[0, 0, 0, 0], rfl⟩

/-- The first segment of an exchange with port 80. -/
private def request : Bytes :=
  (header 6 us peer).bytes ++ (Bytes.toBe16 61000 ++ Bytes.toBe16 80 ++ List.replicate 16 0)

private def echoRequest : Bytes :=
  (header 58 us peer).bytes ++ (128 :: 0 :: Bytes.toBe16 0 ++ Bytes.toBe16 61000 ++
    Bytes.toBe16 0 ++ pingData)

/-- No route to the destination, from a router at the remote's address. -/
private def noRoute (packet : Bytes) : Bytes :=
  (header 58 peer us).bytes ++ (1 :: 0 :: Bytes.toBe16 0 ++ unused.val ++ packet)

private theorem noRoute_about (packet : Bytes) : ErrorAbout packet (noRoute packet) :=
  .intro _ (by decide) rfl 0 0 unused packet (List.take_prefix 48 packet)

private theorem exists_open (remotePort : UInt16)
    (opened : (initial.open peer remotePort 0).2 = some ⟨(peer, remotePort, 61000), 0⟩) :
    ∃ tap, Run step anyStep initial [.open peer remotePort 0] tap ∧
      ⟨(peer, remotePort, 61000), 0⟩ ∈ tap.guards := by
  refine ⟨_, .snoc .nil trivial rfl, ?_⟩
  unfold Tap.open at opened ⊢
  split at opened
  next => cases opened
  next =>
    simp only [Option.some.injEq] at opened
    simp [opened]

theorem noRoute_reaches_exchange : ∃ tap,
    Run step anyStep initial [.open peer 80 0] tap ∧
      Reaches tap ⟨(peer, 80, 61000), 0⟩ (noRoute request) := by
  obtain ⟨tap, run, alive⟩ := exists_open 80 (by decide +kernel)
  have sends : Sends .exchange (peer, 80, 61000) request :=
    .segment .exchange (.inl rfl) (header 6 us peer) (by decide) rfl 80 61000 _ (by decide)
  exact ⟨tap, run, (errors_reach_flow_iff run alive sends (noRoute_about _)).mpr (by decide)⟩

/-- A ping's error is given back although its packet is quoted whole. -/
theorem noRoute_misses_ping : ¬ ∀ (ops : List Op) (tap : Tap) (guard : FlowGuard)
    (kind : FlowKind) (packet error : Bytes), Run step anyStep initial ops tap →
      guard ∈ tap.guards → Sends kind guard.key packet → ErrorAbout packet error →
      Reaches tap guard error := by
  intro reach
  obtain ⟨tap, run, alive⟩ := exists_open 0 (by decide +kernel)
  have sends : Sends .ping (peer, 0, 61000) echoRequest :=
    .echoRequest (header 58 us peer) (by decide) rfl 0 61000 0
  have reaches := reach _ tap _ .ping echoRequest _ run alive sends (noRoute_about _)
  have taken := reaches.taken
  have looked : flowKey (noRoute echoRequest) = none :=
    flowKey_errorAbout sends (noRoute_about echoRequest)
  rw [(Coherent.run run).givenBack _ (by simp [looked])] at taken
  cases taken

end Fips2Go.MeshHttp
