import Fips2Go.DnsForward
import Fips2Go.DnsReply
import Fips2Go.DnsTranslation

/-!
# One reply for each query

Whoever produces the payload, a query that the proxy intercepts is answered by
one packet, back from the address that it was sent to, with its transaction id.
No reply of the proxy's own making outgrows a datagram; what the names lookup
and the clamp make is assumed not to.
-/

namespace Fips2Go.Dns

open Packet (Addr Ipv6Udp parseIpv6Udp buildIpv6Udp)

/-- `DnsProxy::intercepts`. -/
def intercepts (packet : Bytes) (dnsAddr : Addr) : Bool :=
  match parseIpv6Udp packet with
  | none => false
  | some query => query.dstPort = 53 ∧ query.dst = dnsAddr

/-- A payload for a datagram that answers `query`. -/
structure Answers (query reply : Bytes) : Prop where
  id : reply.take 2 = query.take 2
  fits : reply.length < 65528

/-- What the proxy relies on: a names answer carries the id of its query, the
clamp keeps the header, and neither outgrows a datagram. -/
structure Promises (pubdom : PubdomCore) (proxy : DnsProxy) : Prop where
  answer : ∀ lookup, proxy.names = some lookup → ∀ query asked reply,
    DecidedAs (some (lookup query).outcome) asked (some (.answer reply)) → Answers query reply
  clampHeader : ∀ legacy cap clamped, pubdom.clampTtls legacy cap = some clamped →
    clamped.take 12 = legacy.take 12
  clampFits : ∀ legacy cap clamped, pubdom.clampTtls legacy cap = some clamped →
    legacy.length < 65528 → clamped.length < 65528

/-! ### Replies of one exchange -/

theorem forward_answers {proxy : DnsProxy} {network : Network} {query reply : Bytes}
    {server : SocketAddr} {protect : Bool}
    (replied : (forward proxy network query server protect).1 = some reply) :
    reply.take 2 = query.take 2 ∧ reply.length ≤ maxResponse := by
  rw [forward_reply] at replied
  obtain ⟨arrival, found, rfl⟩ := Option.map_eq_some_iff.mp replied
  have matched : Matches query arrival := by simpa using List.find?_some found
  exact ⟨matched.2.2, List.length_take_le ..⟩

theorem answers_of_le {query reply : Bytes}
    (answered : reply.take 2 = query.take 2 ∧ reply.length ≤ maxResponse) :
    Answers query reply :=
  ⟨answered.1, Nat.lt_of_le_of_lt answered.2 (by decide)⟩

theorem forwardFrom_answers {proxy : DnsProxy} {networks : Nat → Network}
    {query reply : Bytes} {index : Nat} {upstreams : List SocketAddr}
    (replied : (forwardFrom proxy networks query index upstreams).1 = some reply) :
    Answers query reply := by
  induction upstreams generalizing index with
  | nil => cases replied
  | cons upstream upstreams ih =>
      unfold forwardFrom at replied
      split at replied
      next first events forwarded =>
        have own : first = reply := Option.some.inj replied
        subst own
        exact answers_of_le (forward_answers (congrArg Prod.fst forwarded))
      next events forwarded => exact ih replied

theorem upstreamReply_answers {proxy : DnsProxy} {world : World} {query reply : Bytes}
    (replied : upstreamReply proxy world query = some reply) : Answers query reply := by
  unfold upstreamReply at replied
  split at replied
  · split at replied
    · exact forwardFrom_answers replied
    · exact forwardFrom_answers replied
  · exact forwardFrom_answers replied

section Names

variable {pubdom : PubdomCore} {proxy : DnsProxy} (promises : Promises pubdom proxy)
include promises

theorem clampTo_answers {query legacy : Bytes} (answers : Answers query legacy) (cap : Nat) :
    Answers query (clampTo pubdom legacy cap) := by
  unfold clampTo
  cases clamp : pubdom.clampTtls legacy cap with
  | none => exact answers
  | some clamped =>
      have header := congrArg (List.take 2) (promises.clampHeader _ _ _ clamp)
      rw [List.take_take, List.take_take] at header
      exact ⟨header.trans answers.id, promises.clampFits _ _ _ clamp answers.fits⟩

theorem expectedReply_answers {world : World} {query reply : Bytes} {asked : Nat}
    {decision : Option Decided}
    (decided : DecidedAs (proxy.names.map fun lookup => (lookup query).outcome) asked decision)
    (replied : expectedReply pubdom (upstreamReply proxy world query) decision = some reply) :
    Answers query reply := by
  match decision, replied with
  | some (.answer answer), replied =>
      cases on : proxy.names with
      | none =>
          rw [on] at decided
          cases decided
      | some lookup =>
          rw [on] at decided
          rw [← Option.some.inj replied]
          exact promises.answer lookup on query asked answer decided
  | some .legacy, replied => exact upstreamReply_answers replied
  | some (.capped cap), replied =>
      obtain ⟨legacy, upstream, rfl⟩ := Option.map_eq_some_iff.mp replied
      exact clampTo_answers promises (upstreamReply_answers upstream) cap
  | none, replied =>
      obtain ⟨legacy, upstream, rfl⟩ := Option.map_eq_some_iff.mp replied
      exact clampTo_answers promises (upstreamReply_answers upstream) _

end Names

/-! ### The re-issued reply -/

/-- A name that `parse_qname` reads ends within 257 octets of its start, one
more than what is read already. -/
theorem questionNameEnd_le {message : Bytes} {fuel fuel' pos last : Nat}
    {name qname : List Char} (spelled : qnameFrom message fuel pos name = some qname)
    (ended : questionNameEnd message fuel' pos = some last) :
    last ≤ pos + (256 - utf8Len name + if name = [] then 1 else 0) := by
  induction fuel generalizing fuel' pos name with
  | zero => cases spelled
  | succ fuel ih =>
      cases fuel' with
      | zero => cases ended
      | succ fuel' =>
          unfold qnameFrom at spelled
          unfold questionNameEnd at ended
          cases octet : message[pos]? with
          | none => simp [octet] at spelled
          | some len =>
              simp only [octet] at spelled ended
              by_cases root : len = 0
              · rw [if_pos root, Option.some.injEq] at ended
                omega
              · rw [if_neg root] at spelled ended
                split at spelled
                next => cases spelled
                next short =>
                  cases slice : message.slice? (pos + 1) len.toNat with
                  | none => simp [slice] at spelled
                  | some label =>
                      simp only [slice] at spelled
                      split at ended
                      next =>
                        have spelled : qnameFrom message fuel (pos + 1 + len.toNat)
                            (appendLabel name label) = some qname := spelled
                        have next := ih spelled ended
                        have nonempty : 0 < len.toNat := by
                          rw [Nat.pos_iff_ne_zero]
                          exact fun zero => root (UInt8.toNat_inj.mp zero)
                        have size : label.length = len.toNat := by
                          simp only [Bytes.slice?] at slice
                          split at slice
                          · rw [← Option.some.inj slice, List.length_take, List.length_drop]
                            omega
                          · cases slice
                        have kept := appendLabel_ne_nil name (size ▸ nonempty)
                        rw [if_neg kept, utf8Len_appendLabel] at next
                        have grown := le_labelBytes label
                        split at next <;> simp_all <;> omega
                      next => cases ended

theorem questionEnd_le {message : Bytes} {qname : List Char} {qend : Nat}
    (named : parseQname message = some qname) (ended : questionEnd message = some qend) :
    5 ≤ qend ∧ qend ≤ 274 ∧ qend ≤ message.length := by
  unfold parseQname at named
  unfold questionEnd at ended
  split at named
  · cases named
  · split at named
    · cases named
    · split at ended
      · cases ended
      next last nameEnd =>
        split at ended
        next within =>
          have bound := questionNameEnd_le named nameEnd
          rw [← Option.some.inj ended]
          simp at bound
          omega
        next => cases ended

theorem lt_ownerEnd {reply : Bytes} {fuel pos next : Nat}
    (ended : ownerEnd reply fuel pos = some next) : pos < next := by
  induction fuel generalizing pos with
  | zero => cases ended
  | succ fuel ih =>
      unfold ownerEnd at ended
      cases octet : reply[pos]? with
      | none => simp [octet] at ended
      | some len =>
          simp only [octet] at ended
          split at ended
          · simp at ended
            omega
          · split at ended
            · simp at ended
              omega
            · have later := ih ended
              omega

/-- A record that is kept takes 27 octets of the reply at least and 28 octets
of the answer. -/
theorem length_answerRecords {reply : Bytes} {count pos answers found : Nat}
    {out records : Bytes}
    (read : answerRecords reply count pos out answers = some (records, found))
    (within : pos ≤ reply.length) :
    27 * records.length ≤ 27 * out.length + 28 * (reply.length - pos) := by
  induction count generalizing pos out answers with
  | zero =>
      simp only [answerRecords, Option.some.injEq, Prod.mk.injEq] at read
      rw [read.1]
      omega
  | succ count ih =>
      unfold answerRecords at read
      split at read
      · cases read
      next next owner =>
        have forward := lt_ownerEnd owner
        split at read
        next t0 t1 c0 c1 l0 l1 l2 l3 r0 r1 fixed =>
          cases data : reply.slice? (next + 10) (Bytes.be16 r0 r1).toNat with
          | none => simp [data] at read
          | some rdata =>
              obtain ⟨ends, size⟩ := Bytes.slice?_bounds data
              simp only [data] at read
              split at read
              next kept =>
                have rest := ih read ends
                simp only [List.length_append, List.length_cons, List.length_nil, size] at rest
                omega
              next =>
                have rest := ih read ends
                omega
        next => cases read

theorem answerAsAsked_answers {query reply asked : Bytes} {qname : List Char}
    (named : parseQname query = some qname) (short : reply.length ≤ maxResponse)
    (reissued : answerAsAsked query reply = some asked) : Answers query asked := by
  unfold answerAsAsked at reissued
  split at reissued
  next qend flags pos ended flagBytes replyEnd =>
    obtain ⟨five, bounded, within⟩ := questionEnd_le named ended
    split at reissued
    next high low counts =>
      cases read : answerRecords reply (Bytes.be16 high low).toNat pos [] 0 with
      | none => simp [read] at reissued
      | some found =>
          obtain ⟨records, answers⟩ := found
          have ahead : pos ≤ reply.length := by
            unfold questionEnd at replyEnd
            split at replyEnd
            · cases replyEnd
            · split at replyEnd
              · rw [← Option.some.inj replyEnd]
                assumption
              · cases replyEnd
          have size := length_answerRecords read ahead
          have two := (Bytes.slice?_bounds flagBytes).2
          have limit : maxResponse = 4096 := rfl
          simp only [read, Option.some.injEq] at reissued
          rw [← reissued]
          constructor
          · have id : (query.take 2).length = 2 := by
              rw [List.length_take]
              omega
            simp only [List.append_assoc]
            exact List.take_left' id
          · simp only [List.length_append, List.length_take, List.length_drop, two,
              Bytes.length_toBe16, List.length_cons, List.length_nil] at size ⊢
            omega
    next => cases reissued
  next => cases reissued

theorem fipsReply_answers {proxy : DnsProxy} {world : World} {query reply : Bytes}
    (replied : (fipsReply proxy world query ((parseQname query).getD [])).1 = some reply) :
    Answers query reply := by
  unfold fipsReply at replied
  split at replied
  next npub mapped =>
    obtain ⟨qname, named⟩ : ∃ qname, parseQname query = some qname := by
      cases named : parseQname query with
      | none => simp [named, hostsNpub, stripDotFips, dotFips] at mapped
      | some qname => exact ⟨qname, rfl⟩
    split at replied
    · cases replied
    next translated translation =>
      obtain ⟨answer, forwarded, reissued⟩ := Option.bind_eq_some_iff.mp replied
      exact answerAsAsked_answers named (forward_answers forwarded).2 reissued
  next => exact answers_of_le (forward_answers replied)

/-! ### SERVFAIL -/

theorem servfailFor_answers {query reply : Bytes} (short : query.length < 65528)
    (failed : servfailFor query = some reply) : Answers query reply := by
  unfold servfailFor at failed
  split at failed
  next =>
    rw [← Option.some.inj failed]
    exact ⟨rfl, short⟩
  next => cases failed

theorem servfailFor_isSome {query : Bytes} (long : 12 ≤ query.length) :
    ∃ reply, servfailFor query = some reply := by
  match query, long with
  | _ :: _ :: _ :: _ :: _ :: _ :: _ :: _ :: _ :: _ :: _ :: _ :: _, _ => exact ⟨_, rfl⟩

/-- A parsed payload leaves room for the UDP header in 16 bits. -/
theorem length_payload_lt {packet : Bytes} {query : Ipv6Udp}
    (parsed : parseIpv6Udp packet = some query) : query.payload.length < 65528 := by
  unfold parseIpv6Udp at parsed
  split at parsed
  · cases parsed
  · split at parsed
    · cases parsed
    · simp only at parsed
      split at parsed
      · cases parsed
      · split at parsed
        · cases parsed
        next fits =>
          rw [← Option.some.inj parsed]
          have bound := (Bytes.be16 packet[44] packet[45]).toNat_lt
          simp only [List.length_take]
          omega

/-! ### What reaches the tunnel -/

/-- At most one packet, and one where the query has a header; it goes back the
way that the query came, with its id. -/
structure OneReply (query : Ipv6Udp) (packets : List Bytes) : Prop where
  atMost : packets.length ≤ 1
  sent : 12 ≤ query.payload.length → packets.length = 1
  addressed : ∀ packet ∈ packets, ∃ payload,
    parseIpv6Udp packet =
      some { src := query.dst, dst := query.src, srcPort := 53, dstPort := query.srcPort,
             payload } ∧
    payload.take 2 = query.payload.take 2

/-- Any reply that answers the query, and SERVFAIL for want of one. -/
theorem oneReply_respond {query : Ipv6Udp} (short : query.payload.length < 65528)
    {reply : Option Bytes} (answers : ∀ payload, reply = some payload →
      Answers query.payload payload) {trace : Trace} (silent : emitted trace.serving = []) :
    OneReply query (emitted (respond query reply trace).serving) := by
  rw [emitted_respond, silent, List.nil_append]
  have answered : ∀ payload, reply.or (servfailFor query.payload) = some payload →
      Answers query.payload payload := by
    intro payload chosen
    cases given : reply with
    | none =>
        rw [given, Option.none_or] at chosen
        exact servfailFor_answers short chosen
    | some own =>
        rw [given, Option.some_or, Option.some.injEq] at chosen
        subst chosen
        exact answers own given
  constructor
  case atMost =>
    cases reply.or (servfailFor query.payload) <;> simp
  case sent =>
    intro long
    obtain ⟨failure, failed⟩ := servfailFor_isSome long
    cases reply <;> simp [failed]
  case addressed =>
    intro packet member
    rw [Option.mem_toList, Option.map_eq_some_iff] at member
    obtain ⟨payload, chosen, rfl⟩ := member
    have own := answered payload chosen
    exact ⟨payload, Packet.parseIpv6Udp_buildIpv6Udp _ _ _ _ own.fits, own.id⟩

theorem emitted_take {events : List Event} (silent : emitted events = []) (count : Nat) :
    emitted (events.take count) = [] := by
  unfold emitted at silent ⊢
  rw [List.filterMap_eq_nil_iff] at silent ⊢
  exact fun event member => silent event (List.mem_of_mem_take member)

theorem emitted_prefetching {pubdom : PubdomCore} {proxy : DnsProxy} {world : World}
    {query : Bytes} {reply : Option Bytes} {trace : Trace}
    (replied : publicReply pubdom proxy world query = some (reply, trace)) :
    emitted trace.prefetching = [] := by
  have quiet := (Quiet.forwardUpstreams proxy world.prefetchNet query).1
  unfold publicReply at replied
  split at replied
  · simp only [Option.some.injEq, Prod.mk.injEq] at replied
    rw [← replied.2]
    rfl
  · simp only at replied
    split at replied
    · cases replied
    · simp only [Option.some.injEq, Prod.mk.injEq] at replied
      rw [← replied.2]
      simp only
      split
      · unfold prefetchEvents
        split
        · rfl
        · exact emitted_take quiet _
        · exact quiet
      · rfl

theorem emitted_fipsReply (proxy : DnsProxy) (world : World) (query : Bytes)
    (qname : List Char) : emitted (fipsReply proxy world query qname).2 = [] := by
  unfold fipsReply
  split
  · split
    · rfl
    · exact (Quiet.forward ..).1
  · exact (Quiet.forward ..).1

/-- Whatever the responder, the upstreams, the hosts file and the lookup do, an
intercepted query gets its one reply. -/
theorem one_reply_per_query {pubdom : PubdomCore} {proxy : DnsProxy}
    (promises : Promises pubdom proxy) {packet : Bytes} {dnsAddr : Addr}
    (intercepted : intercepts packet dnsAddr = true) (world : World) :
    ∃ query trace, parseIpv6Udp packet = some query ∧
      query.dst = dnsAddr ∧ query.dstPort = 53 ∧
      serve pubdom proxy world packet = some trace ∧
      OneReply query (emitted trace.serving) ∧ emitted trace.prefetching = [] := by
  unfold intercepts at intercepted
  split at intercepted
  next => cases intercepted
  next query parsed =>
    obtain ⟨port, addressed⟩ : query.dstPort = 53 ∧ query.dst = dnsAddr := by
      simpa using intercepted
    have short := length_payload_lt parsed
    cases fips : isFips ((parseQname query.payload).getD []) with
    | true =>
        refine ⟨query, respond query
          (fipsReply proxy world query.payload ((parseQname query.payload).getD [])).1
          ⟨(fipsReply proxy world query.payload ((parseQname query.payload).getD [])).2, []⟩,
          parsed, addressed, port, ?_, ?_, ?_⟩
        · simp [serve, parsed, fips]
        · exact oneReply_respond short (fun payload replied => fipsReply_answers replied)
            (emitted_fipsReply ..)
        · unfold respond
          split <;> rfl
    | false =>
        obtain ⟨reply, trace, asked, decision, replied, decided, _, silent, expected⟩ :=
          publicReply_spec pubdom proxy world query.payload
        refine ⟨query, respond query reply trace, parsed, addressed, port, ?_, ?_, ?_⟩
        · simp [serve, parsed, fips, replied]
        · refine oneReply_respond short (fun payload given => ?_) silent
          exact expectedReply_answers promises decided (expected ▸ given)
        · have quiet := emitted_prefetching replied
          unfold respond
          split <;> exact quiet

/-- A lookup that answers at once, with the query's header. -/
private def headerLookup (query : Bytes) : LookupRun where
  pendingCalls := 0
  outcome := .answer (query.take 12)

private def publicProxy : DnsProxy :=
  { plainProxy with names := some headerLookup }

private theorem promises_publicProxy : Promises keepTtls publicProxy where
  answer lookup on query asked reply decided := by
    obtain rfl : headerLookup = lookup := Option.some.inj on
    cases decided
    constructor
    · exact List.take_take
    · exact Nat.lt_of_le_of_lt (List.length_take_le 12 query) (by decide)
  clampHeader legacy cap clamped clamp := congrArg (List.take 12) (Option.some.inj clamp).symm
  clampFits legacy cap clamped clamp short := Option.some.inj clamp ▸ short

theorem public_query_gets_one_reply :
    let query := queryOf (dnsQuery [homeLabel])
    ∃ parsed trace, parseIpv6Udp (tunnelPacket query) = some parsed ∧
      parsed.dst = query.dst ∧ parsed.dstPort = 53 ∧
      serve keepTtls publicProxy silentWorld (tunnelPacket query) = some trace ∧
      OneReply parsed (emitted trace.serving) ∧ emitted trace.prefetching = [] := by
  intro query
  exact one_reply_per_query promises_publicProxy (by decide +kernel) silentWorld

end Fips2Go.Dns
