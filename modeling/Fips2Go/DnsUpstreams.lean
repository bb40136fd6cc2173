import Fips2Go.DnsReply
import Mathlib.Logic.Function.Iterate

/-!
# How often the upstreams are asked

Four places of `serve` can ask the upstreams: the prefetching thread, the wait
that follows an early release, and the two fall-backs after the lookup.  This
file shows that a reply that was fetched or is on its way is never asked for
again, and that an answer that is there at once asks no upstream.
-/

namespace Fips2Go.Dns

open Packet (Ipv6Udp parseIpv6Udp buildIpv6Udp)

/-- How often `forward_upstreams` ran. -/
def upstreamRuns (events : List Event) : Nat :=
  events.count .forwardUpstreams

@[simp]
theorem upstreamRuns_append (first second : List Event) :
    upstreamRuns (first ++ second) = upstreamRuns first + upstreamRuns second :=
  List.count_append

/-- A prefetch in flight: its channel, and what its thread does. -/
structure Slot where
  receiver : Receiver
  events : List Event

/-- `slot.get_or_init`: the first call starts the thread, and a later one finds
the slot filled. -/
def startPrefetch (world : World) (ahead : Option Bytes × List Event) (slot : Option Slot) :
    Option Slot :=
  some (slot.getD
    ⟨prefetchReceiver world.prefetch ahead.1, prefetchEvents world.prefetch ahead.2⟩)

theorem startPrefetch_iterate (world : World) (ahead : Option Bytes × List Event) (calls : Nat) :
    (startPrefetch world ahead)^[calls + 1] none = startPrefetch world ahead none := by
  induction calls with
  | zero => rfl
  | succ calls ih =>
      rw [Function.iterate_succ_apply', ih]
      rfl

variable {pubdom : PubdomCore} {proxy : DnsProxy} {world : World}

/-- However often the lookup called `pending`, what was prefetched is what stands
in the slot. -/
theorem publicReply_slot {lookup : Bytes → LookupRun} (on : proxy.names = some lookup)
    (query : Bytes) :
    let slot := (startPrefetch world
      (forwardUpstreams proxy world.prefetchNet query))^[(lookup query).pendingCalls] none
    publicReply pubdom proxy world query =
      (outcomeReply pubdom world (slot.map Slot.receiver)
          (forwardUpstreams proxy world.inlineNet query) (lookup query).outcome).map
        fun replied => (replied.1,
          ⟨.lookup query :: replied.2, (slot.map Slot.events).getD []⟩) := by
  intro slot
  have filled : slot = if 0 < (lookup query).pendingCalls then
      startPrefetch world (forwardUpstreams proxy world.prefetchNet query) none else none := by
    cases calls : (lookup query).pendingCalls with
    | zero => simp [slot, calls]
    | succ calls =>
        simp only [slot, calls, startPrefetch_iterate]
        rfl
  rw [filled]
  unfold publicReply
  by_cases pending : 0 < (lookup query).pendingCalls
  · simp only [on, pending, if_true, startPrefetch, Option.getD_none, Option.map_some,
      Option.getD_some]
    split <;> simp [*]
  · simp only [on, pending, if_false, Option.map_none, Option.getD_none]
    split <;> simp [*]

/-! ### One run -/

variable (proxy) in
theorem upstreamRuns_forward (network : Network) (query : Bytes) (server : SocketAddr)
    (protect : Bool) : upstreamRuns (forward proxy network query server protect).2 = 0 := by
  have hooked : upstreamRuns (if protect ∧ proxy.protect then [.protectSocket] else []) = 0 := by
    split <;> rfl
  have sent : upstreamRuns [.sendTo server query] = 0 := rfl
  unfold forward
  split
  · rfl
  · simp only
    split
    · split <;> simp only [upstreamRuns_append, hooked, sent]
    · exact hooked

variable (proxy) in
theorem upstreamRuns_forwardFrom (networks : Nat → Network) (query : Bytes) (index : Nat)
    (upstreams : List SocketAddr) :
    upstreamRuns (forwardFrom proxy networks query index upstreams).2 = 0 := by
  induction upstreams generalizing index with
  | nil => rfl
  | cons upstream upstreams ih =>
      have exchange := upstreamRuns_forward proxy (networks index) query upstream true
      unfold forwardFrom
      split
      next reply events forwarded => rwa [forwarded] at exchange
      next events forwarded =>
        rw [forwarded] at exchange
        simp only [upstreamRuns_append, ih (index + 1)]
        exact exchange

variable (proxy) in
theorem upstreamRuns_forwardUpstreams (networks : Nat → Network) (query : Bytes) :
    upstreamRuns (forwardUpstreams proxy networks query).2 = 1 := by
  have run : upstreamRuns [.forwardUpstreams] = 1 := rfl
  have exchanges := upstreamRuns_forwardFrom proxy networks query 0 proxy.upstreams
  change upstreamRuns ([.forwardUpstreams] ++ _) = 1
  rw [upstreamRuns_append, run, exchanges]

theorem upstreamRuns_respond (query : Ipv6Udp) (reply : Option Bytes) (trace : Trace) :
    upstreamRuns (respond query reply trace).serving = upstreamRuns trace.serving ∧
      (respond query reply trace).prefetching = trace.prefetching := by
  unfold respond
  split
  · exact ⟨rfl, rfl⟩
  · exact ⟨upstreamRuns_append .., rfl⟩

/-! ### The wait after an early release -/

section Wait

variable {decisions : Nat → Option Decided} {askInline : Option Bytes × List Event}

/-- What each round of the wait preserves holds when it ends: a look at a channel
that is still empty, the upstreams' reply coming in, and a reading of the clock. -/
theorem earlyLoop_invariant {holds : EarlyWait → Prop}
    (look : ∀ wait empties arrival, wait.legacy = none →
      wait.prefetched = some ⟨empties + 1, arrival⟩ → holds wait →
      holds ({ wait with prefetched := some ⟨empties, arrival⟩ }.ask decisions))
    (fetch : ∀ wait, wait.legacy = none → holds wait →
      holds ({ wait with
        legacy := some (legacyReply wait.prefetched askInline).1
        events := wait.events ++ (legacyReply wait.prefetched askInline).2 }.ask decisions))
    (tick : ∀ wait patience, wait.legacy = some none → holds wait →
      holds ({ wait with patience := patience }.ask decisions))
    {fuel : Nat} {wait final : EarlyWait} (initially : holds wait)
    (ended : earlyLoop decisions askInline fuel wait = some final) : holds final := by
  induction fuel generalizing wait with
  | zero => cases ended
  | succ fuel ih =>
      obtain ⟨outcome, legacy, prefetched, patience, asked, events⟩ := wait
      match outcome, legacy, prefetched, patience with
      | some _, _, _, _ => exact Option.some.inj ended ▸ initially
      | none, some (some _), _, _ => exact Option.some.inj ended ▸ initially
      | none, some none, _, 0 => exact Option.some.inj ended ▸ initially
      | none, some none, _, patience + 1 => exact ih (tick _ patience rfl initially) ended
      | none, none, some ⟨empties + 1, arrival⟩, _ =>
          exact ih (look _ empties arrival rfl rfl initially) ended
      | none, none, some ⟨0, some reply⟩, _ =>
          have fetched := fetch _ rfl initially
          simp only [legacyReply, List.append_nil] at fetched
          exact ih fetched ended
      | none, none, some ⟨0, none⟩, _ => exact ih (fetch _ rfl initially) ended
      | none, none, none, _ => exact ih (fetch _ rfl initially) ended

/-- While the reply is outstanding nothing was asked; what was asked since is what
the reply costs. -/
structure Frugal (askInline : Option Bytes × List Event) (prefetched : Option Receiver)
    (wait : EarlyWait) : Prop where
  outstanding : wait.legacy = none → upstreamRuns wait.events = 0 ∧
    legacyReply wait.prefetched askInline = legacyReply prefetched askInline
  spent : upstreamRuns wait.events ≤ upstreamRuns (legacyReply prefetched askInline).2

theorem Frugal.ask {prefetched : Option Receiver} {wait : EarlyWait}
    (frugal : Frugal askInline prefetched wait) :
    Frugal askInline prefetched (wait.ask decisions) := by
  have asked : upstreamRuns (wait.ask decisions).events = upstreamRuns wait.events := by
    simp only [EarlyWait.ask, upstreamRuns_append]
    rfl
  constructor
  · intro missing
    rw [asked]
    exact frugal.outstanding missing
  · rw [asked]
    exact frugal.spent

theorem frugal_of_earlyLoop {prefetched : Option Receiver} {patience fuel : Nat}
    {final : EarlyWait}
    (ended : earlyLoop decisions askInline fuel
      (EarlyWait.ask decisions ⟨none, none, prefetched, patience, 0, []⟩) = some final) :
    Frugal askInline prefetched final := by
  refine earlyLoop_invariant ?_ ?_ ?_ ?_ ended
  · intro wait empties arrival missing channel frugal
    refine Frugal.ask ⟨fun _ => ⟨(frugal.outstanding missing).1, ?_⟩, frugal.spent⟩
    rw [← (frugal.outstanding missing).2, channel]
    cases arrival <;> rfl
  · intro wait missing frugal
    obtain ⟨none, same⟩ := frugal.outstanding missing
    refine Frugal.ask ⟨?_, ?_⟩
    · intro missing
      cases missing
    · rw [upstreamRuns_append, none, same, Nat.zero_add]
  · intro wait patience fetched frugal
    refine Frugal.ask ⟨fun missing => ?_, frugal.spent⟩
    cases fetched.symm.trans missing
  · exact Frugal.ask ⟨fun _ => ⟨rfl, rfl⟩, Nat.zero_le _⟩

variable (pubdom) in
theorem upstreamRuns_waitReply {prefetched : Option Receiver} {wait : EarlyWait}
    (frugal : Frugal askInline prefetched wait) :
    upstreamRuns (wait.reply pubdom askInline).2 ≤
      upstreamRuns (legacyReply prefetched askInline).2 := by
  obtain ⟨decided, legacy, channel, patience, asked, seen⟩ := wait
  have spent : upstreamRuns seen ≤ upstreamRuns (legacyReply prefetched askInline).2 :=
    frugal.spent
  cases legacy with
  | some fetched =>
      rcases decided with undecided | ⟨answer | later | cap⟩ <;>
        simpa [EarlyWait.reply] using spent
  | none =>
      obtain ⟨nothing, same⟩ := frugal.outstanding rfl
      have nothing : upstreamRuns seen = 0 := nothing
      have same : legacyReply channel askInline = legacyReply prefetched askInline := same
      rcases decided with undecided | ⟨answer | later | cap⟩ <;>
        simp [EarlyWait.reply, nothing, same]

/-- After the lookup the upstreams are asked no more often than for a reply that
is taken from the channel at once. -/
theorem upstreamRuns_outcomeReply {prefetched : Option Receiver} {outcome : Outcome}
    {reply : Option Bytes} {events : List Event}
    (replied : outcomeReply pubdom world prefetched askInline outcome = some (reply, events)) :
    upstreamRuns events ≤ upstreamRuns (legacyReply prefetched askInline).2 := by
  cases outcome with
  | answer answer =>
      rw [← (Prod.mk.inj (Option.some.inj replied)).2]
      exact Nat.zero_le _
  | legacy =>
      have same : legacyReply prefetched askInline = (reply, events) := Option.some.inj replied
      rw [same]
  | capped cap =>
      have same : (legacyReply prefetched askInline).2 = events :=
        congrArg Prod.snd (Option.some.inj replied)
      rw [same]
  | early decisions =>
      unfold outcomeReply at replied
      simp only at replied
      split at replied
      · cases replied
      next final ended =>
        have same : (final.reply pubdom askInline).2 = events :=
          congrArg Prod.snd (Option.some.inj replied)
        rw [← same]
        exact upstreamRuns_waitReply pubdom (frugal_of_earlyLoop ended)

end Wait

/-! ### One query -/

/-- The prefetching thread was started and died before it delivered. -/
def PrefetchDied (proxy : DnsProxy) (world : World) (query : Bytes) : Prop :=
  ∃ lookup progress empties, proxy.names = some lookup ∧ 0 < (lookup query).pendingCalls ∧
    world.prefetch = .died progress empties

/-- The lookup comes back with an answer, itself or at the first ask, without a
call of `pending`. -/
def AnswersAtOnce (proxy : DnsProxy) (query : Bytes) : Prop :=
  ∃ lookup reply, proxy.names = some lookup ∧ (lookup query).pendingCalls = 0 ∧
    ((lookup query).outcome = .answer reply ∨
      ∃ decisions, (lookup query).outcome = .early decisions ∧
        decisions 0 = some (.answer reply))

/-- An event of asking the upstreams. -/
def AsksUpstream : Event → Prop
  | .protectSocket | .sendTo _ _ | .forwardUpstreams => True
  | .lookup _ | .askDecision | .emit _ => False

def Trace.upstreamRuns (trace : Trace) : Nat :=
  Dns.upstreamRuns trace.serving + Dns.upstreamRuns trace.prefetching

theorem upstreamRuns_legacyReply_le {prefetched : Option Receiver}
    {askInline : Option Bytes × List Event} (once : upstreamRuns askInline.2 = 1) :
    upstreamRuns (legacyReply prefetched askInline).2 ≤ 1 := by
  unfold legacyReply
  split
  · exact Nat.zero_le _
  · exact Nat.le_of_eq once
  · exact Nat.le_of_eq once

/-- A prefetch and what it leaves to be asked come to one run, or to two where the
thread died. -/
theorem upstreamRuns_prefetch {ahead askInline : Option Bytes × List Event}
    (aheadOnce : upstreamRuns ahead.2 = 1) (inlineOnce : upstreamRuns askInline.2 = 1)
    (prefetch : Prefetch) :
    upstreamRuns (prefetchEvents prefetch ahead.2) +
        upstreamRuns
          (legacyReply (some (prefetchReceiver prefetch ahead.1)) askInline).2 ≤ 2 ∧
      ((∀ progress empties, prefetch ≠ .died progress empties) →
        upstreamRuns (prefetchEvents prefetch ahead.2) +
          upstreamRuns
            (legacyReply (some (prefetchReceiver prefetch ahead.1)) askInline).2 ≤ 1) := by
  have inline : ∀ prefetched, upstreamRuns (legacyReply prefetched askInline).2 ≤ 1 :=
    fun _ => upstreamRuns_legacyReply_le inlineOnce
  have none : upstreamRuns [] = 0 := rfl
  cases prefetch with
  | unspawned =>
      have later := inline (some (prefetchReceiver .unspawned ahead.1))
      simp only [prefetchEvents, none]
      exact ⟨by omega, fun _ => by omega⟩
  | died progress empties =>
      have later := inline (some (prefetchReceiver (.died progress empties) ahead.1))
      have part : upstreamRuns (ahead.2.take progress) ≤ upstreamRuns ahead.2 :=
        (List.take_sublist progress ahead.2).count_le _
      refine ⟨?_, fun alive => absurd rfl (alive progress empties)⟩
      simp only [prefetchEvents]
      omega
  | delivered empties =>
      simp only [prefetchEvents, prefetchReceiver, legacyReply, none, aheadOnce]
      exact ⟨by omega, fun _ => by omega⟩

theorem upstreamRuns_publicReply {query : Bytes} {reply : Option Bytes} {trace : Trace}
    (replied : publicReply pubdom proxy world query = some (reply, trace)) :
    trace.upstreamRuns ≤ 2 ∧ (¬ PrefetchDied proxy world query → trace.upstreamRuns ≤ 1) := by
  have inlineOnce := upstreamRuns_forwardUpstreams proxy world.inlineNet query
  have aheadOnce := upstreamRuns_forwardUpstreams proxy world.prefetchNet query
  cases on : proxy.names with
  | none =>
      have traced : (⟨(forwardUpstreams proxy world.inlineNet query).2, []⟩ : Trace) = trace := by
        unfold publicReply at replied
        simp only [on, Option.some.injEq, Prod.mk.injEq] at replied
        exact replied.2
      have runs : trace.upstreamRuns = 1 := by
        rw [← traced]
        exact inlineOnce
      exact ⟨by omega, fun _ => by omega⟩
  | some lookup =>
      rw [publicReply_slot on] at replied
      obtain ⟨⟨reply', events⟩, decided, same⟩ := Option.map_eq_some_iff.mp replied
      have serving := upstreamRuns_outcomeReply decided
      have traced := (Prod.mk.inj same).2
      have looked : upstreamRuns (.lookup query :: events) = upstreamRuns events :=
        List.count_cons_of_ne (by simp)
      rw [← traced]
      simp only [Trace.upstreamRuns, looked]
      cases calls : (lookup query).pendingCalls with
      | zero =>
          have none : upstreamRuns [] = 0 := rfl
          simp only [calls, Function.iterate_zero, id_eq, Option.map_none, Option.getD_none,
            none] at serving ⊢
          have once : upstreamRuns (legacyReply .none _).2 ≤ 1 :=
            upstreamRuns_legacyReply_le inlineOnce
          exact ⟨by omega, fun _ => by omega⟩
      | succ calls' =>
          obtain ⟨twice, once⟩ := upstreamRuns_prefetch aheadOnce inlineOnce world.prefetch
          simp only [calls, startPrefetch_iterate, startPrefetch, Option.getD_none,
            Option.map_some, Option.getD_some] at serving ⊢
          refine ⟨by omega, fun alive => ?_⟩
          have survives : ∀ progress empties, world.prefetch ≠ .died progress empties :=
            fun progress empties died =>
              alive ⟨lookup, progress, empties, on, by omega, died⟩
          have total := once survives
          omega

/-- An answer that is there at once asks no upstream. -/
theorem asksNothing_publicReply {query : Bytes} (atOnce : AnswersAtOnce proxy query)
    {reply : Option Bytes} {trace : Trace}
    (replied : publicReply pubdom proxy world query = some (reply, trace)) :
    ∀ event ∈ trace.serving ++ trace.prefetching, ¬ AsksUpstream event := by
  obtain ⟨lookup, answer, on, calls, outcome | ⟨decisions, outcome, first⟩⟩ := atOnce
  · have traced : (⟨[.lookup query], []⟩ : Trace) = trace := by
      unfold publicReply at replied
      simp only [on, calls, outcome, outcomeReply, lt_irrefl, if_false, Option.some.injEq,
        Prod.mk.injEq] at replied
      exact replied.2
    rw [← traced]
    simp [AsksUpstream]
  · have traced : (⟨[.lookup query, .askDecision], []⟩ : Trace) = trace := by
      obtain ⟨fuel, rounds⟩ : ∃ fuel, earlyFuel world = fuel + 1 := ⟨_, rfl⟩
      unfold publicReply at replied
      simp only [on, calls, outcome, outcomeReply, lt_irrefl, if_false] at replied
      rw [rounds] at replied
      simp only [earlyLoop, EarlyWait.ask, first, EarlyWait.reply, List.nil_append,
        Option.some.injEq, Prod.mk.injEq] at replied
      exact replied.2
    rw [← traced]
    simp [AsksUpstream]

variable (pubdom proxy world) in
/-- A query for a public name asks the upstreams once at most, or twice where the
prefetching thread died, and not at all where the answer is there at once. -/
theorem upstreams_asked_at_most_once {packet : Bytes} {query : Ipv6Udp}
    (parsed : parseIpv6Udp packet = some query)
    (notFips : isFips ((parseQname query.payload).getD []) = false) :
    ∃ trace, serve pubdom proxy world packet = some trace ∧
      trace.upstreamRuns ≤ 2 ∧
      (¬ PrefetchDied proxy world query.payload → trace.upstreamRuns ≤ 1) ∧
      (AnswersAtOnce proxy query.payload →
        ∀ event ∈ trace.serving ++ trace.prefetching, ¬ AsksUpstream event) := by
  obtain ⟨reply, trace, asked, decision, replied, -⟩ :=
    publicReply_spec pubdom proxy world query.payload
  obtain ⟨served, prefetched⟩ := upstreamRuns_respond query reply trace
  have same : (respond query reply trace).upstreamRuns = trace.upstreamRuns := by
    simp only [Trace.upstreamRuns, served, prefetched]
  obtain ⟨twice, once⟩ := upstreamRuns_publicReply replied
  refine ⟨respond query reply trace, ?_, same ▸ twice, fun alive => same ▸ once alive, ?_⟩
  · simp [serve, parsed, notFips, replied]
  · intro atOnce event member
    have quiet := asksNothing_publicReply atOnce replied event
    rw [prefetched] at member
    unfold respond at member
    split at member
    · exact quiet member
    · simp only [List.mem_append, List.mem_singleton] at member quiet
      rcases member with (earlier | emitted) | ahead
      · exact quiet (.inl earlier)
      · rw [emitted]
        exact id
      · exact quiet (.inr ahead)

/-- The lookup that is released early asks the upstream through its prefetch
only. -/
theorem released_lookup_asks_once :
    let proxy := { plainProxy with names := some releasedLookup }
    let world := { silentWorld with
      prefetchNet := fun _ _ => some echoSocket
      prefetch := .delivered 7 }
    ∃ trace, serve keepTtls proxy world (tunnelPacket (queryOf (dnsQuery [homeLabel]))) =
        some trace ∧ trace.upstreamRuns ≤ 1 := by
  intro proxy world
  have parsed : parseIpv6Udp (tunnelPacket (queryOf (dnsQuery [homeLabel]))) =
      some (queryOf (dnsQuery [homeLabel])) := by decide +kernel
  obtain ⟨trace, served, -, once, -⟩ :=
    upstreams_asked_at_most_once keepTtls proxy world parsed (by decide +kernel)
  refine ⟨trace, served, once ?_⟩
  rintro ⟨_, _, _, _, _, died⟩
  cases died

end Fips2Go.Dns
