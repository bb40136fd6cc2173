import Fips2Go.DnsRouting

/-!
# The reply to a public name

For a name that is not below `.fips` the reply is a function of two things:
what the lookup decided, and what the upstreams gave.  This file states that
function and shows that `serve` computes it for every outcome, every sequence
of answers of an early-released lookup, and every fate and timing of the
prefetched upstream reply.
-/

namespace Fips2Go.Dns

open Packet (Ipv6Udp parseIpv6Udp buildIpv6Udp)

/-- What the proxy owes the app when the lookup decided so, or decided nothing
in time; `none` stands for SERVFAIL.  A reply whose TTLs cannot be clamped is
owed as it is. -/
def expectedReply (pubdom : PubdomCore) (upstream : Option Bytes) :
    Option Decided → Option Bytes
  | some (.answer reply) => some reply
  | some .legacy => upstream
  | some (.capped cap) => upstream.map fun reply => (pubdom.clampTtls reply cap).getD reply
  | none =>
      upstream.map fun reply => (pubdom.clampTtls reply pubdom.overrunTtlSecs).getD reply

/-- The upstreams' answer: the prefetched one where a prefetch was started and
delivered, else the one asked for inline. -/
def upstreamReply (proxy : DnsProxy) (world : World) (query : Bytes) : Option Bytes :=
  let askInline := forwardUpstreams proxy world.inlineNet query
  match proxy.names, world.prefetch with
  | some lookup, .delivered _ =>
      if 0 < (lookup query).pendingCalls then
        (forwardUpstreams proxy world.prefetchNet query).1
      else askInline.1
  | _, _ => askInline.1

/-- `DecidedAs outcome asks decision`: the lookup's outcome, after `asks` calls
of the early closure, comes to `decision`.  The closure is asked until it
returns a decision and not once more, or given up on. -/
inductive DecidedAs : Option Outcome → Nat → Option Decided → Prop
  | off : DecidedAs none 0 (some .legacy)
  | answer (reply : Bytes) : DecidedAs (some (.answer reply)) 0 (some (.answer reply))
  | legacy : DecidedAs (some .legacy) 0 (some .legacy)
  | capped (cap : Nat) : DecidedAs (some (.capped cap)) 0 (some (.capped cap))
  | early (decisions : Nat → Option Decided) (last : Nat)
      (undecided : ∀ ask < last, decisions ask = none) :
      DecidedAs (some (.early decisions)) (last + 1) (decisions last)

def Event.emitted? : Event → Option Bytes
  | .emit packet => some packet
  | _ => none

/-- The packets written back to the tunnel. -/
def emitted (events : List Event) : List Bytes :=
  events.filterMap Event.emitted?

/-- How often the early closure was asked. -/
def asks (events : List Event) : Nat :=
  events.count .askDecision

@[simp]
theorem emitted_append (first second : List Event) :
    emitted (first ++ second) = emitted first ++ emitted second := by
  simp [emitted]

@[simp]
theorem asks_append (first second : List Event) :
    asks (first ++ second) = asks first + asks second := by
  simp [asks]

theorem asks_respond (query : Ipv6Udp) (reply : Option Bytes) (trace : Trace) :
    asks (respond query reply trace).serving = asks trace.serving := by
  unfold respond
  cases reply.or (servfailFor query.payload) with
  | none => rfl
  | some payload => simp [asks]

theorem emitted_respond (query : Ipv6Udp) (reply : Option Bytes) (trace : Trace) :
    emitted (respond query reply trace).serving = emitted trace.serving ++
      ((reply.or (servfailFor query.payload)).map
        (buildIpv6Udp query.dst query.src 53 query.srcPort)).toList := by
  unfold respond
  cases reply.or (servfailFor query.payload) with
  | none => simp
  | some payload =>
      rw [emitted_append]
      rfl

/-- Exchanges neither emit nor ask for a decision. -/
def Quiet (events : List Event) : Prop :=
  emitted events = [] ∧ asks events = 0

namespace Quiet

theorem nil : Quiet [] :=
  ⟨rfl, rfl⟩

theorem append {first second : List Event} (firstQuiet : Quiet first)
    (secondQuiet : Quiet second) : Quiet (first ++ second) := by
  constructor
  · rw [emitted_append, firstQuiet.1, secondQuiet.1]
    rfl
  · rw [asks_append, firstQuiet.2, secondQuiet.2]

theorem forward (proxy : DnsProxy) (network : Network) (query : Bytes)
    (server : SocketAddr) (protect : Bool) :
    Quiet (forward proxy network query server protect).2 := by
  have hooked : Quiet (if protect ∧ proxy.protect then [.protectSocket] else []) := by
    split
    · exact ⟨rfl, rfl⟩
    · exact nil
  have sent : Quiet [.sendTo server query] := ⟨rfl, rfl⟩
  unfold Dns.forward
  cases network (bindAddr server) with
  | none => exact nil
  | some socket =>
      cases timeoutSet : socket.timeoutSet
      · simpa [timeoutSet] using hooked
      · cases sends : socket.sends
        · simpa [timeoutSet, sends] using hooked.append sent
        · simpa [timeoutSet, sends] using hooked.append sent

theorem forwardFrom (proxy : DnsProxy) (networks : Nat → Network) (query : Bytes)
    (index : Nat) (upstreams : List SocketAddr) :
    Quiet (forwardFrom proxy networks query index upstreams).2 := by
  induction upstreams generalizing index with
  | nil => exact nil
  | cons upstream upstreams ih =>
      have exchange := Quiet.forward proxy (networks index) query upstream true
      unfold Dns.forwardFrom
      split
      · rename_i reply events forwarded
        rwa [forwarded] at exchange
      · rename_i events forwarded
        rw [forwarded] at exchange
        exact exchange.append (ih (index + 1))

theorem forwardUpstreams (proxy : DnsProxy) (networks : Nat → Network) (query : Bytes) :
    Quiet (forwardUpstreams proxy networks query).2 := by
  have asked : Quiet [.forwardUpstreams] := ⟨rfl, rfl⟩
  exact asked.append (forwardFrom proxy networks query 0 proxy.upstreams)

end Quiet

section Early

variable {pubdom : PubdomCore} {decisions : Nat → Option Decided}
  {askInline : Option Bytes × List Event} {upstream : Option Bytes}

/-- What holds of the wait at the head of its loop: all asks but the last came
back empty, and the upstream reply is either at hand or still to be had. -/
structure WaitInvariant (decisions : Nat → Option Decided)
    (askInline : Option Bytes × List Event) (upstream : Option Bytes)
    (wait : EarlyWait) : Prop where
  decided : ∃ last, wait.asked = last + 1 ∧ wait.outcome = decisions last ∧
    ∀ ask < last, decisions ask = none
  fetched : ∀ reply, wait.legacy = some reply → reply = upstream
  pending : wait.legacy = none → (legacyReply wait.prefetched askInline).1 = upstream
  counted : asks wait.events = wait.asked
  silent : emitted wait.events = []

namespace WaitInvariant

theorem ask {wait : EarlyWait} (invariant : WaitInvariant decisions askInline upstream wait)
    (undecided : wait.outcome = none) :
    WaitInvariant decisions askInline upstream (wait.ask decisions) := by
  obtain ⟨last, asked, outcome, earlier⟩ := invariant.decided
  constructor
  · refine ⟨wait.asked, rfl, rfl, ?_⟩
    intro ask before
    rcases Nat.lt_or_eq_of_le (Nat.lt_succ_iff.mp (asked ▸ before)) with sooner | final
    · exact earlier ask sooner
    · rw [final, ← outcome, undecided]
  · exact invariant.fetched
  · exact invariant.pending
  · simp only [EarlyWait.ask, asks_append, invariant.counted]
    rfl
  · simp only [EarlyWait.ask, emitted_append, invariant.silent]
    rfl

/-- The upstream reply comes in, from either side. -/
theorem fetch {wait : EarlyWait} (invariant : WaitInvariant decisions askInline upstream wait)
    {events : List Event} (quiet : Quiet events) :
    WaitInvariant decisions askInline upstream
      { wait with legacy := some upstream, events := wait.events ++ events } := by
  constructor
  · exact invariant.decided
  · intro reply atHand
    exact (Option.some.inj atHand).symm
  · intro missing
    cases missing
  · simp [invariant.counted, quiet.2]
  · simp [invariant.silent, quiet.1]

theorem look {wait : EarlyWait} (invariant : WaitInvariant decisions askInline upstream wait)
    {empties : Nat} {arrival : Option (Option Bytes)}
    (prefetched : wait.prefetched = some ⟨empties + 1, arrival⟩) :
    WaitInvariant decisions askInline upstream
      { wait with prefetched := some ⟨empties, arrival⟩ } := by
  constructor
  · exact invariant.decided
  · exact invariant.fetched
  · intro missing
    have pending := invariant.pending missing
    rw [prefetched] at pending
    cases arrival <;> exact pending
  · exact invariant.counted
  · exact invariant.silent

theorem tick {wait : EarlyWait} (invariant : WaitInvariant decisions askInline upstream wait)
    (patience : Nat) :
    WaitInvariant decisions askInline upstream { wait with patience := patience } :=
  ⟨invariant.decided, invariant.fetched, invariant.pending, invariant.counted,
    invariant.silent⟩

end WaitInvariant

/-- Rounds the loop may still take. -/
def EarlyWait.rounds (wait : EarlyWait) : Nat :=
  (match wait.legacy, wait.prefetched with
    | none, some receiver => receiver.empties + 1
    | none, none => 1
    | some _, _ => 0) + wait.patience + 1

/-- The loop ends within its fuel, with the upstream reply at hand unless a
decision came first. -/
theorem earlyLoop_spec (quiet : Quiet askInline.2) {fuel : Nat} {wait : EarlyWait}
    (invariant : WaitInvariant decisions askInline upstream wait)
    (enough : wait.rounds ≤ fuel) :
    ∃ final, earlyLoop decisions askInline fuel wait = some final ∧
      WaitInvariant decisions askInline upstream final ∧
      (final.outcome = none → final.legacy ≠ none) := by
  induction fuel generalizing wait with
  | zero =>
      unfold EarlyWait.rounds at enough
      omega
  | succ fuel ih =>
      obtain ⟨outcome, legacy, prefetched, patience, asked, events⟩ := wait
      cases outcome with
      | some decision => exact ⟨_, rfl, invariant, nofun⟩
      | none =>
          cases legacy with
          | none =>
              have pending : (legacyReply prefetched askInline).1 = upstream :=
                invariant.pending rfl
              cases prefetched with
              | none =>
                  subst pending
                  apply ih ((invariant.fetch quiet).ask rfl)
                  simp only [EarlyWait.rounds, EarlyWait.ask] at enough ⊢
                  omega
              | some receiver =>
                  obtain ⟨empties, arrival⟩ := receiver
                  cases empties with
                  | succ empties =>
                      apply ih ((invariant.look rfl).ask rfl)
                      simp only [EarlyWait.rounds, EarlyWait.ask] at enough ⊢
                      omega
                  | zero =>
                      cases arrival with
                      | some reply =>
                          subst pending
                          have atHand := (invariant.fetch Quiet.nil).ask rfl
                          rw [List.append_nil] at atHand
                          apply ih atHand
                          simp only [EarlyWait.rounds, EarlyWait.ask] at enough ⊢
                          omega
                      | none =>
                          subst pending
                          apply ih ((invariant.fetch quiet).ask rfl)
                          simp only [EarlyWait.rounds, EarlyWait.ask] at enough ⊢
                          omega
          | some fetched =>
              cases fetched with
              | some reply => exact ⟨_, rfl, invariant, nofun⟩
              | none =>
                  cases patience with
                  | zero => exact ⟨_, rfl, invariant, nofun⟩
                  | succ patience =>
                      apply ih ((invariant.tick patience).ask rfl)
                      simp only [EarlyWait.rounds, EarlyWait.ask] at enough ⊢
                      omega

theorem quiet_legacyReply (quiet : Quiet askInline.2) (prefetched : Option Receiver) :
    Quiet (legacyReply prefetched askInline).2 := by
  unfold legacyReply
  split
  · exact Quiet.nil
  · exact quiet
  · exact quiet

variable (pubdom) in
/-- What is left when the loop ends is the reply the decision calls for. -/
theorem reply_spec (quiet : Quiet askInline.2) {wait : EarlyWait}
    (invariant : WaitInvariant decisions askInline upstream wait)
    (ended : wait.outcome = none → wait.legacy ≠ none) :
    (wait.reply pubdom askInline).1 = expectedReply pubdom upstream wait.outcome ∧
      asks (wait.reply pubdom askInline).2 = wait.asked ∧
      emitted (wait.reply pubdom askInline).2 = [] := by
  obtain ⟨outcome, legacy, prefetched, patience, asked, events⟩ := wait
  have counted : asks events = asked := invariant.counted
  have silent : emitted events = [] := invariant.silent
  cases legacy with
  | some fetched =>
      have atHand : fetched = upstream := invariant.fetched fetched rfl
      subst atHand
      rcases outcome with undecided | ⟨reply | later | cap⟩ <;>
        simp [EarlyWait.reply, expectedReply, clampTo, counted, silent]
  | none =>
      have pending : (legacyReply prefetched askInline).1 = upstream := invariant.pending rfl
      have later := quiet_legacyReply quiet prefetched
      subst pending
      rcases outcome with undecided | ⟨reply | later | cap⟩
      · exact absurd rfl (ended rfl)
      all_goals simp [EarlyWait.reply, expectedReply, clampTo, counted, silent, later.1, later.2]

end Early

variable {pubdom : PubdomCore} {proxy : DnsProxy} {world : World}

variable (pubdom) in
theorem outcomeReply_spec {prefetched : Option Receiver}
    {askInline : Option Bytes × List Event} (quiet : Quiet askInline.2)
    (looks : ∀ receiver, prefetched = some receiver →
      receiver.empties + world.patience + 3 ≤ earlyFuel world)
    (outcome : Outcome) :
    ∃ reply events asked decision,
      outcomeReply pubdom world prefetched askInline outcome = some (reply, events) ∧
      DecidedAs (some outcome) asked decision ∧ asks events = asked ∧ emitted events = [] ∧
      reply = expectedReply pubdom (legacyReply prefetched askInline).1 decision := by
  have later := quiet_legacyReply quiet prefetched
  cases outcome with
  | answer reply => exact ⟨_, _, 0, _, rfl, .answer reply, rfl, rfl, rfl⟩
  | legacy => exact ⟨_, _, 0, _, rfl, .legacy, later.2, later.1, rfl⟩
  | capped cap => exact ⟨_, _, 0, _, rfl, .capped cap, later.2, later.1, rfl⟩
  | early decisions =>
      have started : WaitInvariant decisions askInline (legacyReply prefetched askInline).1
          (EarlyWait.ask decisions ⟨none, none, prefetched, world.patience, 0, []⟩) := by
        constructor
        · exact ⟨0, rfl, rfl, nofun⟩
        · exact nofun
        · intro _
          rfl
        · rfl
        · rfl
      have enough : EarlyWait.rounds
          (EarlyWait.ask decisions ⟨none, none, prefetched, world.patience, 0, []⟩) ≤
            earlyFuel world := by
        cases prefetched with
        | none =>
            simp only [EarlyWait.rounds, EarlyWait.ask, earlyFuel]
            omega
        | some receiver =>
            have enoughLooks := looks receiver rfl
            simp only [EarlyWait.rounds, EarlyWait.ask]
            omega
      obtain ⟨final, looped, invariant, ended⟩ := earlyLoop_spec quiet started enough
      obtain ⟨reply, counted, silent⟩ := reply_spec pubdom quiet invariant ended
      obtain ⟨last, asked, decided, undecided⟩ := invariant.decided
      refine ⟨(final.reply pubdom askInline).1, (final.reply pubdom askInline).2, last + 1,
        decisions last, ?_, .early decisions last undecided, ?_, silent, ?_⟩
      · simp only [outcomeReply, looped]
      · rw [counted, asked]
      · rw [reply, decided]

theorem legacyReply_eq_upstreamReply {lookup : Bytes → LookupRun} {query : Bytes}
    (on : proxy.names = some lookup) :
    (legacyReply
        (if 0 < (lookup query).pendingCalls then
          some (prefetchReceiver world.prefetch
            (forwardUpstreams proxy world.prefetchNet query).1)
        else none)
        (forwardUpstreams proxy world.inlineNet query)).1 =
      upstreamReply proxy world query := by
  unfold upstreamReply
  by_cases pending : 0 < (lookup query).pendingCalls
  · cases fate : world.prefetch <;>
      simp [on, pending, prefetchReceiver, legacyReply]
  · cases fate : world.prefetch <;>
      simp [on, pending, legacyReply]

variable (pubdom proxy world) in
theorem publicReply_spec (query : Bytes) :
    ∃ reply trace asked decision,
      publicReply pubdom proxy world query = some (reply, trace) ∧
      DecidedAs (proxy.names.map fun lookup => (lookup query).outcome) asked decision ∧
      asks trace.serving = asked ∧ emitted trace.serving = [] ∧
      reply = expectedReply pubdom (upstreamReply proxy world query) decision := by
  have quiet := Quiet.forwardUpstreams proxy world.inlineNet query
  cases on : proxy.names with
  | none =>
      have served : publicReply pubdom proxy world query =
          some ((forwardUpstreams proxy world.inlineNet query).1,
            ⟨(forwardUpstreams proxy world.inlineNet query).2, []⟩) := by
        simp only [publicReply, on]
      refine ⟨_, _, 0, some .legacy, served, .off, quiet.2, quiet.1, ?_⟩
      simp [expectedReply, upstreamReply, on]
  | some lookup =>
      have looks : ∀ receiver, (if 0 < (lookup query).pendingCalls then
            some (prefetchReceiver world.prefetch
              (forwardUpstreams proxy world.prefetchNet query).1)
          else none) = some receiver →
            receiver.empties + world.patience + 3 ≤ earlyFuel world := by
        intro receiver prefetched
        split at prefetched
        · rw [← Option.some.inj prefetched]
          cases fate : world.prefetch <;> simp [prefetchReceiver, earlyFuel, fate]
        · cases prefetched
      obtain ⟨reply, events, asked, decision, served, decided, counted, silent, expected⟩ :=
        outcomeReply_spec pubdom quiet looks (lookup query).outcome
      rw [legacyReply_eq_upstreamReply on] at expected
      have replied : publicReply pubdom proxy world query = some (reply,
          ⟨.lookup query :: events, if 0 < (lookup query).pendingCalls then
            prefetchEvents world.prefetch (forwardUpstreams proxy world.prefetchNet query).2
          else []⟩) := by
        simp only [publicReply, on, served]
      refine ⟨reply, _, asked, decision, replied, decided, ?_, ?_, expected⟩
      · simpa [asks] using counted
      · simpa [emitted, Event.emitted?] using silent

/-- A lookup released early, which decides at its fourth ask. -/
def releasedLookup (_ : Bytes) : LookupRun where
  pendingCalls := 1
  outcome := .early fun ask => if ask < 3 then none else some (.capped 60)

/-- The query's own header, sent back by the upstream. -/
def echoSocket : Socket where
  timeoutSet := true
  sends := true
  arrivals := [(internetResolver, [0xbe, 0xef, 0x81, 0x80])]

/-- A clamp that finds nothing to lower. -/
def keepTtls : PubdomCore where
  clampTtls := fun reply _ => some reply
  overrunTtlSecs := 10

/-- An upstream's reply for the name: one address, with this TTL in seconds. -/
def addressReply (ttl : UInt8) : Bytes :=
  [0xbe, 0xef, 0x81, 0x80, 0, 1, 0, 1, 0, 0, 0, 0] ++ wireName [homeLabel] ++ [0, 1, 0, 1] ++
    [0xc0, 0x0c, 0, 1, 0, 1, 0, 0, 0, ttl, 0, 4, 93, 184, 216, 34]

def addressSocket : Socket where
  timeoutSet := true
  sends := true
  arrivals := [(internetResolver, addressReply 240)]

/-- A clamp that lowers the TTL of a reply with one record, an address. -/
def lowerTtl : PubdomCore where
  clampTtls reply cap :=
    match reply.drop (reply.length - 10) with
    | 0 :: 0 :: 0 :: ttl :: rest =>
        some (reply.take (reply.length - 10) ++
          [0, 0, 0, UInt8.ofNat (min ttl.toNat cap)] ++ rest)
    | _ => none
  overrunTtlSecs := 10

end Fips2Go.Dns
