import Fips2Go.DnsMessage
import Fips2Go.Packet

/-!
# Serving one DNS query

`DnsProxy::serve` and what it calls.  Everything the proxy does not decide is
an argument: what each socket delivers, what the hosts file holds, what the
public-names lookup answers and when, when the prefetched upstream reply
arrives, and how often the clock is read before the wait is given up.  What
the proxy does to the outside is recorded as events, those of the prefetching
thread apart from those of the serving thread.
-/

namespace Fips2Go.Dns

open Packet (Ipv6Udp parseIpv6Udp buildIpv6Udp)

inductive IpAddr where
  | v4 (octets : FixedBytes 4)
  | v6 (octets : FixedBytes 16)
  deriving DecidableEq, Repr

structure SocketAddr where
  ip : IpAddr
  port : UInt16
  deriving DecidableEq, Repr

def SocketAddr.isIpv4 (addr : SocketAddr) : Bool :=
  match addr.ip with
  | .v4 _ => true
  | .v6 _ => false

/-- A bound socket: whether its read timeout can be set and a datagram sent,
and what arrives before a read times out. -/
structure Socket where
  timeoutSet : Bool
  sends : Bool
  arrivals : List (SocketAddr × Bytes)

/-- What binding to an address yields. -/
abbrev Network := SocketAddr → Option Socket

inductive Decided where
  | answer (reply : Bytes)
  | legacy
  | capped (cap : Nat)
  deriving DecidableEq, Repr

/-- `early` carries what the closure returns to its first, second, … ask. -/
inductive Outcome where
  | answer (reply : Bytes)
  | legacy
  | capped (cap : Nat)
  | early (decisions : Nat → Option Decided)

/-- One call of `Lookup::lookup`: how often it called `pending`, and its
outcome. -/
structure LookupRun where
  pendingCalls : Nat
  outcome : Outcome

/-- `hosts` looks a name up in the hosts file as reloaded for this query;
`protect` tells whether there is a socket-protect hook. -/
structure DnsProxy where
  localResponder : SocketAddr
  upstreams : List SocketAddr
  protect : Bool
  hosts : Option (List Char → Option Bytes)
  names : Option (Bytes → LookupRun)

/-- What becomes of the prefetching thread: it is never spawned, or it ends
after `empties` looks at its channel found nothing, having delivered its reply
or having died `progress` events into its work. -/
inductive Prefetch where
  | unspawned
  | died (progress empties : Nat)
  | delivered (empties : Nat)
  deriving DecidableEq, Repr

/-- The outside of one `serve`.  `patience` is the number of readings of the
clock before `give_up` is reached. -/
structure World where
  responder : Network
  prefetchNet : Nat → Network
  inlineNet : Nat → Network
  prefetch : Prefetch
  patience : Nat

/-- The two names the proxy takes from pubdom-core. -/
structure PubdomCore where
  clampTtls : Bytes → Nat → Option Bytes
  overrunTtlSecs : Nat

inductive Event where
  | protectSocket
  | sendTo (server : SocketAddr) (payload : Bytes)
  | forwardUpstreams
  | lookup (query : Bytes)
  | askDecision
  | emit (packet : Bytes)
  deriving DecidableEq, Repr

structure Trace where
  serving : List Event
  prefetching : List Event
  deriving DecidableEq, Repr

def maxResponse : Nat := 4096

/-- `0.0.0.0:0` or `[::]:0`. -/
def bindAddr (server : SocketAddr) : SocketAddr where
  ip := if server.isIpv4 then .v4 ⟨List.replicate 4 0, rfl⟩ else .v6 ⟨List.replicate 16 0, rfl⟩
  port := 0

/-- The first of the next `reads` datagrams whose transaction id matches. -/
def recvMatching (query : Bytes) : Nat → List (SocketAddr × Bytes) → Option Bytes
  | 0, _ => none
  | _ + 1, [] => none
  | reads + 1, (_, datagram) :: arrivals =>
      let received := datagram.take maxResponse
      if 2 ≤ received.length ∧ 2 ≤ query.length ∧ received.take 2 = query.take 2 then
        some received
      else recvMatching query reads arrivals

def forward (proxy : DnsProxy) (network : Network) (query : Bytes) (server : SocketAddr)
    (protect : Bool) : Option Bytes × List Event :=
  match network (bindAddr server) with
  | none => (none, [])
  | some socket =>
      let hooked := if protect ∧ proxy.protect then [.protectSocket] else []
      if socket.timeoutSet then
        let events := hooked ++ [.sendTo server query]
        if socket.sends then (recvMatching query 3 socket.arrivals, events)
        else (none, events)
      else (none, hooked)

/-- The upstreams from the one at `index` on, the first that answers. -/
def forwardFrom (proxy : DnsProxy) (networks : Nat → Network) (query : Bytes) :
    Nat → List SocketAddr → Option Bytes × List Event
  | _, [] => (none, [])
  | index, upstream :: upstreams =>
      match forward proxy (networks index) query upstream true with
      | (some reply, events) => (some reply, events)
      | (none, events) =>
          let (reply, later) := forwardFrom proxy networks query (index + 1) upstreams
          (reply, events ++ later)

def forwardUpstreams (proxy : DnsProxy) (networks : Nat → Network) (query : Bytes) :
    Option Bytes × List Event :=
  let (reply, events) := forwardFrom proxy networks query 0 proxy.upstreams
  (reply, .forwardUpstreams :: events)

def dotFips : List Char := ['.', 'f', 'i', 'p', 's']

/-- `strip_suffix(".fips")`. -/
def stripDotFips (qname : List Char) : Option (List Char) :=
  if dotFips.isSuffixOf qname then some (qname.take (qname.length - 5)) else none

def hostsNpub (proxy : DnsProxy) (qname : List Char) : Option Bytes :=
  match stripDotFips qname, proxy.hosts with
  | some name, some lookupNpub => lookupNpub name
  | _, _ => none

def isFips (qname : List Char) : Bool :=
  qname = dotFips.tail ∨ dotFips.isSuffixOf qname

/-- The `.fips` branch of `serve`. -/
def fipsReply (proxy : DnsProxy) (world : World) (query : Bytes) (qname : List Char) :
    Option Bytes × List Event :=
  match hostsNpub proxy qname with
  | some npub =>
      match npubQuery query npub with
      | none => (none, [])
      | some translated =>
          let (reply, events) :=
            forward proxy world.responder translated proxy.localResponder false
          (reply.bind (answerAsAsked query), events)
  | none => forward proxy world.responder query proxy.localResponder false

/-- The channel of a prefetching thread: how many looks find it empty, and what
it holds then (`none` when its sender is gone). -/
structure Receiver where
  empties : Nat
  arrival : Option (Option Bytes)
  deriving DecidableEq, Repr

def prefetchReceiver (prefetch : Prefetch) (reply : Option Bytes) : Receiver :=
  match prefetch with
  | .unspawned => ⟨0, none⟩
  | .died _ empties => ⟨empties, none⟩
  | .delivered empties => ⟨empties, some reply⟩

def prefetchEvents (prefetch : Prefetch) (events : List Event) : List Event :=
  match prefetch with
  | .unspawned => []
  | .died progress _ => events.take progress
  | .delivered _ => events

def clampTo (pubdom : PubdomCore) (legacy : Bytes) (cap : Nat) : Bytes :=
  (pubdom.clampTtls legacy cap).getD legacy

/-- The `forward` closure: a blocking `recv`, with the upstreams asked inline
when nothing was prefetched or the thread died. -/
def legacyReply (prefetched : Option Receiver) (askInline : Option Bytes × List Event) :
    Option Bytes × List Event :=
  match prefetched with
  | some ⟨_, some reply⟩ => (reply, [])
  | some ⟨_, none⟩ | none => askInline

/-- The variables of the wait that follows an early release. -/
structure EarlyWait where
  outcome : Option Decided
  legacy : Option (Option Bytes)
  prefetched : Option Receiver
  patience : Nat
  asked : Nat
  events : List Event

def EarlyWait.ask (decisions : Nat → Option Decided) (wait : EarlyWait) : EarlyWait :=
  { wait with
    outcome := decisions wait.asked
    asked := wait.asked + 1
    events := wait.events ++ [.askDecision] }

/-- `while outcome.is_none()`, with `fuel` bounding the number of rounds. -/
def earlyLoop (decisions : Nat → Option Decided) (askInline : Option Bytes × List Event) :
    Nat → EarlyWait → Option EarlyWait
  | 0, _ => none
  | fuel + 1, wait =>
      match wait.outcome, wait.legacy with
      | some _, _ => some wait
      | none, none =>
          match wait.prefetched with
          | some ⟨empties + 1, arrival⟩ =>
              let looked := { wait with prefetched := some ⟨empties, arrival⟩ }
              earlyLoop decisions askInline fuel (looked.ask decisions)
          | some ⟨0, some reply⟩ =>
              let fetched := { wait with legacy := some reply }
              earlyLoop decisions askInline fuel (fetched.ask decisions)
          | some ⟨0, none⟩ | none =>
              let fetched := { wait with
                legacy := some askInline.1
                events := wait.events ++ askInline.2 }
              earlyLoop decisions askInline fuel (fetched.ask decisions)
      | none, some (some _) => some wait
      | none, some none =>
          match wait.patience with
          | 0 => some wait
          | patience + 1 =>
              let waited := { wait with patience := patience }
              earlyLoop decisions askInline fuel (waited.ask decisions)

/-- What the proxy sends once the wait is over. -/
def EarlyWait.reply (pubdom : PubdomCore) (askInline : Option Bytes × List Event)
    (wait : EarlyWait) : Option Bytes × List Event :=
  let (legacy, later) :=
    match wait.legacy with
    | some legacy => (legacy, [])
    | none => legacyReply wait.prefetched askInline
  match wait.outcome with
  | some (.answer reply) => (some reply, wait.events)
  | some .legacy => (legacy, wait.events ++ later)
  | some (.capped cap) =>
      (legacy.map (clampTo pubdom · cap), wait.events ++ later)
  | none =>
      (wait.legacy.join.map (clampTo pubdom · pubdom.overrunTtlSecs), wait.events)

/-- Rounds enough for every empty look, every clock reading and both ends. -/
def earlyFuel (world : World) : Nat :=
  let empties :=
    match world.prefetch with
    | .unspawned => 0
    | .died _ empties | .delivered empties => empties
  empties + world.patience + 3

/-- The `match` on the lookup's outcome; `none` when the fuel of the loop runs
out. -/
def outcomeReply (pubdom : PubdomCore) (world : World) (prefetched : Option Receiver)
    (askInline : Option Bytes × List Event) :
    Outcome → Option (Option Bytes × List Event)
  | .answer reply => some (some reply, [])
  | .legacy => some (legacyReply prefetched askInline)
  | .capped cap =>
      let (legacy, events) := legacyReply prefetched askInline
      some (legacy.map (clampTo pubdom · cap), events)
  | .early decisions =>
      let wait : EarlyWait := ⟨none, none, prefetched, world.patience, 0, []⟩
      match earlyLoop decisions askInline (earlyFuel world) (wait.ask decisions) with
      | none => none
      | some wait => some (wait.reply pubdom askInline)

/-- The public-names branch of `serve`. -/
def publicReply (pubdom : PubdomCore) (proxy : DnsProxy) (world : World)
    (query : Bytes) : Option (Option Bytes × Trace) :=
  let askInline := forwardUpstreams proxy world.inlineNet query
  match proxy.names with
  | none => some (askInline.1, ⟨askInline.2, []⟩)
  | some lookup =>
      let run := lookup query
      let ahead := forwardUpstreams proxy world.prefetchNet query
      let prefetched :=
        if 0 < run.pendingCalls then some (prefetchReceiver world.prefetch ahead.1)
        else none
      let prefetching :=
        if 0 < run.pendingCalls then prefetchEvents world.prefetch ahead.2 else []
      match outcomeReply pubdom world prefetched askInline run.outcome with
      | none => none
      | some (reply, events) => some (reply, ⟨.lookup query :: events, prefetching⟩)

/-- The end of `serve`: the reply, or SERVFAIL for want of one, goes back to the
querier. -/
def respond (query : Ipv6Udp) (reply : Option Bytes) (trace : Trace) : Trace :=
  match reply.or (servfailFor query.payload) with
  | none => trace
  | some payload =>
      let response := buildIpv6Udp query.dst query.src 53 query.srcPort payload
      { trace with serving := trace.serving ++ [.emit response] }

/-- `DnsProxy::serve`; `none` when the fuel of its loop runs out. -/
def serve (pubdom : PubdomCore) (proxy : DnsProxy) (world : World) (packet : Bytes) :
    Option Trace :=
  match parseIpv6Udp packet with
  | none => some ⟨[], []⟩
  | some query =>
      let qname := (parseQname query.payload).getD []
      if isFips qname then
        let (reply, events) := fipsReply proxy world query.payload qname
        some (respond query reply ⟨events, []⟩)
      else
        match publicReply pubdom proxy world query.payload with
        | none => none
        | some (reply, trace) => some (respond query reply trace)

end Fips2Go.Dns
