import Fips2Go.Ipv6Text
import Fips2Go.MeshTcp
import Mathlib.Data.Fintype.Card

/-!
# A query over the mesh

`exchange` of `shim/src/meshudp.rs`, one pass of its loop at a time.  The
userspace UDP stack is a parameter; what becomes of the packets it transmits,
when packets arrive and when the deadline passes are the input of a pass.  The
loop records the datagrams that it handed to the socket and those that the
socket delivered.
-/

namespace Fips2Go.MeshUdp

open GuardedRuns
open Ipv6Text (decimal display)
open MeshTcp (FetchError isIcmpUnreachable)

structure Endpoint where
  addr : FixedBytes 16
  port : UInt16
  deriving DecidableEq

structure Datagram where
  source : Endpoint
  payload : Bytes

/-- A UDP stack with one socket.  `poll` takes in the packets at that time and
yields the datagrams that the socket receives. -/
structure UdpStack (Socket : Type) where
  bind : Socket → UInt16 → Except String Socket
  sendSlice : Socket → Bytes → Endpoint → Except String Socket
  poll : Socket → List Bytes → Nat → Socket × List Datagram

def resends : Nat := 2

/-- What the node decides about a transmitted packet, and of a forwarded one
whether the engine took it. -/
inductive TunPacketAction where
  | forward (taken : Bool)
  | hairpin
  | respond
  | drop
  deriving DecidableEq

/-- The closure that `query` hands to `exchange`, where it fails. -/
def egress (addr : FixedBytes 16) : TunPacketAction → Option FetchError
  | .forward true => none
  | .forward false => some .engineRestarted
  | .hairpin => some (.other "that is this node's own address")
  | .respond =>
      some (.unreachableFor ("the node refused to send to " ++ String.ofList (display addr)))
  | .drop => none

/-- What `recv_timeout` yields, with the packets that `try_recv` finds behind
the first. -/
inductive Wait where
  | timeout
  | disconnected
  | packets (first : Bytes) (more : List Bytes)
  deriving DecidableEq

/-- The packets of a wait. -/
def Wait.arrived : Wait → List Bytes
  | .timeout | .disconnected => []
  | .packets first more => first :: more

/-- The outside of one pass.  `transmitted` are the packets of the poll, `late`
tells that the deadline is past. -/
structure Pass where
  alive : Bool
  now : Nat
  transmitted : List TunPacketAction
  late : Bool
  wait : Wait

/-- The variables of the loop; `handed` are the datagrams that `send_slice`
took, `delivered` those that the socket received. -/
structure Exchange (Socket : Type) where
  socket : Socket
  rx : List Bytes
  sends : Nat
  unreachable : Nat
  handed : List (Bytes × Endpoint)
  delivered : List Datagram

/-- How a pass ends: the loop goes on, or `exchange` returns. -/
inductive Ending where
  | goesOn
  | returns (result : Except FetchError Bytes)

def whereText (endpoint : Endpoint) : String :=
  "[" ++ String.ofList (display endpoint.addr) ++ "]:" ++
    String.ofList (decimal endpoint.port.toNat)

def noRoute (endpoint : Endpoint) : FetchError :=
  .unreachableFor ("no route to " ++ whereText endpoint ++
    " over the mesh (the node does not know a path to it)")

def noAnswer (endpoint : Endpoint) : FetchError :=
  .unreachableFor (whereText endpoint ++ " did not answer (is the node online?)")

/-- Only the server that was asked; anything else on this port is noise. -/
def recvLoop (endpoint : Endpoint) : List Datagram → Option Bytes
  | [] => none
  | datagram :: rest =>
      if datagram.source = endpoint then some datagram.payload else recvLoop endpoint rest

variable {Socket : Type}

def Exchange.handlePacket (state : Exchange Socket) (packet : Bytes) : Exchange Socket :=
  if isIcmpUnreachable packet then { state with unreachable := state.unreachable + 1 }
  else { state with rx := state.rx ++ [packet] }

def Exchange.await (state : Exchange Socket) : Wait → Exchange Socket × Ending
  | .timeout => (state, .goesOn)
  | .disconnected => (state, .returns (.error .engineRestarted))
  | .packets first more => ((first :: more).foldl Exchange.handlePacket state, .goesOn)

section Stack

variable (stack : UdpStack Socket) (endpoint : Endpoint) (msg : Bytes)

/-- The variables before the first pass, on a socket bound to the local port. -/
def Exchange.opened (socket : Socket) (localPort : UInt16) :
    Except FetchError (Exchange Socket) :=
  match stack.bind socket localPort with
  | .error e => .error (.other ("bind: " ++ e))
  | .ok socket =>
      .ok { socket, rx := [], sends := 0, unreachable := 0, handed := [], delivered := [] }

/-- The datagram is due: for the first time, or again after unreachables. -/
def Exchange.isDue (state : Exchange Socket) : Bool :=
  state.sends = 0 ∨
    (state.unreachable > 0 ∧ state.sends ≤ resends ∧ state.unreachable ≥ state.sends)

def Exchange.sendDue (state : Exchange Socket) : Except FetchError (Exchange Socket) :=
  if state.isDue then
    match stack.sendSlice state.socket msg endpoint with
    | .error e => .error (.other ("send: " ++ e))
    | .ok socket =>
        .ok { state with
          socket
          sends := state.sends + 1
          handed := state.handed ++ [(msg, endpoint)] }
  else .ok state

def Exchange.polled (state : Exchange Socket) (now : Nat) : Exchange Socket × List Datagram :=
  let (socket, received) := stack.poll state.socket state.rx now
  ({ state with socket, rx := [], delivered := state.delivered ++ received }, received)

/-- A pass from where no reply was found. -/
def Exchange.settle (state : Exchange Socket) (input : Pass) : Exchange Socket × Ending :=
  if state.unreachable > resends then (state, .returns (.error (noRoute endpoint)))
  else if input.late then (state, .returns (.error (noAnswer endpoint)))
  else state.await input.wait

/-- One pass of the loop of `exchange`. -/
def Exchange.pass (state : Exchange Socket) (input : Pass) : Exchange Socket × Ending :=
  if input.alive = false then (state, .returns (.error .engineRestarted))
  else
    match state.sendDue stack endpoint msg with
    | .error error => (state, .returns (.error error))
    | .ok state =>
        let (state, received) := state.polled stack input.now
        match input.transmitted.findSome? (egress endpoint.addr) with
        | some error => (state, .returns (.error error))
        | none =>
            match recvLoop endpoint received with
            | some bytes => (state, .returns (.ok bytes))
            | none => state.settle endpoint input

/-- A pass after which the loop goes on. -/
def step (state : Exchange Socket) (input : Pass) : Option (Exchange Socket) :=
  match state.pass stack endpoint msg input with
  | (state, .goesOn) => some state
  | (_, .returns _) => none

end Stack

/-! ### Single steps -/

/-- A bound socket takes every datagram. -/
def UdpStack.Sends (stack : UdpStack Socket) : Prop :=
  ∀ socket msg endpoint, ∃ next, stack.sendSlice socket msg endpoint = .ok next

theorem recvLoop_eq_find? (endpoint : Endpoint) (received : List Datagram) :
    recvLoop endpoint received =
      (received.find? fun datagram => datagram.source = endpoint).map (·.payload) := by
  induction received with
  | nil => rfl
  | cons datagram rest ih =>
      rw [recvLoop, List.find?_cons]
      by_cases asked : datagram.source = endpoint
      · simp [asked]
      · simp [asked, ih]

theorem find?_of_recvLoop {endpoint : Endpoint} {received : List Datagram} {bytes : Bytes}
    (reply : recvLoop endpoint received = some bytes) :
    (received.find? fun datagram => datagram.source = endpoint) = some ⟨endpoint, bytes⟩ := by
  rw [recvLoop_eq_find?, Option.map_eq_some_iff] at reply
  obtain ⟨datagram, found, payload⟩ := reply
  have source : datagram.source = endpoint := by simpa using List.find?_some found
  subst source payload
  exact found

theorem noise_of_recvLoop {endpoint : Endpoint} {received : List Datagram}
    (noReply : recvLoop endpoint received = none) :
    ∀ datagram ∈ received, datagram.source ≠ endpoint := by
  rw [recvLoop_eq_find?, Option.map_eq_none_iff] at noReply
  simpa using noReply

/-- The text of an error starts with a letter, that of a place with a bracket. -/
theorem noAnswer_ne_noRoute (endpoint : Endpoint) : noAnswer endpoint ≠ noRoute endpoint := by
  intro equal
  have texts := congrArg (fun error => error.message.toList.head?) equal
  simp [noAnswer, noRoute, whereText, FetchError.unreachableFor, String.toList_append] at texts

theorem engineRestarted_ne_noRoute (endpoint : Endpoint) :
    FetchError.engineRestarted ≠ noRoute endpoint := by
  intro equal
  have flags := congrArg (·.unreachable) equal
  cases flags

theorem egress_ne_noRoute {addr : FixedBytes 16} {action : TunPacketAction} {error : FetchError}
    (fails : egress addr action = some error) (endpoint : Endpoint) :
    error ≠ noRoute endpoint := by
  intro equal
  subst equal
  cases action with
  | forward taken => cases taken <;> simp [egress, noRoute, FetchError.unreachableFor,
      FetchError.engineRestarted] at fails
  | hairpin => simp [egress, noRoute, FetchError.unreachableFor, FetchError.other] at fails
  | respond =>
      simp only [egress, Option.some.injEq] at fails
      have texts := congrArg (fun error => error.message.toList.head?) fails
      simp [noRoute, FetchError.unreachableFor, String.toList_append] at texts
  | drop => simp [egress] at fails

theorem error_injective {error other : FetchError}
    (same : Ending.returns (.error error) = .returns (.error other)) : error = other := by
  injection same with same
  injection same

section Passes

variable {stack : UdpStack Socket} {endpoint : Endpoint} {msg : Bytes}
  {state final : Exchange Socket} {input : Pass} {ending : Ending}

/-- What a pass can do. -/
theorem pass_cases (sends : stack.Sends)
    (passed : state.pass stack endpoint msg input = (final, ending)) :
    (input.alive = false ∧ final = state ∧ ending = .returns (.error .engineRestarted)) ∨
    ∃ sent, input.alive = true ∧ state.sendDue stack endpoint msg = .ok sent ∧
      ((∃ action error, egress endpoint.addr action = some error ∧
          final = (sent.polled stack input.now).1 ∧ ending = .returns (.error error)) ∨
        (∃ bytes, recvLoop endpoint (sent.polled stack input.now).2 = some bytes ∧
          final = (sent.polled stack input.now).1 ∧ ending = .returns (.ok bytes)) ∨
        (recvLoop endpoint (sent.polled stack input.now).2 = none ∧
          (sent.polled stack input.now).1.settle endpoint input = (final, ending))) := by
  unfold Exchange.pass at passed
  split at passed
  next stopped =>
    cases passed
    exact Or.inl ⟨stopped, rfl, rfl⟩
  next running =>
    have sendsNow : ∃ sent, state.sendDue stack endpoint msg = .ok sent := by
      unfold Exchange.sendDue
      obtain ⟨socket, taken⟩ := sends state.socket msg endpoint
      rw [taken]
      split <;> exact ⟨_, rfl⟩
    obtain ⟨sent, sentNow⟩ := sendsNow
    refine Or.inr ⟨sent, by simpa using running, sentNow, ?_⟩
    rw [sentNow] at passed
    simp only at passed
    split at passed
    next error failed =>
      cases passed
      obtain ⟨action, _, fails⟩ := List.exists_of_findSome?_eq_some failed
      exact Or.inl ⟨action, error, fails, rfl, rfl⟩
    next =>
      split at passed
      next bytes reply =>
        cases passed
        exact Or.inr (Or.inl ⟨bytes, reply, rfl, rfl⟩)
      next noReply => exact Or.inr (Or.inr ⟨noReply, passed⟩)

/-- How a pass without a reply ends: an error, or the packets that arrived. -/
theorem settle_cases (settled : state.settle endpoint input = (final, ending)) :
    (final = state ∧ resends < state.unreachable ∧
        ending = .returns (.error (noRoute endpoint))) ∨
      (final = state ∧ (ending = .returns (.error (noAnswer endpoint)) ∨
        ending = .returns (.error .engineRestarted))) ∨
      (final = input.wait.arrived.foldl Exchange.handlePacket state ∧ ending = .goesOn) := by
  unfold Exchange.settle at settled
  split at settled
  next givesUp =>
    cases settled
    exact Or.inl ⟨rfl, givesUp, rfl⟩
  split at settled
  · cases settled
    exact Or.inr (Or.inl ⟨rfl, Or.inl rfl⟩)
  unfold Exchange.await at settled
  cases waited : input.wait with
  | timeout =>
      rw [waited] at settled
      cases settled
      exact Or.inr (Or.inr ⟨rfl, rfl⟩)
  | disconnected =>
      rw [waited] at settled
      cases settled
      exact Or.inr (Or.inl ⟨rfl, Or.inr rfl⟩)
  | packets first more =>
      rw [waited] at settled
      cases settled
      exact Or.inr (Or.inr ⟨rfl, rfl⟩)

theorem foldl_handlePacket (packets : List Bytes) (state : Exchange Socket) :
    (packets.foldl Exchange.handlePacket state).handed = state.handed ∧
      (packets.foldl Exchange.handlePacket state).sends = state.sends ∧
      (packets.foldl Exchange.handlePacket state).delivered = state.delivered ∧
      (packets.foldl Exchange.handlePacket state).unreachable =
        state.unreachable + packets.countP fun packet => isIcmpUnreachable packet := by
  induction packets generalizing state with
  | nil => exact ⟨rfl, rfl, rfl, rfl⟩
  | cons packet packets ih =>
      rw [List.foldl_cons]
      obtain ⟨handed, sends, delivered, unreachable⟩ := ih (state.handlePacket packet)
      rw [handed, sends, delivered, unreachable, List.countP_cons]
      unfold Exchange.handlePacket
      split
      · exact ⟨rfl, rfl, rfl, by simp only [Nat.add_assoc, Nat.add_comm 1]⟩
      · exact ⟨rfl, rfl, rfl, rfl⟩

end Passes

/-! ### Whole runs -/

/-- The unreachables that arrived in some passes. -/
def unreachables (passes : List Pass) : Nat :=
  (passes.flatMap fun pass => pass.wait.arrived).countP fun packet => isIcmpUnreachable packet

/-- Between two passes: the socket was handed nothing but the datagram, as often
as counted, the unreachables are those that arrived, and all that was delivered
is noise. -/
structure Disciplined (endpoint : Endpoint) (msg : Bytes) (taken : List Pass)
    (state : Exchange Socket) : Prop where
  handed : state.handed = List.replicate state.sends (msg, endpoint)
  atMost : state.sends ≤ resends + 1
  begun : taken ≠ [] → 0 < state.sends
  counted : state.unreachable = unreachables taken
  noise : ∀ datagram ∈ state.delivered, datagram.source ≠ endpoint

variable {stack : UdpStack Socket} {endpoint : Endpoint} {msg : Bytes} {taken : List Pass}
  {start state final : Exchange Socket} {input : Pass} {ending : Ending}

theorem Disciplined.opened {socket : Socket} {localPort : UInt16}
    (opens : Exchange.opened stack socket localPort = .ok start) :
    Disciplined endpoint msg [] start := by
  unfold Exchange.opened at opens
  split at opens
  · cases opens
  · cases opens
    exact ⟨rfl, Nat.zero_le _, fun some => absurd rfl some, rfl, by simp⟩

/-- Sending where it is due keeps the count and its bound. -/
theorem Disciplined.sendDue {sent : Exchange Socket} (kept : Disciplined endpoint msg taken state)
    (sentNow : state.sendDue stack endpoint msg = .ok sent) :
    sent.handed = List.replicate sent.sends (msg, endpoint) ∧ sent.sends ≤ resends + 1 ∧
      0 < sent.sends ∧ sent.unreachable = state.unreachable ∧
      sent.delivered = state.delivered := by
  unfold Exchange.sendDue at sentNow
  split at sentNow
  next due =>
    split at sentNow
    · cases sentNow
    · cases sentNow
      simp only [Exchange.isDue, decide_eq_true_eq] at due
      refine ⟨?_, ?_, Nat.succ_pos _, rfl, rfl⟩
      · rw [kept.handed, List.replicate_succ']
      · change state.sends + 1 ≤ resends + 1
        omega
  next notDue =>
    cases sentNow
    simp only [Exchange.isDue, decide_eq_true_eq] at notDue
    exact ⟨kept.handed, kept.atMost, by omega, rfl, rfl⟩

/-- What was handed over by the end of a pass, however it ends. -/
theorem Disciplined.pass (kept : Disciplined endpoint msg taken state) (sends : stack.Sends)
    (passed : state.pass stack endpoint msg input = (final, ending)) :
    final.handed = List.replicate final.sends (msg, endpoint) ∧ final.sends ≤ resends + 1 ∧
      (taken ≠ [] ∨ input.alive = true → 0 < final.sends) := by
  rcases pass_cases sends passed with ⟨stopped, rfl, _⟩ | ⟨sent, running, sentNow, exits⟩
  · refine ⟨kept.handed, kept.atMost, ?_⟩
    rintro (earlier | running)
    · exact kept.begun earlier
    · rw [stopped] at running
      cases running
  · obtain ⟨handed, atMost, begun, _, _⟩ := kept.sendDue sentNow
    rcases exits with ⟨_, _, _, rfl, _⟩ | ⟨_, _, rfl, _⟩ | ⟨_, settled⟩
    · exact ⟨handed, atMost, fun _ => begun⟩
    · exact ⟨handed, atMost, fun _ => begun⟩
    · rcases settle_cases settled with ⟨rfl, _⟩ | ⟨rfl, _⟩ | ⟨rfl, _⟩
      · exact ⟨handed, atMost, fun _ => begun⟩
      · exact ⟨handed, atMost, fun _ => begun⟩
      · obtain ⟨sameHanded, sameSends, _⟩ :=
          foldl_handlePacket input.wait.arrived (sent.polled stack input.now).1
        rw [sameHanded, sameSends]
        exact ⟨handed, atMost, fun _ => begun⟩

theorem unreachables_append (passes : List Pass) (input : Pass) :
    unreachables (passes ++ [input]) = unreachables passes +
      input.wait.arrived.countP fun packet => isIcmpUnreachable packet := by
  simp [unreachables, List.flatMap_append]

theorem Disciplined.step {next : Exchange Socket} (kept : Disciplined endpoint msg taken state)
    (sends : stack.Sends) (stepTo : step stack endpoint msg state input = some next) :
    Disciplined endpoint msg (taken ++ [input]) next := by
  have passed : state.pass stack endpoint msg input = (next, .goesOn) := by
    unfold MeshUdp.step at stepTo
    split at stepTo
    next equal =>
      cases stepTo
      exact equal
    · cases stepTo
  obtain ⟨handed, atMost, begun⟩ := kept.pass sends passed
  rcases pass_cases sends passed with ⟨_, _, ends⟩ | ⟨sent, running, sentNow, exits⟩
  · cases ends
  obtain ⟨_, _, _, unreachable, delivered⟩ := kept.sendDue sentNow
  rcases exits with ⟨_, _, _, _, ends⟩ | ⟨_, _, _, ends⟩ | ⟨noReply, settled⟩
  · cases ends
  · cases ends
  rcases settle_cases settled with ⟨_, _, ends⟩ | ⟨_, ends | ends⟩ | ⟨rfl, _⟩
  · cases ends
  · cases ends
  · cases ends
  obtain ⟨_, _, sameDelivered, counted⟩ :=
    foldl_handlePacket input.wait.arrived (sent.polled stack input.now).1
  refine ⟨handed, atMost, fun _ => begun (Or.inr running), ?_, ?_⟩
  · rw [counted, unreachables_append, ← kept.counted, ← unreachable]
    rfl
  · rw [sameDelivered]
    intro datagram member
    rcases List.mem_append.mp member with earlier | now
    · exact kept.noise datagram (delivered ▸ earlier)
    · exact noise_of_recvLoop noReply datagram now

theorem disciplined_of_run {socket : Socket} {localPort : UInt16} (sends : stack.Sends)
    (opens : Exchange.opened stack socket localPort = .ok start)
    (run : Run (step stack endpoint msg) anyStep start taken state) :
    Disciplined endpoint msg taken state :=
  run.traceInvariant (.opened opens) fun _ _ _ _ kept _ stepTo => kept.step sends stepTo

/-- A reply is the first datagram that the socket received from the endpoint. -/
theorem Disciplined.reply (kept : Disciplined endpoint msg taken state) (sends : stack.Sends)
    {bytes : Bytes}
    (passed : state.pass stack endpoint msg input = (final, .returns (.ok bytes))) :
    (final.delivered.find? fun datagram => datagram.source = endpoint) =
      some ⟨endpoint, bytes⟩ := by
  rcases pass_cases sends passed with ⟨_, _, ends⟩ | ⟨sent, _, sentNow, exits⟩
  · cases ends
  obtain ⟨_, _, _, _, delivered⟩ := kept.sendDue sentNow
  rcases exits with ⟨_, _, _, _, ends⟩ | ⟨bytes, reply, rfl, ends⟩ | ⟨_, settled⟩
  · cases ends
  · cases ends
    have earlier : (sent.delivered.find? fun datagram => datagram.source = endpoint) = none := by
      rw [delivered, List.find?_eq_none]
      simpa using kept.noise
    change ((sent.delivered ++ _).find? _) = _
    rw [List.find?_append, earlier]
    exact find?_of_recvLoop reply
  · rcases settle_cases settled with ⟨_, _, ends⟩ | ⟨_, ends | ends⟩ | ⟨_, ends⟩ <;> cases ends

/-- The loop gives up after more unreachables than it resends. -/
theorem Disciplined.noRoute (kept : Disciplined endpoint msg taken state) (sends : stack.Sends)
    (passed : state.pass stack endpoint msg input =
      (final, .returns (.error (noRoute endpoint)))) :
    resends < unreachables taken := by
  rcases pass_cases sends passed with ⟨_, _, ends⟩ | ⟨sent, _, sentNow, exits⟩
  · exact absurd (error_injective ends).symm (engineRestarted_ne_noRoute endpoint)
  obtain ⟨_, _, _, unreachable, _⟩ := kept.sendDue sentNow
  rcases exits with ⟨_, error, fails, _, ends⟩ | ⟨_, _, _, ends⟩ | ⟨_, settled⟩
  · cases ends
    exact absurd rfl (egress_ne_noRoute fails endpoint)
  · cases ends
  · rcases settle_cases settled with ⟨_, givesUp, _⟩ | ⟨_, ends | ends⟩ | ⟨_, ends⟩
    · rw [← kept.counted, ← unreachable]
      exact givesUp
    · exact absurd (error_injective ends).symm (noAnswer_ne_noRoute endpoint)
    · exact absurd (error_injective ends).symm (engineRestarted_ne_noRoute endpoint)
    · cases ends

/-- In every pass of every run the socket is handed nothing but the datagram, at
most once more often than it is resent, and at least once unless the engine was
stopped from the start; a reply is the first datagram from the endpoint; giving
up takes more unreachables than there are resends, and all sends where each
unreachable answers a datagram of its own; and a stopped engine is told as such. -/
theorem retries_are_disciplined (sends : stack.Sends) {socket : Socket} {localPort : UInt16}
    (opens : Exchange.opened stack socket localPort = .ok start) {before : List Pass}
    (run : Run (step stack endpoint msg) anyStep start before state) {last : Pass}
    (passed : state.pass stack endpoint msg last = (final, ending)) :
    final.handed = List.replicate final.handed.length (msg, endpoint) ∧
      final.handed.length ≤ resends + 1 ∧
      (final.handed = [] → before = [] ∧ last.alive = false) ∧
      (∀ bytes, ending = .returns (.ok bytes) →
        (final.delivered.find? fun datagram => datagram.source = endpoint) =
          some ⟨endpoint, bytes⟩) ∧
      (ending = .returns (.error (noRoute endpoint)) →
        resends < unreachables before ∧
          ∀ answered : Fin (unreachables before) → Fin final.handed.length,
            Function.Injective answered → final.handed.length = resends + 1) ∧
      (last.alive = false → ending = .returns (.error .engineRestarted) ∧
        FetchError.engineRestarted.unreachable = false) := by
  have kept : Disciplined endpoint msg before state := disciplined_of_run sends opens run
  obtain ⟨handed, atMost, begun⟩ := kept.pass sends passed
  have length : final.handed.length = final.sends := by rw [handed, List.length_replicate]
  rw [length]
  refine ⟨handed, atMost, ?_, ?_, ?_, ?_⟩
  · intro nothing
    have none : final.sends = 0 := by rw [← length, nothing, List.length_nil]
    constructor
    · by_contra some
      exact absurd (begun (Or.inl some)) (by omega)
    · by_contra alive
      exact absurd (begun (Or.inr (by simpa using alive))) (by omega)
  · rintro bytes rfl
    exact kept.reply sends passed
  · rintro rfl
    have enough := kept.noRoute sends passed
    refine ⟨enough, fun answered injective => ?_⟩
    have fits : unreachables before ≤ final.sends := by
      simpa using Fintype.card_le_of_injective answered injective
    omega
  · intro stopped
    rcases pass_cases sends passed with ⟨_, _, ends⟩ | ⟨_, running, _⟩
    · exact ⟨ends, rfl⟩
    · rw [stopped] at running
      cases running

/-! ### A query that is never answered -/

/-- A stack that takes every datagram and receives none. -/
def silentStack : UdpStack Unit where
  bind _ _ := .ok ()
  sendSlice _ _ _ := .ok ()
  poll _ _ _ := ((), [])

def exampleServer : Endpoint := ⟨⟨List.replicate 15 0xfd ++ [1], rfl⟩, 53⟩

/-- A pass in which an ICMPv6 unreachable arrives. -/
def refusedPass : Pass where
  alive := true
  now := 0
  transmitted := [.forward true]
  late := false
  wait := .packets (List.replicate 6 0 ++ [58] ++ List.replicate 33 0 ++ [1, 0]) []

def exampleStart : Exchange Unit where
  socket := ()
  rx := []
  sends := 0
  unreachable := 0
  handed := []
  delivered := []

/-- Three unreachables, each for a datagram of its own. -/
theorem no_route_after_three : ∃ state final,
    Run (step silentStack exampleServer [7]) anyStep exampleStart
      [refusedPass, refusedPass, refusedPass] state ∧
    state.pass silentStack exampleServer [7] refusedPass =
      (final, .returns (.error (noRoute exampleServer))) ∧
    final.handed.length = resends + 1 := by
  have sends : silentStack.Sends := fun _ _ _ => ⟨(), rfl⟩
  have opens : Exchange.opened silentStack () 9 = .ok exampleStart := rfl
  have run : Run (step silentStack exampleServer [7]) anyStep exampleStart
      [refusedPass, refusedPass, refusedPass] _ :=
    ((Run.nil.snoc trivial rfl).snoc trivial rfl).snoc trivial rfl
  refine ⟨_, _, run, rfl, ?_⟩
  have discipline := retries_are_disciplined sends opens run
    (show Exchange.pass silentStack exampleServer [7] _ refusedPass =
      (_, .returns (.error (noRoute exampleServer))) from rfl)
  exact (discipline.2.2.2.2.1 rfl).2 id Function.injective_id

end Fips2Go.MeshUdp
