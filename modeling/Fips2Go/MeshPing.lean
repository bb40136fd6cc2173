import Fips2Go.MeshUdp

/-!
# Whether a node answers

`ping` and `echo` of `shim/src/meshudp.rs`, the loop one pass at a time.  The
userspace ICMPv6 stack is a parameter; what becomes of the packets it transmits,
when packets arrive and what the clock reads are the input of a pass.  The loop
records the requests that it handed to the socket, the messages that the socket
delivered and the packets that the stack was fed.
-/

namespace Fips2Go.MeshPing

open GuardedRuns
open Ipv6Text (display)
open MeshTcp (FetchError isIcmpUnreachable)
open MeshUdp (TunPacketAction Wait)

structure Message where
  source : FixedBytes 16
  payload : Bytes

/-- An ICMPv6 stack with one socket, and how it writes an echo request and knows a
reply. -/
structure IcmpStack (Socket : Type) where
  bind : Socket → UInt16 → Except String Socket
  sendSlice : Socket → Bytes → FixedBytes 16 → Except String Socket
  poll : Socket → List Bytes → Nat → Socket × List Message
  echoRequest : UInt16 → UInt16 → Bytes → Bytes
  isEchoReply : Bytes → Bool

/-- The closure that `ping` hands to `echo`, where it fails. -/
def egress (addr : FixedBytes 16) : TunPacketAction → Option FetchError
  | .forward true => none
  | .forward false => some .engineRestarted
  | .hairpin => none
  | .respond =>
      some (.unreachableFor ("the node refused to send to " ++ String.ofList (display addr)))
  | .drop => none

/-- The outside of one pass; `leftAt` and `halfAt` are the two readings of the
clock, in milliseconds since the start. -/
structure Pass where
  alive : Bool
  now : Nat
  transmitted : List TunPacketAction
  leftAt : Nat
  halfAt : Nat
  wait : Wait

/-- The variables of the loop. -/
structure Echo (Socket : Type) where
  socket : Socket
  rx : List Bytes
  resent : Bool
  handed : List (Bytes × FixedBytes 16)
  delivered : List Message
  fed : List Bytes

/-- How a pass ends: the loop goes on, or `echo` returns. -/
inductive Ending where
  | goesOn
  | returns (result : Except FetchError Bool)

def reachability : Bytes := Utf8Text.encode "fips-pubdom reachability".toList

variable {Socket : Type}

/-- Unreachable errors are not a reply; everything else feeds the stack. -/
def Echo.handlePacket (state : Echo Socket) (packet : Bytes) : Echo Socket :=
  if isIcmpUnreachable packet then state else { state with rx := state.rx ++ [packet] }

def Echo.await (state : Echo Socket) : Wait → Echo Socket × Ending
  | .timeout => (state, .goesOn)
  | .disconnected => (state, .returns (.error .engineRestarted))
  | .packets first more => ((first :: more).foldl Echo.handlePacket state, .goesOn)

section Stack

variable (stack : IcmpStack Socket) (remote : FixedBytes 16) (ident : UInt16)

/-- The closure `send`. -/
def Echo.send (state : Echo Socket) (seqNo : UInt16) : Except FetchError (Echo Socket) :=
  let request := stack.echoRequest ident seqNo reachability
  match stack.sendSlice state.socket request remote with
  | .error e => .error (.other ("icmp send: " ++ e))
  | .ok socket => .ok { state with socket, handed := state.handed ++ [(request, remote)] }

/-- The variables before the first pass, on a socket bound to the identifier. -/
def Echo.opened (socket : Socket) : Except FetchError (Echo Socket) :=
  match stack.bind socket ident with
  | .error e => .error (.other ("icmp bind: " ++ e))
  | .ok socket => Echo.send stack remote ident ⟨socket, [], false, [], [], []⟩ 0

/-- An echo reply from the node that was asked. -/
def isReply (message : Message) : Bool :=
  message.source = remote && stack.isEchoReply message.payload

def Echo.polled (state : Echo Socket) (now : Nat) : Echo Socket × List Message :=
  let (socket, received) := stack.poll state.socket state.rx now
  ({ state with
      socket
      rx := []
      delivered := state.delivered ++ received
      fed := state.fed ++ state.rx }, received)

/-- A second request halfway: the first can race the path setup. -/
def Echo.resend (span : Nat) (state : Echo Socket) (input : Pass) :
    Except FetchError (Echo Socket) :=
  if state.resent = false ∧ span ≤ input.halfAt * 2 then
    (state.send stack remote ident 1).map fun state => { state with resent := true }
  else .ok state

/-- A pass from where no reply was found; `span` is the time from the start to the
deadline. -/
def Echo.settle (span : Nat) (state : Echo Socket) (input : Pass) : Echo Socket × Ending :=
  if span ≤ input.leftAt then (state, .returns (.ok false))
  else
    match state.resend stack remote ident span input with
    | .error error => (state, .returns (.error error))
    | .ok state => state.await input.wait

/-- One pass of the loop of `echo`. -/
def Echo.pass (span : Nat) (state : Echo Socket) (input : Pass) : Echo Socket × Ending :=
  if input.alive = false then (state, .returns (.error .engineRestarted))
  else
    let (state, received) := state.polled stack input.now
    match input.transmitted.findSome? (egress remote) with
    | some error => (state, .returns (.error error))
    | none =>
        if received.any (isReply stack remote) then (state, .returns (.ok true))
        else state.settle stack remote ident span input

/-- A pass after which the loop goes on. -/
def step (span : Nat) (state : Echo Socket) (input : Pass) : Option (Echo Socket) :=
  match state.pass stack remote ident span input with
  | (state, .goesOn) => some state
  | (_, .returns _) => none

end Stack

/-- `ping`, given what its `echo` comes to. -/
def ping (ourAddr addr : FixedBytes 16) (freePort : Bool) (echoed : Except FetchError Bool) :
    Except FetchError Bool :=
  if addr = ourAddr then .ok true
  else if freePort then echoed
  else .error (.other "no free local port")

/-- `reachable` of the mesh that the resolver is given. -/
def reachable (ourAddr addr : FixedBytes 16) (freePort : Bool)
    (echoed : Except FetchError Bool) : Bool :=
  match ping ourAddr addr freePort echoed with
  | .ok answers => answers
  | .error _ => false

/-! ### Single steps -/

section Passes

variable {stack : IcmpStack Socket} {remote : FixedBytes 16} {ident : UInt16} {span : Nat}
  {state sent final : Echo Socket} {input : Pass} {ending : Ending}

theorem foldl_handlePacket (packets : List Bytes) (state : Echo Socket) :
    packets.foldl Echo.handlePacket state =
      { state with
        rx := state.rx ++ packets.filter fun packet => !isIcmpUnreachable packet } := by
  induction packets generalizing state with
  | nil => simp
  | cons packet packets ih =>
      rw [List.foldl_cons, ih]
      unfold Echo.handlePacket
      by_cases unreachable : isIcmpUnreachable packet = true
      · rw [if_pos unreachable, List.filter_cons_of_neg (by simpa using unreachable)]
      · rw [if_neg unreachable, List.filter_cons_of_pos (by simpa using unreachable)]
        simp

theorem await_cases (awaited : state.await input.wait = (final, ending)) :
    (final = state ∧ input.wait = .disconnected ∧
        ending = .returns (.error .engineRestarted)) ∨
      (ending = .goesOn ∧ final = { state with
        rx := state.rx ++ input.wait.arrived.filter fun packet => !isIcmpUnreachable packet }) := by
  unfold Echo.await at awaited
  cases waited : input.wait with
  | timeout =>
      rw [waited] at awaited
      cases awaited
      exact .inr ⟨rfl, by simp [Wait.arrived]⟩
  | disconnected =>
      rw [waited] at awaited
      cases awaited
      exact .inl ⟨rfl, rfl, rfl⟩
  | packets first more =>
      rw [waited] at awaited
      cases awaited
      exact .inr ⟨rfl, foldl_handlePacket (first :: more) state⟩

theorem delivered_polled (stack : IcmpStack Socket) (state : Echo Socket) (now : Nat) :
    (state.polled stack now).1.delivered = state.delivered ++ (state.polled stack now).2 := rfl

/-- What is sent halfway, if anything. -/
theorem resend_cases (resends : state.resend stack remote ident span input = .ok sent) :
    sent = state ∨
      (state.resent = false ∧ span ≤ input.halfAt * 2 ∧ ∃ socket, sent = { state with
        socket
        resent := true
        handed := state.handed ++ [(stack.echoRequest ident 1 reachability, remote)] }) := by
  unfold Echo.resend at resends
  split at resends
  next due =>
    unfold Echo.send at resends
    simp only at resends
    split at resends
    · cases resends
    next socket taken =>
      cases resends
      exact .inr ⟨due.1, due.2, socket, rfl⟩
  next =>
    cases resends
    exact .inl rfl

/-- What a pass can do. -/
theorem pass_cases (passed : state.pass stack remote ident span input = (final, ending)) :
    (input.alive = false ∧ final = state ∧ ending = .returns (.error .engineRestarted)) ∨
    (input.alive = true ∧
      ((∃ action ∈ input.transmitted, ∃ error, egress remote action = some error ∧
          final = (state.polled stack input.now).1 ∧ ending = .returns (.error error)) ∨
        ((state.polled stack input.now).2.any (isReply stack remote) = true ∧
          final = (state.polled stack input.now).1 ∧ ending = .returns (.ok true)) ∨
        ((state.polled stack input.now).2.any (isReply stack remote) = false ∧
          ((span ≤ input.leftAt ∧ final = (state.polled stack input.now).1 ∧
              ending = .returns (.ok false)) ∨
            (input.leftAt < span ∧ final = (state.polled stack input.now).1 ∧
              ∃ message, ending = .returns (.error (.other message))) ∨
            (input.leftAt < span ∧ ∃ sent,
              (state.polled stack input.now).1.resend stack remote ident span input = .ok sent ∧
              sent.await input.wait = (final, ending)))))) := by
  unfold Echo.pass at passed
  split at passed
  next stopped =>
    cases passed
    exact .inl ⟨stopped, rfl, rfl⟩
  next running =>
    refine .inr ⟨by simpa using running, ?_⟩
    simp only at passed
    split at passed
    next error failed =>
      cases passed
      obtain ⟨action, member, fails⟩ := List.exists_of_findSome?_eq_some failed
      exact .inl ⟨action, member, error, fails, rfl, rfl⟩
    next =>
      split at passed
      next reply =>
        cases passed
        exact .inr (.inl ⟨reply, rfl, rfl⟩)
      next silent =>
        refine .inr (.inr ⟨Bool.eq_false_iff.mpr silent, ?_⟩)
        unfold Echo.settle at passed
        split at passed
        next late =>
          cases passed
          exact .inl ⟨late, rfl, rfl⟩
        next early =>
          have onTime : input.leftAt < span := Nat.lt_of_not_le early
          split at passed
          next error refused =>
            cases passed
            refine .inr (.inl ⟨onTime, rfl, ?_⟩)
            unfold Echo.resend Echo.send at refused
            simp only at refused
            split at refused
            · split at refused
              · cases refused
                exact ⟨_, rfl⟩
              · cases refused
            · cases refused
          next sent resends => exact .inr (.inr ⟨onTime, sent, resends, passed⟩)

end Passes

/-! ### Whole runs -/

/-- The packets that arrived in some passes. -/
def arrivals (passes : List Pass) : List Bytes := passes.flatMap fun pass => pass.wait.arrived

theorem arrivals_append (passes : List Pass) (input : Pass) :
    arrivals (passes ++ [input]) = arrivals passes ++ input.wait.arrived := by
  simp [arrivals]

/-- The requests of an echo: one, and another once the first was sent again. -/
def requests (stack : IcmpStack Socket) (remote : FixedBytes 16) (ident : UInt16)
    (resent : Bool) : List (Bytes × FixedBytes 16) :=
  (stack.echoRequest ident 0 reachability, remote) ::
    if resent then [(stack.echoRequest ident 1 reachability, remote)] else []

/-- Between two passes nothing has answered, no deadline was met, and the stack was
fed whatever is no unreachable error. -/
structure Waiting (stack : IcmpStack Socket) (remote : FixedBytes 16) (ident : UInt16)
    (span : Nat) (taken : List Pass) (state : Echo Socket) : Prop where
  handed : state.handed = requests stack remote ident state.resent
  half : state.resent = true → ∃ pass ∈ taken, span ≤ pass.halfAt * 2
  silent : state.delivered.any (isReply stack remote) = false
  fed : state.fed ++ state.rx = (arrivals taken).filter fun packet => !isIcmpUnreachable packet
  onTime : ∀ pass ∈ taken, pass.alive = true ∧ pass.leftAt < span

section Runs

variable {stack : IcmpStack Socket} {remote : FixedBytes 16} {ident : UInt16} {span : Nat}
  {taken : List Pass} {start state final next : Echo Socket} {input : Pass} {ending : Ending}

theorem Waiting.opened {socket : Socket}
    (opens : Echo.opened stack remote ident socket = .ok start) :
    Waiting stack remote ident span [] start := by
  unfold Echo.opened at opens
  split at opens
  · cases opens
  · unfold Echo.send at opens
    simp only at opens
    split at opens
    · cases opens
    · cases opens
      constructor
      · rfl
      · rintro ⟨⟩
      · rfl
      · rfl
      · rintro pass ⟨⟩

/-- What was handed over by the end of a pass that has sent again, or has not. -/
theorem Waiting.resend {sent : Echo Socket} (kept : Waiting stack remote ident span taken state)
    (resends : (state.polled stack input.now).1.resend stack remote ident span input =
      .ok sent) :
    sent.handed = requests stack remote ident sent.resent ∧
      (sent.resent = true → ∃ pass ∈ taken ++ [input], span ≤ pass.halfAt * 2) ∧
      sent.delivered = state.delivered ++ (state.polled stack input.now).2 ∧
      sent.fed = state.fed ++ state.rx ∧ sent.rx = [] := by
  rcases resend_cases resends with rfl | ⟨first, half, socket, rfl⟩
  · refine ⟨kept.handed, fun resent => ?_, rfl, rfl, rfl⟩
    obtain ⟨pass, member, half⟩ := kept.half resent
    exact ⟨pass, List.mem_append_left _ member, half⟩
  · have first : state.resent = false := first
    refine ⟨?_, fun _ => ⟨input, List.mem_append_right _ List.mem_cons_self, half⟩, rfl, rfl, rfl⟩
    change state.handed ++ _ = _
    rw [kept.handed, first]
    rfl

theorem Waiting.step (kept : Waiting stack remote ident span taken state)
    (stepTo : step stack remote ident span state input = some next) :
    Waiting stack remote ident span (taken ++ [input]) next := by
  have passed : state.pass stack remote ident span input = (next, .goesOn) := by
    unfold MeshPing.step at stepTo
    split at stepTo
    next equal =>
      cases stepTo
      exact equal
    · cases stepTo
  rcases pass_cases passed with ⟨-, -, ends⟩ | ⟨alive, ⟨_, -, _, -, -, ends⟩ | ⟨-, -, ends⟩ |
    ⟨noReply, ⟨-, -, ends⟩ | ⟨-, -, _, ends⟩ | ⟨early, sent, resends, awaited⟩⟩⟩
  · cases ends
  · cases ends
  · cases ends
  · cases ends
  · cases ends
  obtain ⟨handed, half, delivered, fed, rx⟩ := kept.resend resends
  rcases await_cases awaited with ⟨-, -, ends⟩ | ⟨-, rfl⟩
  · cases ends
  constructor
  · exact handed
  · exact half
  · change sent.delivered.any _ = false
    rw [delivered, List.any_append, kept.silent, noReply]
    rfl
  · change sent.fed ++ (sent.rx ++ _) = _
    rw [fed, rx, List.nil_append, kept.fed, arrivals_append, List.filter_append]
  · intro pass member
    rcases List.mem_append.mp member with earlier | last
    · exact kept.onTime pass earlier
    · rw [List.mem_singleton.mp last]
      exact ⟨alive, early⟩

theorem waiting_of_run {socket : Socket}
    (opens : Echo.opened stack remote ident socket = .ok start)
    (run : Run (step stack remote ident span) anyStep start taken state) :
    Waiting stack remote ident span taken state :=
  run.traceInvariant (.opened opens) fun _ _ _ _ kept _ stepTo => kept.step stepTo

theorem egress_error {action : TunPacketAction} {error : FetchError}
    (fails : egress remote action = some error) :
    (error.restarted = true → action = .forward false) ∧
      (error.unreachable = true → action = .respond) := by
  cases action with
  | forward taken =>
      cases taken with
      | true => cases fails
      | false =>
          cases fails
          exact ⟨fun _ => rfl, nofun⟩
  | respond =>
      cases fails
      exact ⟨nofun, fun _ => rfl⟩
  | hairpin => cases fails
  | drop => cases fails

/-- What an answer and an error tell. -/
structure Told (stack : IcmpStack Socket) (remote : FixedBytes 16) (span : Nat) (last : Pass)
    (final : Echo Socket) (result : Except FetchError Bool) : Prop where
  answer : ∀ answers, result = .ok answers → last.alive = true ∧
    answers = final.delivered.any (isReply stack remote) ∧
      (answers = false → span ≤ last.leftAt)
  restarted : ∀ error, result = .error error → error.restarted = true →
    last.alive = false ∨ .forward false ∈ last.transmitted ∨ last.wait = .disconnected
  unreachable : ∀ error, result = .error error → error.unreachable = true →
    .respond ∈ last.transmitted

/-- How a pass leaves the loop, or the records where it does not. -/
theorem Waiting.pass (kept : Waiting stack remote ident span taken state)
    (passed : state.pass stack remote ident span input = (final, ending)) :
    final.handed = requests stack remote ident final.resent ∧
      (final.resent = true → ∃ pass ∈ taken ++ [input], span ≤ pass.halfAt * 2) ∧
      (input.alive = false ∧ final = state ∨
        input.alive = true ∧ final.fed = state.fed ++ state.rx) ∧
      ∀ result, ending = .returns result → Told stack remote span input final result := by
  have half (resent : state.resent = true) : ∃ pass ∈ taken ++ [input], span ≤ pass.halfAt * 2 := by
    obtain ⟨pass, member, half⟩ := kept.half resent
    exact ⟨pass, List.mem_append_left _ member, half⟩
  rcases pass_cases passed with ⟨stopped, rfl, rfl⟩ | ⟨alive, ⟨action, member, error, fails, rfl,
    rfl⟩ | ⟨reply, rfl, rfl⟩ | ⟨noReply, ⟨late, rfl, rfl⟩ | ⟨-, rfl, message, rfl⟩ |
      ⟨-, sent, resends, awaited⟩⟩⟩
  · refine ⟨kept.handed, half, .inl ⟨stopped, rfl⟩, ?_⟩
    rintro _ ⟨⟩
    exact ⟨nofun, fun _ _ _ => .inl stopped, by rintro _ ⟨⟩ ⟨⟩⟩
  · refine ⟨kept.handed, half, .inr ⟨alive, rfl⟩, ?_⟩
    rintro _ ⟨⟩
    obtain ⟨restarted, unreachable⟩ := egress_error fails
    refine ⟨nofun, ?_, ?_⟩
    · rintro _ ⟨⟩ told
      exact .inr (.inl (restarted told ▸ member))
    · rintro _ ⟨⟩ told
      exact unreachable told ▸ member
  · refine ⟨kept.handed, half, .inr ⟨alive, rfl⟩, ?_⟩
    rintro _ ⟨⟩
    refine ⟨?_, nofun, nofun⟩
    rintro _ ⟨⟩
    refine ⟨alive, ?_, nofun⟩
    rw [delivered_polled, List.any_append, reply, Bool.or_true]
  · refine ⟨kept.handed, half, .inr ⟨alive, rfl⟩, ?_⟩
    rintro _ ⟨⟩
    refine ⟨?_, nofun, nofun⟩
    rintro _ ⟨⟩
    refine ⟨alive, ?_, fun _ => late⟩
    rw [delivered_polled, List.any_append, kept.silent, noReply]
    rfl
  · refine ⟨kept.handed, half, .inr ⟨alive, rfl⟩, ?_⟩
    rintro _ ⟨⟩
    exact ⟨nofun, by rintro _ ⟨⟩ ⟨⟩, by rintro _ ⟨⟩ ⟨⟩⟩
  · obtain ⟨handed, sentHalf, -, fed, -⟩ := kept.resend resends
    rcases await_cases awaited with ⟨rfl, gone, rfl⟩ | ⟨rfl, rfl⟩
    · refine ⟨handed, sentHalf, .inr ⟨alive, fed⟩, ?_⟩
      rintro _ ⟨⟩
      exact ⟨nofun, fun _ _ _ => .inr (.inr gone), by rintro _ ⟨⟩ ⟨⟩⟩
    · exact ⟨handed, sentHalf, .inr ⟨alive, fed⟩, nofun⟩

/-- In every run one request is sent, and at most one more, halfway to the
deadline; the stack is fed exactly the packets that are no unreachable errors, in
order, each by the pass after the one it arrived in, so that none of these ends
the wait; a node counts as reachable exactly if it has answered with an echo
reply, and is given up on only once the time is over; and a stopped engine is told
as such, whatever the node answered. -/
theorem reachable_means_answered {socket : Socket}
    (opens : Echo.opened stack remote ident socket = .ok start) {before : List Pass}
    (run : Run (step stack remote ident span) anyStep start before state) {last : Pass}
    (passed : state.pass stack remote ident span last = (final, ending)) :
    final.handed = requests stack remote ident final.resent ∧
      (final.resent = true → ∃ pass ∈ before ++ [last], span ≤ pass.halfAt * 2) ∧
      (last.alive = true →
        final.fed = (arrivals before).filter fun packet => !isIcmpUnreachable packet) ∧
      (last.alive = false → ending = .returns (.error .engineRestarted) ∧
        final.fed ++ final.rx =
          (arrivals before).filter fun packet => !isIcmpUnreachable packet) ∧
      (ending = .goesOn →
        final.fed ++ final.rx =
          (arrivals (before ++ [last])).filter fun packet => !isIcmpUnreachable packet) ∧
      ∀ result, ending = .returns result → Told stack remote span last final result ∧
        ∀ ourAddr freePort, reachable ourAddr remote freePort result = true →
          remote = ourAddr ∨ final.delivered.any (isReply stack remote) = true := by
  have kept := waiting_of_run opens run
  obtain ⟨handed, half, fed, told⟩ := kept.pass passed
  refine ⟨handed, half, ?_, ?_, ?_, fun result ends => ⟨told result ends, ?_⟩⟩
  · intro running
    rcases fed with ⟨stopped, -⟩ | ⟨-, polled⟩
    · rw [stopped] at running
      cases running
    · rw [polled, kept.fed]
  · intro stopped
    rcases pass_cases passed with ⟨-, rfl, ends⟩ | ⟨alive, -⟩
    · exact ⟨ends, kept.fed⟩
    · rw [stopped] at alive
      cases alive
  · rintro rfl
    have stepTo : MeshPing.step stack remote ident span state last = some final := by
      rw [MeshPing.step, passed]
    exact (kept.step stepTo).fed
  · intro ourAddr freePort reached
    by_cases own : remote = ourAddr
    · exact .inl own
    · refine .inr ?_
      unfold reachable ping at reached
      rw [if_neg own] at reached
      cases freePort with
      | false => cases reached
      | true =>
          cases result with
          | error error => cases reached
          | ok answers =>
              obtain ⟨-, same, -⟩ := (told _ ends).answer answers rfl
              exact same.symm.trans reached

end Runs

/-! ### A node that answers -/

private def farNode : FixedBytes 16 := ⟨List.replicate 15 0xfd ++ [9], rfl⟩

/-- A stack that takes each packet for a message of that node. -/
private def plainStack : IcmpStack Unit where
  bind _ _ := .ok ()
  sendSlice _ _ _ := .ok ()
  poll _ packets _ := ((), packets.map fun packet => ⟨farNode, packet⟩)
  echoRequest _ _ data := 128 :: data
  isEchoReply payload := payload.head? = some 129

private def waitingPass (wait : Wait) : Pass := ⟨true, 0, [.forward true], 40, 40, wait⟩

private def plainStart : Echo Unit :=
  ⟨(), [], false, [(128 :: reachability, farNode)], [], []⟩

/-- An error that some node on the way returned. -/
private def lostPacket : Bytes := List.replicate 6 0 ++ [58] ++ List.replicate 33 0 ++ [1, 0]

/-- The reply comes in with the second pass, behind an error that the stack does
not get to see. -/
theorem far_node_is_reachable : ∃ state final,
    Run (step plainStack farNode 7 1000) anyStep plainStart
      [waitingPass (.packets lostPacket [[129]])] state ∧
    state.pass plainStack farNode 7 1000 (waitingPass .timeout) = (final, .returns (.ok true)) ∧
    final.handed = requests plainStack farNode 7 false ∧
    final.fed = [[129]] ∧
    Told plainStack farNode 1000 (waitingPass .timeout) final (.ok true) := by
  have opens : Echo.opened plainStack farNode 7 () = .ok plainStart := rfl
  have run : Run (step plainStack farNode 7 1000) anyStep plainStart
      [waitingPass (.packets lostPacket [[129]])] _ := Run.nil.snoc trivial rfl
  refine ⟨_, _, run, rfl, ?_⟩
  obtain ⟨handed, -, fed, -, -, told⟩ := reachable_means_answered opens run
    (show Echo.pass plainStack farNode 7 1000 _ (waitingPass .timeout) =
      (_, .returns (.ok true)) from rfl)
  exact ⟨handed, (fed rfl).trans rfl, (told _ rfl).1⟩

end Fips2Go.MeshPing
