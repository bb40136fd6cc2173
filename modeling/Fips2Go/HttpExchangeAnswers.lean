import Fips2Go.HttpExchange

/-!
# What a request over the mesh is answered with

Between two passes everything that the stack received has been read, and the
socket was handed a front of the request.  A response is what the received stream
stands for; where the stream says itself where its body ends, it is the response
of every longer stream too, however the stream was cut into packets and wherever
the connection broke.
-/

namespace Fips2Go.HttpExchange

open GuardedRuns Machine Bytes
open MeshHttp
open MeshTcp (FetchError TcpStack bufSize isIcmpUnreachable mayRecv)
open MeshUdp (Endpoint TunPacketAction Wait egress noAnswer noRoute whereText)

variable {Socket : Type} {stack : TcpStack Socket} {endpoint : Endpoint} {request : Bytes}
  {target : Target}

/-! ### The parts of a pass -/

/-- The bytes on their way in, the packets fed and what is known of the far node
stay. -/
structure KeepsRecords (before after : Exchange Socket) : Prop where
  arrived : after.arrived = before.arrived
  fed : after.fed = before.fed
  rx : after.rx = before.rx
  unreachable : after.unreachable = before.unreachable
  established : after.established = before.established

namespace KeepsRecords

variable {first second third : Exchange Socket}

theorem refl (state : Exchange Socket) : KeepsRecords state state := ⟨rfl, rfl, rfl, rfl, rfl⟩

theorem trans (earlier : KeepsRecords first second) (later : KeepsRecords second third) :
    KeepsRecords first third where
  arrived := later.arrived.trans earlier.arrived
  fed := later.fed.trans earlier.fed
  rx := later.rx.trans earlier.rx
  unreachable := later.unreachable.trans earlier.unreachable
  established := later.established.trans earlier.established

end KeepsRecords

/-- The socket was handed a front of the request, as long as counted. -/
structure HandsFront (request : Bytes) (state : Exchange Socket) : Prop where
  handed : state.handed = request.take state.sent
  within : state.sent ≤ request.length

theorem sendRequest_spec (correct : stack.Correct) (atMost : stack.TakesAtMost)
    {state : Exchange Socket} (front : HandsFront request state) :
    let after := state.sendRequest stack request
    KeepsRecords state after ∧ HandsFront request after ∧ after.data = state.data ∧
      stack.unread after.socket = stack.unread state.socket ∧
      stack.state after.socket = stack.state state.socket := by
  intro after
  by_cases ready : state.sent < request.length ∧ stack.canSend state.socket = true
  · have sends : after = { state with
        socket := (stack.sendSlice state.socket (request.drop state.sent)).2
        sent := state.sent + (stack.sendSlice state.socket (request.drop state.sent)).1
        handed := state.handed ++ (request.drop state.sent).take
          (stack.sendSlice state.socket (request.drop state.sent)).1 } := if_pos ready
    obtain ⟨unread, same, -⟩ := correct.sendSlice_spec state.socket (request.drop state.sent)
    have taken := atMost state.socket (request.drop state.sent)
    rw [List.length_drop] at taken
    rw [sends]
    refine ⟨⟨rfl, rfl, rfl, rfl, rfl⟩, ⟨?_, ?_⟩, rfl, unread, same⟩
    · simp only [front.handed]
      rw [List.take_add]
    · have bound := front.within
      simp only
      omega
  · have idle : after = state := if_neg ready
    rw [idle]
    exact ⟨.refl state, front, rfl, rfl, rfl⟩

variable (stack) in
/-- The state after one slice was read. -/
def Exchange.readSlice (state : Exchange Socket) : Exchange Socket :=
  { state with
    socket := (stack.recvSlice state.socket bufSize).2
    data := state.data ++ (stack.recvSlice state.socket bufSize).1 }

theorem recvLoop_succ {state : Exchange Socket} (fuel : Nat)
    (some : stack.unread state.socket ≠ [])
    (bytes : (stack.recvSlice state.socket bufSize).1 ≠ []) :
    state.recvLoop stack (fuel + 1) =
      if (state.readSlice stack).data.length > maxBody then
        ({ state.readSlice stack with
          socket := stack.abort (state.readSlice stack).socket }, true)
      else (state.readSlice stack).recvLoop stack fuel := by
  conv_lhs => unfold Exchange.recvLoop
  rw [if_neg some]
  exact if_neg bytes

/-- Reading moves the received stream into the response, until nothing is left or
the response is too large. -/
theorem recvLoop_spec (correct : stack.Correct) (fuel : Nat) (state : Exchange Socket)
    (enough : (stack.unread state.socket).length ≤ fuel)
    (accounted : state.data ++ stack.unread state.socket = state.arrived)
    (small : state.data.length ≤ maxBody) :
    let after := state.recvLoop stack fuel
    KeepsRecords state after.1 ∧
      (after.1.handed = state.handed ∧ after.1.sent = state.sent) ∧
      after.1.data <+: state.arrived ∧
      (after.2 = true → maxBody < state.arrived.length) ∧
      (after.2 = false → after.1.data = state.arrived ∧ stack.unread after.1.socket = [] ∧
        after.1.data.length ≤ maxBody ∧
        stack.state after.1.socket = stack.state state.socket) := by
  induction fuel generalizing state with
  | zero =>
      have empty := List.eq_nil_of_length_eq_zero (Nat.le_zero.mp enough)
      rw [empty, List.append_nil] at accounted
      exact ⟨.refl state, ⟨rfl, rfl⟩, accounted ▸ List.prefix_rfl, (by intro none; cases none),
        fun _ => ⟨accounted, empty, small, rfl⟩⟩
  | succ fuel ih =>
      obtain ⟨bytes, unread, same, -⟩ := correct.recvSlice_spec state.socket bufSize
      by_cases empty : stack.unread state.socket = []
      · unfold Exchange.recvLoop
        rw [if_pos empty]
        rw [empty, List.append_nil] at accounted
        exact ⟨.refl state, ⟨rfl, rfl⟩, accounted ▸ List.prefix_rfl, (by intro none; cases none),
          fun _ => ⟨accounted, empty, small, rfl⟩⟩
      · have some : (stack.recvSlice state.socket bufSize).1 ≠ [] := by
          rw [bytes]
          intro none
          rcases List.take_eq_nil_iff.mp none with size | unreadNone
          · exact absurd size (by decide)
          · exact empty unreadNone
        have keepsSlice : KeepsRecords state (state.readSlice stack) := ⟨rfl, rfl, rfl, rfl, rfl⟩
        have moved : (state.readSlice stack).data ++ stack.unread (state.readSlice stack).socket =
            state.arrived := by
          unfold Exchange.readSlice
          simp only
          rw [bytes, unread, List.append_assoc, List.take_append_drop, accounted]
        rw [recvLoop_succ fuel empty some]
        by_cases large : (state.readSlice stack).data.length > maxBody
        · rw [if_pos large]
          refine ⟨keepsSlice.trans ⟨rfl, rfl, rfl, rfl, rfl⟩, ⟨rfl, rfl⟩, ⟨_, moved⟩, fun _ => ?_,
            by intro none; cases none⟩
          rw [← moved, List.length_append]
          omega
        · rw [if_neg large]
          have shorter : (stack.unread (state.readSlice stack).socket).length ≤ fuel := by
            have positive := List.length_pos_of_ne_nil empty
            have chunk : bufSize = 16384 := rfl
            unfold Exchange.readSlice
            rw [unread, List.length_drop]
            omega
          obtain ⟨keeps, hands, front, tooLarge, whole⟩ :=
            ih (state.readSlice stack) shorter moved (Nat.le_of_not_lt large)
          refine ⟨keepsSlice.trans keeps, hands, front, tooLarge, fun goesOn => ?_⟩
          obtain ⟨data, unreadAfter, bound, state'⟩ := whole goesOn
          exact ⟨data, unreadAfter, bound, state'.trans same⟩

/-! ### Single passes -/

variable (stack request) in
/-- A pass up to where it looks at what it has read; whether that is too large. -/
def Exchange.transferred (state : Exchange Socket) (now : Nat) : Exchange Socket × Bool :=
  ((state.polled stack now).sendRequest stack request).recvLoop stack
    (stack.unread ((state.polled stack now).sendRequest stack request).socket).length

section Passes

variable {state final : Exchange Socket} {input : Pass} {ending : Ending}

/-- What a pass can do. -/
theorem pass_cases
    (passed : state.pass stack endpoint request target input = .ok (final, ending)) :
    (input.alive = false ∧ final = state ∧ ending = .returns (.error .engineRestarted)) ∨
    (∃ action ∈ input.transmitted, ∃ error, egress endpoint.addr action = some error ∧
      final = state.polled stack input.now ∧ ending = .returns (.error error)) ∨
    ∃ moved large, input.alive = true ∧ state.transferred stack request input.now = (moved, large) ∧
      ((large = true ∧ final = moved ∧ ending = .returns (.error tooLarge)) ∨
        (large = false ∧ moved.isDone stack target = .ok true ∧
          moved.finish target = .ok ending ∧
          final = { moved with socket := stack.poll (stack.close moved.socket) [] input.now }) ∨
        (large = false ∧ moved.isDone stack target = .ok false ∧
          moved.settle stack endpoint input = (final, ending))) := by
  unfold Exchange.pass at passed
  split at passed
  next stopped =>
    cases passed
    exact .inl ⟨stopped, rfl, rfl⟩
  next running =>
    have alive : input.alive = true := by simpa using running
    simp only at passed
    split at passed
    next error failed =>
      cases passed
      obtain ⟨action, member, fails⟩ := List.exists_of_findSome?_eq_some failed
      exact .inr (.inl ⟨action, member, error, fails, rfl, rfl⟩)
    next =>
      obtain ⟨moved, large, moves⟩ : ∃ moved large,
        state.transferred stack request input.now = (moved, large) := ⟨_, _, rfl⟩
      refine .inr (.inr ⟨moved, large, alive, moves, ?_⟩)
      unfold Exchange.transferred at moves
      rw [moves] at passed
      cases large with
      | true =>
          cases passed
          exact .inl ⟨rfl, rfl, rfl⟩
      | false =>
          simp only at passed
          cases complete : moved.isDone stack target with
          | error fault =>
              rw [complete] at passed
              cases passed
          | ok isWhole =>
              rw [complete] at passed
              cases isWhole with
              | false => exact .inr (.inr ⟨rfl, rfl, Except.ok.inj passed⟩)
              | true =>
                  cases finished : moved.finish target with
                  | error fault =>
                      rw [finished] at passed
                      cases passed
                  | ok answer =>
                      rw [finished] at passed
                      cases passed
                      exact .inr (.inl ⟨rfl, rfl, rfl, rfl⟩)

/-- What becomes of a complete response. -/
theorem finish_cases (finished : state.finish target = .ok ending) :
    (∃ response, parseResponse target state.data = .ok (.ok response) ∧
        ending = .returns (.ok response)) ∨
      ∃ message, ending = .returns (.error (.other message)) := by
  unfold Exchange.finish at finished
  cases parsed : parseResponse target state.data with
  | error fault =>
      rw [parsed] at finished
      cases finished
  | ok answer =>
      rw [parsed] at finished
      cases answer with
      | ok response =>
          cases finished
          exact .inl ⟨response, rfl, rfl⟩
      | error message =>
          cases finished
          exact .inr ⟨message, rfl⟩

/-- How a pass without a complete response ends. -/
theorem settle_cases (settled : state.settle stack endpoint input = (final, ending)) :
    (final = state ∧ (stack.state state.socket).isOpen = false ∧
        ending = .returns (.error (if state.established then closedEarly endpoint
          else refused endpoint))) ∨
      (stack.state state.socket).isOpen = true ∧
        ((final = state ∧ input.late = true ∧
            ending = .returns (.error (state.lateError endpoint))) ∨
          (final = state ∧ input.late = false ∧ input.wait = .disconnected ∧
            ending = .returns (.error .engineRestarted)) ∨
          (input.late = false ∧ input.wait ≠ .disconnected ∧
            final = input.wait.arrived.foldl Exchange.handlePacket state ∧
            ((unreachableLimit ≤ final.unreachable ∧ final.established = false ∧
                ending = .returns (.error (noRoute endpoint))) ∨
              ((final.established = false → final.unreachable < unreachableLimit) ∧
                ending = .goesOn)))) := by
  have after : ∀ {waited : Exchange Socket},
      waited.afterPackets endpoint = (final, ending) → final = waited ∧
        ((unreachableLimit ≤ final.unreachable ∧ final.established = false ∧
            ending = .returns (.error (noRoute endpoint))) ∨
          ((final.established = false → final.unreachable < unreachableLimit) ∧
            ending = .goesOn)) := by
    intro waited settles
    unfold Exchange.afterPackets at settles
    split at settles
    next givesUp =>
      cases settles
      exact ⟨rfl, .inl ⟨givesUp.1, givesUp.2, rfl⟩⟩
    next patient =>
      cases settles
      refine ⟨rfl, .inr ⟨fun opening => ?_, rfl⟩⟩
      by_contra many
      exact patient ⟨Nat.le_of_not_lt many, opening⟩
  unfold Exchange.settle at settled
  split at settled
  next shut =>
    cases settled
    exact .inl ⟨rfl, shut, rfl⟩
  next isOpen =>
    refine .inr ⟨by simpa using isOpen, ?_⟩
    split at settled
    next late =>
      cases settled
      exact .inl ⟨rfl, late, rfl⟩
    next inTime =>
      have early : input.late = false := by simpa using inTime
      unfold Exchange.await at settled
      cases waited : input.wait with
      | disconnected =>
          rw [waited] at settled
          cases settled
          exact .inr (.inl ⟨rfl, early, rfl, rfl⟩)
      | timeout =>
          rw [waited] at settled
          obtain ⟨rfl, exits⟩ := after settled
          exact .inr (.inr ⟨early, nofun, rfl, exits⟩)
      | packets first more =>
          rw [waited] at settled
          obtain ⟨rfl, exits⟩ := after settled
          exact .inr (.inr ⟨early, nofun, rfl, exits⟩)

theorem foldl_handlePacket (packets : List Bytes) (state : Exchange Socket) :
    packets.foldl Exchange.handlePacket state =
      { state with
        rx := state.rx ++ packets.filter fun packet => !isIcmpUnreachable packet
        unreachable := state.unreachable + packets.countP fun packet =>
          isIcmpUnreachable packet } := by
  induction packets generalizing state with
  | nil => simp
  | cons packet packets ih =>
      rw [List.foldl_cons, ih]
      unfold Exchange.handlePacket
      by_cases unreachable : isIcmpUnreachable packet = true
      · simp [unreachable, Nat.add_assoc, Nat.add_comm 1]
      · simp [unreachable]

end Passes

/-! ### Longer streams -/

variable (target) in
/-- The head of the stream tells where the body ends. -/
def Delimited (stream : Bytes) : Prop :=
  ∃ last, headerLength stream = some last ∧
    (isChunked (headText stream last) = true ∨
      (contentLength target (headText stream last)).isSome)

/-- A body that is there is the same whatever follows. -/
theorem bodyOf_append {head : Utf8Text.Text} {raw more body : Bytes}
    (fits : (raw ++ more).length < target.memory)
    (ends : isChunked head = true ∨ (contentLength target head).isSome)
    (read : bodyOf target head raw = .ok (.ok body)) :
    bodyOf target head (raw ++ more) = .ok (.ok body) := by
  rw [← read]
  unfold bodyOf at read ⊢
  by_cases chunked : isChunked head = true
  · rw [if_pos chunked] at read
    rw [if_pos chunked, if_pos chunked, dechunk_append_iff fits]
    intro _
    by_contra unsettled
    rw [List.length_append] at fits
    rw [dechunk_of_not_framed (by omega) unsettled] at read
    cases read
  · obtain ⟨size, declared⟩ := Option.isSome_iff_exists.mp (ends.resolve_left chunked)
    rw [if_neg chunked, declared] at read
    rw [if_neg chunked, if_neg chunked, declared]
    have within : size ≤ raw.length := by
      by_contra beyond
      simp only [getTo_of_lt (Nat.lt_of_not_le beyond)] at read
      cases read
    simp only [getTo_append (.inl within)]

/-- A parsed response is that of every longer stream that tells where it ends. -/
theorem parseResponse_append {data more : Bytes} {response : Response}
    (fits : (data ++ more).length < target.memory) (ends : Delimited target (data ++ more))
    (parsed : parseResponse target data = .ok (.ok response)) :
    parseResponse target (data ++ more) = .ok (.ok response) := by
  have dataFits : data.length < target.memory := by
    rw [List.length_append] at fits
    omega
  cases found : headerLength data with
  | none =>
      rw [parseResponse_of_none dataFits found] at parsed
      cases parsed
  | some last =>
      have bounds := headerLength_le found
      have otherFound := headerLength_append found more
      have head : headText (data ++ more) last = headText data last := by
        rw [headText, headText, List.take_append_of_le_length bounds.2]
      have behind : (data ++ more).drop last = data.drop last ++ more :=
        List.drop_append_of_le_length bounds.2
      obtain ⟨_, sameLast, kind⟩ := ends
      cases otherFound.symm.trans sameLast
      rw [head] at kind
      rw [← parsed, parseResponse_congr dataFits fits found otherFound head, behind]
      intro status
      obtain ⟨code, status⟩ := Option.isSome_iff_exists.mp status
      rw [parseResponse_of_some dataFits found, status] at parsed
      have rawFits : (data.drop last ++ more).length < target.memory := by
        rw [← behind, List.length_drop]
        omega
      obtain ⟨body, read⟩ :
          ∃ body, bodyOf target (headText data last) (data.drop last) = .ok body :=
        exists_bodyOf _ (by rw [List.length_append] at rawFits; omega)
      simp only [read] at parsed
      cases body with
      | error message => cases parsed
      | ok body => rw [bodyOf_append rawFits kind read, read]

/-! ### Whole runs -/

/-- The packets that arrived in some passes. -/
def arrivals (passes : List Pass) : List Bytes := passes.flatMap fun pass => pass.wait.arrived

theorem arrivals_append (passes : List Pass) (input : Pass) :
    arrivals (passes ++ [input]) = arrivals passes ++ input.wait.arrived := by
  simp [arrivals, List.flatMap_append]

/-- Between two passes: the socket was handed a front of the request, all that the
stack received has been read, every packet that is no unreachable is with the
stack or waits for it, and an attempt to connect has seen few unreachables. -/
structure Settled (stack : TcpStack Socket) (request : Bytes) (taken : List Pass)
    (state : Exchange Socket) : Prop where
  front : HandsFront request state
  whole : state.data = state.arrived
  unread : stack.unread state.socket = []
  isOpen : (stack.state state.socket).isOpen = true
  small : state.data.length ≤ maxBody
  counted : state.unreachable = (arrivals taken).countP fun packet => isIcmpUnreachable packet
  fed : state.fed ++ state.rx = (arrivals taken).filter fun packet => !isIcmpUnreachable packet
  patient : state.established = false → state.unreachable < unreachableLimit

variable {taken : List Pass} {start state final moved : Exchange Socket} {input : Pass}
  {ending : Ending} {large : Bool}

theorem Settled.opened {socket : Socket} (isOpen : (stack.state socket).isOpen = true)
    (unread : stack.unread socket = []) (opens : Exchange.opened (.ok socket) = .ok start) :
    Settled stack request [] start := by
  cases opens
  exact ⟨⟨rfl, Nat.zero_le _⟩, rfl, unread, isOpen, Nat.zero_le _, rfl, rfl,
    fun _ => Nat.succ_pos 2⟩

/-- A pass up to where it looks at what it has read. -/
theorem Settled.transferred (kept : Settled stack request taken state) (correct : stack.Correct)
    (atMost : stack.TakesAtMost)
    (moves : state.transferred stack request input.now = (moved, large)) :
    HandsFront request moved ∧ KeepsRecords (state.polled stack input.now) moved ∧
      moved.data <+: moved.arrived ∧
      (large = true → maxBody < moved.arrived.length) ∧
      (large = false → moved.data = moved.arrived ∧ stack.unread moved.socket = [] ∧
        moved.data.length ≤ maxBody) := by
  have polledFront : HandsFront request (state.polled stack input.now) :=
    ⟨kept.front.1, kept.front.2⟩
  obtain ⟨sendKeeps, sendFront, sendData, sendUnread, -⟩ :=
    sendRequest_spec correct atMost polledFront
  have accounted : ((state.polled stack input.now).sendRequest stack request).data ++
      stack.unread ((state.polled stack input.now).sendRequest stack request).socket =
      ((state.polled stack input.now).sendRequest stack request).arrived := by
    rw [sendData, sendUnread, sendKeeps.arrived]
    change state.data ++ stack.unread (stack.poll state.socket state.rx input.now) =
      state.arrived ++ _
    rw [correct.unread_poll _ _ _ kept.isOpen, kept.unread, List.nil_append, kept.whole]
  obtain ⟨readKeeps, ⟨handed, sent⟩, front, tooLarge, whole⟩ :=
    recvLoop_spec correct _ ((state.polled stack input.now).sendRequest stack request)
      (Nat.le_refl _) accounted (by rw [sendData]; exact kept.small)
  unfold Exchange.transferred at moves
  rw [moves] at readKeeps handed sent front tooLarge whole
  refine ⟨⟨?_, ?_⟩, sendKeeps.trans readKeeps, ?_, ?_, ?_⟩
  · rw [handed, sent, sendFront.handed]
  · rw [sent]
    exact sendFront.within
  · rw [readKeeps.arrived]
    exact front
  · rw [readKeeps.arrived]
    exact tooLarge
  · rw [readKeeps.arrived]
    intro goesOn
    obtain ⟨data, unread, small, -⟩ := whole goesOn
    exact ⟨data, unread, small⟩

/-- What was handed over by the end of a pass, however it ends. -/
theorem Settled.handsFront (kept : Settled stack request taken state) (correct : stack.Correct)
    (atMost : stack.TakesAtMost)
    (passed : state.pass stack endpoint request target input = .ok (final, ending)) :
    HandsFront request final := by
  rcases pass_cases passed with ⟨-, rfl, -⟩ | ⟨_, -, _, -, rfl, -⟩ |
    ⟨moved, large, -, moves, ⟨-, rfl, -⟩ | ⟨-, -, -, rfl⟩ | ⟨-, -, settled⟩⟩
  · exact kept.front
  · exact ⟨kept.front.1, kept.front.2⟩
  · exact (kept.transferred correct atMost moves).1
  · obtain ⟨front, -⟩ := kept.transferred correct atMost moves
    exact ⟨front.1, front.2⟩
  · obtain ⟨front, -⟩ := kept.transferred correct atMost moves
    rcases settle_cases settled with ⟨rfl, -⟩ | ⟨-, ⟨rfl, -⟩ | ⟨rfl, -⟩ | ⟨-, -, rfl, -⟩⟩
    · exact front
    · exact front
    · exact front
    · rw [foldl_handlePacket]
      exact ⟨front.1, front.2⟩

theorem Settled.step {next : Exchange Socket} (kept : Settled stack request taken state)
    (correct : stack.Correct) (atMost : stack.TakesAtMost)
    (stepTo : step stack endpoint request target state input = some next) :
    Settled stack request (taken ++ [input]) next := by
  have passed : state.pass stack endpoint request target input = .ok (next, .goesOn) := by
    unfold HttpExchange.step at stepTo
    split at stepTo
    next equal =>
      cases stepTo
      exact equal
    · cases stepTo
    · cases stepTo
  have front := kept.handsFront correct atMost passed
  rcases pass_cases passed with ⟨-, -, ends⟩ | ⟨_, -, _, -, -, ends⟩ |
    ⟨moved, large, -, moves, ⟨-, -, ends⟩ | ⟨-, -, finished, -⟩ | ⟨rfl, -, settled⟩⟩
  · cases ends
  · cases ends
  · cases ends
  · rcases finish_cases finished with ⟨_, -, ends⟩ | ⟨_, ends⟩ <;> cases ends
  obtain ⟨-, keeps, -, -, whole⟩ := kept.transferred correct atMost moves
  obtain ⟨data, unread, small⟩ := whole rfl
  rcases settle_cases settled with ⟨-, -, ends⟩ | ⟨isOpen, ⟨-, -, ends⟩ | ⟨-, -, -, ends⟩ |
    ⟨-, -, rfl, ⟨-, -, ends⟩ | ⟨patient, -⟩⟩⟩
  · cases ends
  · cases ends
  · cases ends
  · cases ends
  rw [foldl_handlePacket] at front patient ⊢
  refine ⟨front, data, unread, isOpen, small, ?_, ?_, patient⟩
  · rw [arrivals_append, List.countP_append, ← kept.counted]
    simp only [keeps.unreachable]
    rfl
  · rw [arrivals_append, List.filter_append, ← kept.fed]
    simp only [keeps.fed, keeps.rx]
    rw [← List.append_assoc]
    congr 1
    exact List.append_nil _

theorem settled_of_run (correct : stack.Correct) (atMost : stack.TakesAtMost) {socket : Socket}
    (isOpen : (stack.state socket).isOpen = true) (unread : stack.unread socket = [])
    (opens : Exchange.opened (.ok socket) = .ok start)
    (run : Run (step stack endpoint request target) anyStep start taken state) :
    Settled stack request taken state :=
  run.traceInvariant (.opened isOpen unread opens) fun _ _ _ _ kept _ stepTo =>
    kept.step correct atMost stepTo

/-- A response is only returned from a complete one. -/
theorem Settled.response (kept : Settled stack request taken state) (correct : stack.Correct)
    (atMost : stack.TakesAtMost) {response : Response}
    (passed : state.pass stack endpoint request target input =
      .ok (final, .returns (.ok response))) :
    final.established = true ∧ final.arrived.length ≤ maxBody ∧
      parseResponse target final.arrived = .ok (.ok response) := by
  rcases pass_cases passed with ⟨-, -, ends⟩ | ⟨_, -, _, -, -, ends⟩ |
    ⟨moved, large, -, moves, ⟨-, -, ends⟩ | ⟨rfl, complete, finished, rfl⟩ | ⟨-, -, settled⟩⟩
  · cases ends
  · cases ends
  · cases ends
  · obtain ⟨-, -, -, -, whole⟩ := kept.transferred correct atMost moves
    obtain ⟨data, -, small⟩ := whole rfl
    refine ⟨?_, data ▸ small, ?_⟩
    · by_contra opening
      rw [Exchange.isDone, if_neg opening] at complete
      cases complete
    · rcases finish_cases finished with ⟨_, parsed, ends⟩ | ⟨_, ends⟩
      · cases ends
        rw [← data]
        exact parsed
      · cases ends
  · rcases settle_cases settled with ⟨-, -, ends⟩ | ⟨-, ⟨-, -, ends⟩ | ⟨-, -, -, ends⟩ |
      ⟨-, -, -, ⟨-, -, ends⟩ | ⟨-, ends⟩⟩⟩ <;> cases ends

/-- In every run the socket is handed a front of the request, and a response is
that of the stream received by then; where the stream tells where its body ends,
it is the response of the whole stream, however much of it is still to come. -/
theorem response_is_of_the_stream (correct : stack.Correct) (atMost : stack.TakesAtMost)
    {socket : Socket} (isOpen : (stack.state socket).isOpen = true)
    (unread : stack.unread socket = []) (opens : Exchange.opened (.ok socket) = .ok start)
    {before : List Pass} (run : Run (step stack endpoint request target) anyStep start before state)
    {last : Pass} (passed : state.pass stack endpoint request target last = .ok (final, ending)) :
    final.handed <+: request ∧
      ∀ response, ending = .returns (.ok response) →
        final.established = true ∧ final.arrived.length ≤ maxBody ∧
          parseResponse target final.arrived = .ok (.ok response) ∧
          ∀ stream, final.arrived <+: stream → stream.length < target.memory →
            Delimited target stream → parseResponse target stream = .ok (.ok response) := by
  have kept := settled_of_run correct atMost isOpen unread opens run
  refine ⟨?_, ?_⟩
  · rw [(kept.handsFront correct atMost passed).handed]
    exact List.take_prefix _ _
  · rintro response rfl
    obtain ⟨established, small, parsed⟩ := kept.response correct atMost passed
    refine ⟨established, small, parsed, ?_⟩
    rintro stream ⟨more, rfl⟩ fits ends
    exact parseResponse_append fits ends parsed

/-! ### A response that is cut in two -/

private def exampleEndpoint : Endpoint := ⟨⟨List.replicate 15 0xfd ++ [7], rfl⟩, 80⟩

private def hello : Bytes :=
  Utf8Text.encode "HTTP/1.1 200 OK\r\nContent-Length: 2\r\n\r\n".toList

private def waiting (wait : Wait) : Pass := ⟨true, 0, [.forward true], false, wait⟩

private def answering : List Pass :=
  [waiting (.packets (MeshTcp.relayed 18 []) []),
    waiting (.packets (MeshTcp.relayed 16 (hello ++ [111])) []),
    waiting (.packets (MeshTcp.relayed 16 [107]) [])]

private def exampleStart : Exchange MeshTcp.Connection :=
  ⟨MeshTcp.opened, [], 0, false, 0, [], [], [], []⟩

private def examplePass (state : Exchange MeshTcp.Connection) :
    Checked (Exchange MeshTcp.Connection × Ending) :=
  state.pass MeshTcp.Connection.tcp exampleEndpoint [71] ⟨.bits64, true⟩ (waiting .timeout)

private def exampleStep (state : Exchange MeshTcp.Connection) (input : Pass) :
    Option (Exchange MeshTcp.Connection) :=
  step MeshTcp.Connection.tcp exampleEndpoint [71] ⟨.bits64, true⟩ state input

private def answered : Checked (Exchange MeshTcp.Connection × Ending) → Bool
  | .ok (final, .returns (.ok response)) =>
      final.arrived = hello ++ [111, 107] ∧ response = ⟨200, [111, 107]⟩
  | _ => false

/-- A body that arrives in two segments is returned, and a longer stream would not
change it. -/
theorem cut_response_is_returned : ∃ before state final,
    Run exampleStep anyStep exampleStart before state ∧
    examplePass state = .ok (final, .returns (.ok ⟨200, [111, 107]⟩)) ∧
    final.handed <+: [71] ∧
    parseResponse ⟨.bits64, true⟩ (hello ++ [111, 107] ++ [1, 2, 3]) =
      .ok (.ok ⟨200, [111, 107]⟩) := by
  obtain ⟨state, run, passed⟩ : ∃ state,
      Run exampleStep anyStep exampleStart answering state ∧ answered (examplePass state) = true :=
    exists_run_of_execute _ (by decide +kernel)
  obtain ⟨final, passed, arrived⟩ : ∃ final,
      examplePass state = .ok (final, .returns (.ok ⟨200, [111, 107]⟩)) ∧
        final.arrived = hello ++ [111, 107] := by
    revert passed
    match examplePass state with
    | .ok (final, .returns (.ok response)) =>
        intro passed
        obtain ⟨arrived, rfl⟩ := by simpa [answered] using passed
        exact ⟨final, rfl, by simpa using arrived⟩
    | .ok (_, .returns (.error _)) => exact nofun
    | .ok (_, .goesOn) => exact nofun
    | .error _ => exact nofun
  have opens : Exchange.opened (.ok MeshTcp.opened) = .ok exampleStart := rfl
  obtain ⟨handed, answers⟩ := response_is_of_the_stream MeshTcp.Connection.correct
    (fun _ _ => Nat.le_refl _) rfl rfl opens run passed
  obtain ⟨-, -, -, longer⟩ := answers _ rfl
  refine ⟨answering, state, final, run, passed, handed, longer _ ?_ (by decide +kernel) ?_⟩
  · rw [arrived]
    exact List.prefix_append _ _
  · exact ⟨38, by rfl, .inr (by rfl)⟩

end Fips2Go.HttpExchange
