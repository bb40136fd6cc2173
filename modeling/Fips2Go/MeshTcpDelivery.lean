import Fips2Go.MeshTcp

/-!
# What the pipe delivers

Every byte of the relay's stream is written to the local socket, waits for it,
or is unread in the TCP socket, in this order.  The exits that look at the
state of the connection alone do not ask whether anything waits: a run that
ends well after the relay's end of stream has delivered the stream exactly when
the local socket took, in the last pass, all that was left.
-/

namespace Fips2Go.MeshTcp

open GuardedRuns

variable {Socket : Type} {stack : TcpStack Socket}

/-! ### What the parts of a pass keep -/

/-- The bytes on their way and what is known of the connection stay. -/
structure Keeps (stack : TcpStack Socket) (before after : Pipe Socket) : Prop where
  delivered : after.delivered = before.delivered
  written : after.written = before.written
  toLocal : after.toLocal = before.toLocal
  established : after.established = before.established
  unread : stack.unread after.socket = stack.unread before.socket
  fin : stack.fin after.socket = stack.fin before.socket
  reset : stack.reset after.socket = stack.reset before.socket

namespace Keeps

variable {first second third : Pipe Socket}

theorem refl (pipe : Pipe Socket) : Keeps stack pipe pipe := ⟨rfl, rfl, rfl, rfl, rfl, rfl, rfl⟩

theorem trans (earlier : Keeps stack first second) (later : Keeps stack second third) :
    Keeps stack first third where
  delivered := later.delivered.trans earlier.delivered
  written := later.written.trans earlier.written
  toLocal := later.toLocal.trans earlier.toLocal
  established := later.established.trans earlier.established
  unread := later.unread.trans earlier.unread
  fin := later.fin.trans earlier.fin
  reset := later.reset.trans earlier.reset

end Keeps

section Parts

variable (correct : stack.Correct)
include correct

theorem keeps_sendLoop (fuel : Nat) (fronts : List Nat) (pipe : Pipe Socket) :
    Keeps stack pipe (pipe.sendLoop stack fuel fronts) ∧
      stack.state (pipe.sendLoop stack fuel fronts).socket = stack.state pipe.socket ∧
      (pipe.sendLoop stack fuel fronts).localClosed = pipe.localClosed := by
  induction fuel generalizing fronts pipe with
  | zero => exact ⟨.refl pipe, rfl, rfl⟩
  | succ fuel ih =>
      obtain ⟨unread, state, fin, reset⟩ :=
        correct.sendSlice_spec pipe.socket (frontSlice pipe.toMesh fronts)
      unfold Pipe.sendLoop
      split
      · exact ⟨.refl pipe, rfl, rfl⟩
      · simp only
        split
        · exact ⟨⟨rfl, rfl, rfl, rfl, unread, fin, reset⟩, state, rfl⟩
        · obtain ⟨keeps, kept, closed⟩ := ih _ _
          refine ⟨Keeps.trans ?_ keeps, kept.trans state, closed⟩
          exact ⟨rfl, rfl, rfl, rfl, unread, fin, reset⟩

theorem keeps_closeOnce (pipe : Pipe Socket) : Keeps stack pipe (pipe.closeOnce stack) :=
  ⟨rfl, rfl, rfl, rfl, (correct.close_spec pipe.socket).1, (correct.close_spec pipe.socket).2.1,
    (correct.close_spec pipe.socket).2.2⟩

theorem keeps_shutLocal (pipe : Pipe Socket) : Keeps stack pipe (pipe.shutLocal stack) := by
  have shut : Keeps stack pipe { pipe with localShut := true } :=
    ⟨rfl, rfl, rfl, rfl, rfl, rfl, rfl⟩
  unfold Pipe.shutLocal
  split
  · simp only
    split
    · exact shut.trans (keeps_closeOnce correct _)
    · exact shut
  · exact .refl pipe

/-- The close of our side when the local client has closed its own. -/
theorem keeps_offer (pipe : Pipe Socket) :
    let offered := if pipe.localClosed ∧ pipe.toMesh = [] ∧ pipe.closeSent = false then
      pipe.closeOnce stack else pipe
    Keeps stack pipe offered ∧ (pipe.localClosed = false → offered = pipe) := by
  intro offered
  constructor
  · by_cases finished : pipe.localClosed ∧ pipe.toMesh = [] ∧ pipe.closeSent = false
    · rw [show offered = pipe.closeOnce stack from if_pos finished]
      exact keeps_closeOnce correct pipe
    · rw [show offered = pipe from if_neg finished]
      exact .refl pipe
  · intro unclosed
    exact if_neg (by simp [unclosed])

/-- Chunks are taken off the socket while the local queue has not reached its
limit before one. -/
theorem recvLoop_spec (fuel : Nat) (pipe : Pipe Socket)
    (enough : (stack.unread pipe.socket).length ≤ fuel) :
    let after := pipe.recvLoop stack fuel
    (after.delivered = pipe.delivered ∧ after.written = pipe.written ∧
      after.established = pipe.established) ∧
    after.toLocal ++ stack.unread after.socket =
      pipe.toLocal ++ stack.unread pipe.socket ∧
    (stack.state after.socket = stack.state pipe.socket ∧
      stack.fin after.socket = stack.fin pipe.socket ∧
      stack.reset after.socket = stack.reset pipe.socket) ∧
    (stack.unread after.socket = [] ↔ stack.unread pipe.socket = [] ∨
      pipe.toLocal.length + bufSize * (((stack.unread pipe.socket).length - 1) / bufSize) <
        toLocalLimit) := by
  induction fuel generalizing pipe with
  | zero =>
      have empty := List.eq_nil_of_length_eq_zero (Nat.le_zero.mp enough)
      exact ⟨⟨rfl, rfl, rfl⟩, rfl, ⟨rfl, rfl, rfl⟩, by simp [Pipe.recvLoop, empty]⟩
  | succ fuel ih =>
      obtain ⟨bytes, unread, state, fin, reset⟩ := correct.recvSlice_spec pipe.socket bufSize
      unfold Pipe.recvLoop
      simp only
      by_cases room : pipe.toLocal.length < toLocalLimit ∧ stack.unread pipe.socket ≠ []
      · rw [if_pos room]
        have some : (stack.recvSlice pipe.socket bufSize).1 ≠ [] := by
          rw [bytes]
          intro none
          rcases List.take_eq_nil_iff.mp none with size | empty
          · exact absurd size (by decide)
          · exact room.2 empty
        rw [if_neg some]
        have positive := List.length_pos_of_ne_nil room.2
        have chunk : bufSize = 16384 := rfl
        have shorter : (stack.unread (stack.recvSlice pipe.socket bufSize).2).length ≤ fuel := by
          rw [unread, List.length_drop]
          omega
        obtain ⟨⟨delivered, written, established⟩, queue, ⟨state', fin', reset'⟩, drained⟩ :=
          ih { pipe with
            socket := (stack.recvSlice pipe.socket bufSize).2
            toLocal := pipe.toLocal ++ (stack.recvSlice pipe.socket bufSize).1 } shorter
        refine ⟨⟨delivered, written, established⟩, ?_,
          ⟨state'.trans state, fin'.trans fin, reset'.trans reset⟩, ?_⟩
        · rw [queue, bytes, unread, List.append_assoc, List.take_append_drop]
        · rw [drained, unread, bytes]
          rw [List.drop_eq_nil_iff, List.length_append, List.length_drop, List.length_take, chunk]
          have limit := room.1
          simp only [room.2, false_or]
          omega
      · rw [if_neg room]
        refine ⟨⟨rfl, rfl, rfl⟩, rfl, ⟨rfl, rfl, rfl⟩, ?_⟩
        have full : stack.unread pipe.socket ≠ [] → toLocalLimit ≤ pipe.toLocal.length :=
          fun some => Nat.le_of_not_lt fun less => room ⟨less, some⟩
        constructor
        · exact .inl
        · rintro (empty | less)
          · exact empty
          · by_contra some
            have := full some
            omega

end Parts

/-- What the writes before the first one that does not go through accept. -/
def accepted : List LocalWrite → Nat
  | .accepted (size + 1) :: answers => size + 1 + accepted answers
  | _ => 0

/-- Writes take from the front of the local queue. -/
theorem writeLoop_spec (answers : List LocalWrite) (pipe : Pipe Socket) :
    let after := (pipe.writeLoop answers).1
    (.failed ∉ answers → (pipe.writeLoop answers).2 = false) ∧
    (after.delivered = pipe.delivered ∧ after.established = pipe.established ∧
      after.socket = pipe.socket) ∧
    after.written ++ after.toLocal = pipe.written ++ pipe.toLocal ∧
    (after.toLocal = [] ↔ pipe.toLocal.length ≤ accepted answers) := by
  induction answers generalizing pipe with
  | nil => exact ⟨fun _ => rfl, ⟨rfl, rfl, rfl⟩, rfl, by simp [Pipe.writeLoop, accepted]⟩
  | cons answer answers ih =>
      unfold Pipe.writeLoop
      by_cases empty : pipe.toLocal = []
      · simp [empty]
      · simp only [if_neg empty]
        have positive := List.length_pos_of_ne_nil empty
        cases answer with
        | failed =>
            refine ⟨fun unfailed => absurd List.mem_cons_self unfailed, ⟨rfl, rfl, rfl⟩, rfl, ?_⟩
            simp [accepted, empty]
        | timedOut => exact ⟨fun _ => rfl, ⟨rfl, rfl, rfl⟩, rfl, by simp [accepted, empty]⟩
        | accepted size =>
            cases size with
            | zero => exact ⟨fun _ => rfl, ⟨rfl, rfl, rfl⟩, rfl, by simp [accepted, empty]⟩
            | succ size =>
                obtain ⟨whole, ⟨delivered, established, socket⟩, queue, drained⟩ :=
                  ih { pipe with
                    written := pipe.written ++ pipe.toLocal.take (size + 1)
                    toLocal := pipe.toLocal.drop (size + 1) }
                refine ⟨fun unfailed => whole fun member =>
                  unfailed (List.mem_cons_of_mem _ member),
                  ⟨delivered, established, socket⟩, ?_, ?_⟩
                · rw [queue, List.append_assoc, List.take_append_drop]
                · rw [drained, List.length_drop, accepted]
                  omega

/-! ### A whole pass -/

/-- What is unread fits into the local queue chunk by chunk, and the local
socket takes that and what was waiting. -/
structure Takes (unread toLocal : Bytes) (writes : List LocalWrite) : Prop where
  room : unread = [] ∨
    toLocal.length + bufSize * ((unread.length - 1) / bufSize) < toLocalLimit
  writes : toLocal.length + unread.length ≤ accepted writes

/-- Where a byte of the relay's stream is. -/
def Accounts (stack : TcpStack Socket) (pipe : Pipe Socket) : Prop :=
  pipe.delivered = pipe.written ++ pipe.toLocal ++ stack.unread pipe.socket

theorem Keeps.accounts {before after : Pipe Socket} (keeps : Keeps stack before after)
    (accounts : Accounts stack before) : Accounts stack after := by
  unfold Accounts at *
  rw [keeps.delivered, keeps.written, keeps.toLocal, keeps.unread, accounts]

theorem accounts_polled (correct : stack.Correct) {pipe : Pipe Socket}
    (accounts : Accounts stack pipe) (isOpen : (stack.state pipe.socket).isOpen = true)
    (now : Nat) : Accounts stack (pipe.polled stack now) := by
  unfold Accounts at *
  simp only [Pipe.polled, accounts, correct.unread_poll _ _ _ isOpen, List.append_assoc]

/-- The transfers move bytes along, and leave none exactly when the local
socket takes them all. -/
theorem transfer_spec (correct : stack.Correct) {pipe : Pipe Socket} (fronts : List Nat)
    (writes : List LocalWrite) (accounts : Accounts stack pipe) :
    let after := (pipe.transfer stack fronts writes).1
    (.failed ∉ writes → (pipe.transfer stack fronts writes).2 = false) ∧ Accounts stack after ∧
    after.established = pipe.established ∧
    (stack.fin after.socket = stack.fin pipe.socket ∧
      stack.reset after.socket = stack.reset pipe.socket) ∧
    (pipe.localClosed = false → stack.state after.socket = stack.state pipe.socket) ∧
    (after.toLocal = [] ∧ stack.unread after.socket = [] ↔
      Takes (stack.unread pipe.socket) pipe.toLocal writes) := by
  intro after
  obtain ⟨sent, sentState, sentClosed⟩ := keeps_sendLoop correct pipe.toMesh.length fronts pipe
  obtain ⟨offered, offer⟩ : ∃ offered, offered =
      if (pipe.sendLoop stack pipe.toMesh.length fronts).localClosed ∧
          (pipe.sendLoop stack pipe.toMesh.length fronts).toMesh = [] ∧
          (pipe.sendLoop stack pipe.toMesh.length fronts).closeSent = false then
        (pipe.sendLoop stack pipe.toMesh.length fronts).closeOnce stack
      else pipe.sendLoop stack pipe.toMesh.length fronts := ⟨_, rfl⟩
  have offering := keeps_offer correct (pipe.sendLoop stack pipe.toMesh.length fronts)
  rw [← offer] at offering
  have closed : Keeps stack pipe offered := sent.trans offering.1
  have closedState : pipe.localClosed = false →
      stack.state offered.socket = stack.state pipe.socket := by
    intro unclosed
    rw [offering.2 (sentClosed.trans unclosed), sentState]
  obtain ⟨received, receive⟩ : ∃ received,
      received = offered.recvLoop stack (stack.unread offered.socket).length := ⟨_, rfl⟩
  have receiving := recvLoop_spec correct _ offered (Nat.le_refl _)
  rw [← receive] at receiving
  obtain ⟨⟨delivered, written, established⟩, queue, ⟨state, fin, reset⟩, read⟩ := receiving
  obtain ⟨whole, ⟨delivered', established', socket⟩, queue', drained⟩ :=
    writeLoop_spec writes received
  have same : pipe.transfer stack fronts writes = received.writeLoop writes := by
    rw [receive, offer]
    rfl
  have final : after = (received.writeLoop writes).1 := congrArg Prod.fst same
  rw [same]
  refine ⟨whole, ?_, ?_, ⟨?_, ?_⟩, ?_, ?_⟩
  · have accounts := closed.accounts accounts
    unfold Accounts at accounts ⊢
    rw [final, queue', delivered', delivered, accounts, socket, written, List.append_assoc,
      List.append_assoc, queue]
  · rw [final, established', established, closed.established]
  · rw [final, socket, fin, closed.fin]
  · rw [final, socket, reset, closed.reset]
  · intro unclosed
    rw [final, socket, state, closedState unclosed]
  · rw [final, socket, drained]
    rw [closed.unread, closed.toLocal] at read
    have lengths := congrArg List.length queue
    rw [List.length_append, List.length_append, closed.unread, closed.toLocal] at lengths
    constructor
    · rintro ⟨took, empty⟩
      refine ⟨read.mp empty, ?_⟩
      rw [empty] at lengths
      simp only [List.length_nil] at lengths
      omega
    · rintro ⟨room, took⟩
      have empty := read.mpr room
      rw [empty] at lengths
      simp only [List.length_nil] at lengths
      exact ⟨by omega, empty⟩

/-- Between passes: the accounts hold, the connection is open, and as long as
it is not established its opening is under way. -/
structure Invariant (stack : TcpStack Socket) (pipe : Pipe Socket) : Prop where
  accounts : Accounts stack pipe
  isOpen : (stack.state pipe.socket).isOpen = true
  opening : pipe.established = false →
    stack.state pipe.socket = .synSent ∧ stack.fin pipe.socket = false

theorem Invariant.initial {socket : Socket} (opening : stack.state socket = .synSent)
    (unread : stack.unread socket = []) (endless : stack.fin socket = false) (first : Bytes) :
    Invariant stack (Pipe.initial socket first) where
  accounts := by simp [Accounts, Pipe.initial, unread]
  isOpen := by
    rw [Pipe.initial, opening]
    decide
  opening _ := ⟨opening, endless⟩

theorem keeps_handleEvent (pipe : Pipe Socket) (event : Event) :
    Keeps stack pipe (pipe.handleEvent event) ∧
      (pipe.handleEvent event).socket = pipe.socket := by
  cases event with
  | mesh packet =>
      by_cases unreachable : isIcmpUnreachable packet = true
      · rw [show pipe.handleEvent (.mesh packet) =
          { pipe with unreachable := pipe.unreachable + 1 } from if_pos unreachable]
        exact ⟨⟨rfl, rfl, rfl, rfl, rfl, rfl, rfl⟩, rfl⟩
      · rw [show pipe.handleEvent (.mesh packet) = { pipe with rx := pipe.rx ++ [packet] } from
          if_neg unreachable]
        exact ⟨⟨rfl, rfl, rfl, rfl, rfl, rfl, rfl⟩, rfl⟩
  | «local» bytes => exact ⟨⟨rfl, rfl, rfl, rfl, rfl, rfl, rfl⟩, rfl⟩
  | localClosed => exact ⟨⟨rfl, rfl, rfl, rfl, rfl, rfl, rfl⟩, rfl⟩

theorem foldl_handleEvent (events : List Event) (pipe : Pipe Socket) :
    Keeps stack pipe (events.foldl Pipe.handleEvent pipe) ∧
      (events.foldl Pipe.handleEvent pipe).socket = pipe.socket := by
  induction events generalizing pipe with
  | nil => exact ⟨.refl pipe, rfl⟩
  | cons event events ih =>
      obtain ⟨keeps, socket⟩ := ih (pipe.handleEvent event)
      obtain ⟨handled, handledSocket⟩ : Keeps stack pipe _ ∧ _ := keeps_handleEvent pipe event
      exact ⟨handled.trans keeps, socket.trans handledSocket⟩

theorem afterEvents_fst (where_ : String) (pipe : Pipe Socket) :
    (pipe.afterEvents where_).1 = pipe := by
  unfold Pipe.afterEvents
  split <;> rfl

/-- The wait changes nothing about bytes or connection. -/
theorem await_spec (where_ : String) (pipe : Pipe Socket) (wait : Wait) :
    Keeps stack pipe (pipe.await where_ wait).1 ∧
      (pipe.await where_ wait).1.socket = pipe.socket := by
  cases wait with
  | disconnected => exact ⟨.refl pipe, rfl⟩
  | timeout =>
      rw [Pipe.await, afterEvents_fst]
      exact ⟨.refl pipe, rfl⟩
  | events first more =>
      rw [Pipe.await, afterEvents_fst]
      exact foldl_handleEvent (first :: more) pipe

variable (stack) in
theorem settle_spec (where_ : String) (pipe : Pipe Socket) (input : Pass) :
    Keeps stack pipe (pipe.settle stack where_ input).1 ∧
      (pipe.settle stack where_ input).1.socket = pipe.socket := by
  unfold Pipe.settle
  split
  · exact ⟨.refl pipe, rfl⟩
  · split
    · exact ⟨.refl pipe, rfl⟩
    · exact await_spec where_ pipe input.wait

theorem settle_open {where_ : String} {pipe after : Pipe Socket} {input : Pass}
    (settled : pipe.settle stack where_ input = (after, .goesOn)) :
    (stack.state pipe.socket).isOpen = true := by
  unfold Pipe.settle at settled
  split at settled
  · cases settled
  next isOpen => simpa using isOpen

/-- An end of stream in order establishes the connection, if nothing did before. -/
theorem established_of_fin (correct : stack.Correct) {pipe : Pipe Socket}
    (invariant : Invariant stack pipe) (now : Nat)
    (ended : stack.fin (pipe.polled stack now).socket = true)
    (unreset : stack.reset (pipe.polled stack now).socket = false) :
    (pipe.polled stack now).established = true := by
  by_contra unanswered
  rw [Bool.not_eq_true] at unanswered
  simp only [Pipe.polled, Bool.or_eq_false_iff] at unanswered ended unreset
  obtain ⟨opening, endless⟩ := invariant.opening unanswered.1
  have waits := correct.fin_waits _ _ _ opening endless ended unreset
  have quiet := unanswered.2
  rw [waits] at quiet
  exact absurd quiet (by decide)

/-- A connection that is not established after a poll was refused, or still
waits for its first answer. -/
theorem opening_polled (correct : stack.Correct) {pipe : Pipe Socket}
    (invariant : Invariant stack pipe) (now : Nat)
    (unanswered : (pipe.polled stack now).established = false)
    (isOpen : (stack.state (pipe.polled stack now).socket).isOpen = true) :
    stack.state (pipe.polled stack now).socket = .synSent ∧
      stack.fin (pipe.polled stack now).socket = false := by
  have waits : stack.state (pipe.polled stack now).socket = .synSent := by
    have quiet := unanswered
    simp only [Pipe.polled, Bool.or_eq_false_iff] at quiet isOpen ⊢
    have quiet := quiet.2
    revert quiet isOpen
    cases stack.state (stack.poll pipe.socket pipe.rx now) <;> decide
  refine ⟨waits, ?_⟩
  by_contra ended
  rw [Bool.not_eq_false] at ended
  cases reset : stack.reset (pipe.polled stack now).socket with
  | true =>
      have closed := correct.reset_closes _ _ _ reset
      exact absurd (waits.symm.trans closed) (by decide)
  | false =>
      have established := established_of_fin correct invariant now ended reset
      exact absurd (unanswered.symm.trans established) (by decide)

theorem shutLocal_of_opening {pipe : Pipe Socket} (opening : pipe.established = false) :
    pipe.shutLocal stack = pipe := by
  unfold Pipe.shutLocal
  rw [if_neg (by simp [opening])]

/-- The transfers and the shutdown of a pass after a poll. -/
theorem moved_spec (correct : stack.Correct) {pipe : Pipe Socket}
    (invariant : Invariant stack pipe) (input : Pass) :
    let polled := pipe.polled stack input.now
    let moved := (polled.transfer stack input.fronts input.writes).1.shutLocal stack
    Accounts stack moved ∧ moved.established = polled.established ∧
    (stack.fin moved.socket = stack.fin polled.socket ∧
      stack.reset moved.socket = stack.reset polled.socket) ∧
    (polled.localClosed = false → polled.established = false →
      stack.state moved.socket = stack.state polled.socket) ∧
    (moved.toLocal = [] ∧ stack.unread moved.socket = [] ↔
      Takes (stack.unread polled.socket) polled.toLocal input.writes) := by
  intro polled moved
  have accounts : Accounts stack polled :=
    accounts_polled correct invariant.accounts invariant.isOpen input.now
  obtain ⟨-, kept, established, ⟨fin, reset⟩, state, drained⟩ :=
    transfer_spec correct input.fronts input.writes accounts
  have shut : Keeps stack _ moved :=
    keeps_shutLocal correct (polled.transfer stack input.fronts input.writes).1
  refine ⟨shut.accounts kept, shut.established.trans established,
    ⟨shut.fin.trans fin, shut.reset.trans reset⟩, ?_, ?_⟩
  · intro unclosed opening
    have same : moved = (polled.transfer stack input.fronts input.writes).1 :=
      shutLocal_of_opening (established.trans opening)
    rw [same, state unclosed]
  · rw [shut.toLocal, shut.unread, drained]

variable (stack) in
/-- The branches of a pass. -/
theorem pass_cases (where_ : String) (pipe : Pipe Socket) (input : Pass) :
    let polled := pipe.polled stack input.now
    let transferred := polled.transfer stack input.fronts input.writes
    ((input.alive = false ∨ input.stop = true) ∧
      ∃ result, pipe.pass stack where_ input = (pipe.aborted stack, .returns result)) ∨
    (∃ error, pipe.pass stack where_ input = (polled, .returns (.error error))) ∨
    (polled.localClosed = true ∧ polled.established = false ∧
      pipe.pass stack where_ input = (polled.aborted stack, .returns (.ok ()))) ∨
    (transferred.2 = true ∧
      pipe.pass stack where_ input = (transferred.1.aborted stack, .returns (.ok ()))) ∨
    ((polled.established = false → polled.localClosed = false) ∧
      pipe.pass stack where_ input =
        (transferred.1.shutLocal stack).settle stack where_ input) := by
  intro polled transferred
  unfold Pipe.pass
  by_cases stopped : input.alive = false ∨ input.stop = true
  · rw [if_pos stopped]
    exact .inl ⟨stopped, _, rfl⟩
  rw [if_neg stopped]
  right
  simp only
  cases input.failed with
  | some error => exact .inl ⟨error, rfl⟩
  | none =>
      right
      by_cases gaveUp : polled.localClosed ∧ polled.established = false
      · rw [if_pos gaveUp]
        exact .inl ⟨gaveUp.1, gaveUp.2, rfl⟩
      · rw [if_neg gaveUp]
        right
        rcases moved : polled.transfer stack input.fronts input.writes with ⟨after, failed⟩
        have parts : transferred = (after, failed) := moved
        rw [parts]
        cases failed with
        | true => exact .inl ⟨rfl, rfl⟩
        | false =>
            refine .inr ⟨fun opening => ?_, rfl⟩
            by_contra closed
            exact gaveUp ⟨by simpa using closed, opening⟩

theorem pass_of_step {where_ : String} {pipe next : Pipe Socket} {input : Pass}
    (stepTo : step stack where_ pipe input = some next) :
    pipe.pass stack where_ input = (next, .goesOn) := by
  unfold step at stepTo
  split at stepTo
  next after passed =>
    rw [passed, Option.some.inj stepTo]
  next => cases stepTo

/-- A pass after which the loop goes on takes all its steps. -/
theorem settle_of_step {where_ : String} {pipe next : Pipe Socket} {input : Pass}
    (stepTo : step stack where_ pipe input = some next) :
    let polled := pipe.polled stack input.now
    (polled.established = false → polled.localClosed = false) ∧
      ((polled.transfer stack input.fronts input.writes).1.shutLocal stack).settle stack where_
        input = (next, .goesOn) := by
  have goesOn := pass_of_step stepTo
  rcases pass_cases stack where_ pipe input with
    ⟨-, result, passed⟩ | ⟨error, passed⟩ | ⟨-, -, passed⟩ | ⟨-, passed⟩ | ⟨unclosed, passed⟩
  · cases passed.symm.trans goesOn
  · cases passed.symm.trans goesOn
  · cases passed.symm.trans goesOn
  · cases passed.symm.trans goesOn
  · exact ⟨unclosed, passed.symm.trans goesOn⟩

/-- A pass after which the loop goes on keeps the invariant. -/
theorem Invariant.step (correct : stack.Correct) {where_ : String} {pipe next : Pipe Socket}
    {input : Pass} (invariant : Invariant stack pipe)
    (stepTo : step stack where_ pipe input = some next) : Invariant stack next := by
  obtain ⟨accounts, established, ⟨fin, -⟩, state, -⟩ := moved_spec correct invariant input
  obtain ⟨unclosed, goesOn⟩ := settle_of_step stepTo
  have settled := settle_spec stack where_
    (((pipe.polled stack input.now).transfer stack input.fronts input.writes).1.shutLocal stack)
    input
  rw [goesOn] at settled
  have isOpen := settle_open goesOn
  refine ⟨settled.1.accounts accounts, settled.2.symm ▸ isOpen, ?_⟩
  intro opening
  have opening := (settled.1.established.trans established).symm.trans opening
  have kept := state (unclosed opening) opening
  rw [kept] at isOpen
  rw [settled.2, kept, fin]
  exact opening_polled correct invariant input.now opening isOpen

theorem Invariant.run (correct : stack.Correct) {where_ : String} {start pipe : Pipe Socket}
    {passes : List Pass} (initial : Invariant stack start)
    (run : Run (MeshTcp.step stack where_) anyStep start passes pipe) : Invariant stack pipe :=
  run.invariant initial fun _ _ _ invariant _ stepTo => invariant.step correct stepTo

/-- A pass that makes `run` return well, the relay's stream having ended in
order and nobody having stopped it or failed a write, has written all of the
stream exactly when it took all that was left. -/
theorem written_iff_takes (correct : stack.Correct) {where_ : String} {pipe final : Pipe Socket}
    {input : Pass} (invariant : Invariant stack pipe)
    (returned : pipe.pass stack where_ input = (final, .returns (.ok ())))
    (ended : stack.fin final.socket = true) (unreset : stack.reset final.socket = false)
    (unstopped : input.stop = false) (alive : input.alive = true)
    (unfailed : .failed ∉ input.writes) :
    final.written = final.delivered ↔
      Takes (stack.unread (pipe.polled stack input.now).socket) pipe.toLocal input.writes := by
  obtain ⟨accounts, established, ⟨fin, reset⟩, state, drained⟩ := moved_spec correct invariant input
  rcases pass_cases stack where_ pipe input with
    ⟨stopped, -⟩ | ⟨error, passed⟩ | ⟨-, opening, passed⟩ | ⟨failed, -⟩ | ⟨unclosed, passed⟩
  · simp [alive, unstopped] at stopped
  · simp [passed] at returned
  · rw [passed] at returned
    have same : (pipe.polled stack input.now).aborted stack = final := congrArg Prod.fst returned
    obtain ⟨abortFin, abortReset⟩ := correct.abort_fin (pipe.polled stack input.now).socket
    rw [← same] at ended unreset
    have established := established_of_fin correct invariant input.now
      (abortFin.symm.trans ended) (abortReset.symm.trans unreset)
    exact absurd (opening.symm.trans established) (by decide)
  · have accounts : Accounts stack (pipe.polled stack input.now) :=
      accounts_polled correct invariant.accounts invariant.isOpen input.now
    have whole := (transfer_spec correct input.fronts input.writes accounts).1 unfailed
    exact absurd (failed.symm.trans whole) (by decide)
  · rw [passed] at returned
    have settled := (settle_spec stack where_
      (((pipe.polled stack input.now).transfer stack input.fronts input.writes).1.shutLocal stack)
      input).1
    rw [returned] at settled
    have accounts := settled.accounts accounts
    rw [← show (pipe.polled stack input.now).toLocal = pipe.toLocal from rfl, ← drained,
      ← settled.toLocal, ← settled.unread]
    unfold Accounts at accounts
    rw [accounts, List.append_assoc]
    constructor
    · intro whole
      have rest := List.self_eq_append_right.mp whole
      exact List.append_eq_nil_iff.mp rest
    · rintro ⟨queue, unread⟩
      rw [queue, unread, List.append_nil, List.append_nil]

/-! ### A stack -/

/-- A connection that takes every segment as the next one in order, and an
acknowledgment of a closed connection as one of its end of stream. -/
structure Connection where
  phase : TcpState
  unread : Bytes
  fin : Bool
  reset : Bool

namespace Connection

def state (connection : Connection) : TcpState :=
  if connection.reset then .closed else connection.phase

/-- An acknowledgment of our end of stream. -/
def acknowledged : TcpState → TcpState
  | .finWait1 => .finWait2
  | .closing => .timeWait
  | .lastAck => .closed
  | state => state

/-- The relay's end of stream. -/
def finished : TcpState → TcpState
  | .established => .closeWait
  | .finWait1 => .closing
  | .finWait2 => .timeWait
  | state => state

def segment (connection : Connection) (p : Bytes) : Connection :=
  let flags : UInt8 := p[53]?.getD 0
  let payload := p.drop (40 + ((p[52]?.getD (0 : UInt8)).toNat / 16) * 4)
  if p.length < 60 ∨ p[6]? ≠ some 6 ∨ connection.state.isOpen = false then connection
  else if flags &&& 4 ≠ 0 then { connection with reset := true }
  else if connection.phase = .synSent then
    if flags &&& 18 = 18 then { connection with phase := .established } else connection
  else
    let phase := if flags &&& 16 ≠ 0 then acknowledged connection.phase else connection.phase
    if phase.receives then
      { connection with
        phase := if flags &&& 1 ≠ 0 then finished phase else phase
        unread := connection.unread ++ payload
        fin := connection.fin || flags &&& 1 ≠ 0 }
    else { connection with phase }

def poll (connection : Connection) (packets : List Bytes) (_now : Nat) : Connection :=
  packets.foldl segment connection

def close (connection : Connection) : Connection :=
  { connection with
    phase := match connection.phase with
      | .established => .finWait1
      | .closeWait => .lastAck
      | .synSent => .closed
      | phase => phase }

def canSend (connection : Connection) : Bool :=
  connection.state = .established ∨ connection.state = .closeWait

def tcp : TcpStack Connection where
  state := state
  unread := Connection.unread
  fin := Connection.fin
  reset := Connection.reset
  poll := poll
  received connection packets now :=
    (connection.poll packets now).unread.drop connection.unread.length
  canSend := canSend
  sendSlice connection bytes := (bytes.length, connection)
  recvSlice connection size :=
    (connection.unread.take size, { connection with unread := connection.unread.drop size })
  close := close
  abort connection := { connection with phase := .closed }

theorem unread_segment (connection : Connection) (p : Bytes) :
    connection.unread <+: (connection.segment p).unread := by
  unfold segment
  simp only
  split_ifs <;> first | exact List.prefix_rfl | exact List.prefix_append _ _

theorem unread_poll (connection : Connection) (packets : List Bytes) :
    connection.unread <+: (packets.foldl segment connection).unread := by
  induction packets generalizing connection with
  | nil => exact List.prefix_rfl
  | cons p packets ih => exact (connection.unread_segment p).trans (ih _)

/-- A connection that was opened from this side and is not closed from it. -/
def Unclosed (connection : Connection) : Prop :=
  connection.reset = true ∨
    (connection.fin = false ∧
      (connection.phase = .synSent ∨ connection.phase = .established)) ∨
    (connection.fin = true ∧ connection.phase = .closeWait)

theorem Unclosed.segment {connection : Connection} (unclosed : connection.Unclosed) (p : Bytes) :
    (connection.segment p).Unclosed := by
  unfold Connection.segment
  simp only
  rcases unclosed with reset | ⟨endless, phase | phase⟩ | ⟨ended, phase⟩
  · rw [if_pos (by simp [state, reset, TcpState.isOpen])]
    exact .inl reset
  all_goals
    split_ifs <;> simp_all [Unclosed, acknowledged, finished, TcpState.receives]

theorem Unclosed.poll {connection : Connection} (unclosed : connection.Unclosed)
    (packets : List Bytes) : (packets.foldl Connection.segment connection).Unclosed := by
  induction packets generalizing connection with
  | nil => exact unclosed
  | cons p packets ih => exact ih (unclosed.segment p)

theorem correct : tcp.Correct where
  unread_poll connection packets _ _ :=
    (List.prefix_iff_eq_append.mp (connection.unread_poll packets)).symm
  recvSlice_spec _ _ := ⟨rfl, rfl, rfl, rfl, rfl⟩
  sendSlice_spec _ _ := ⟨rfl, rfl, rfl, rfl⟩
  close_spec _ := ⟨rfl, rfl, rfl⟩
  abort_fin _ := ⟨rfl, rfl⟩
  reset_closes connection packets now reset := if_pos reset
  fin_waits connection packets now opening endless ended unreset := by
    have unclosed : connection.Unclosed := by
      by_cases reset : connection.reset = true
      · exact .inl reset
      · refine .inr (.inl ⟨endless, .inl ?_⟩)
        exact (if_neg reset).symm.trans opening
    have after : (connection.poll packets now).Unclosed := unclosed.poll packets
    have alive : (connection.poll packets now).reset = false := unreset
    rcases after with reset | ⟨endless, -⟩ | ⟨-, waits⟩
    · exact absurd (reset.symm.trans alive) (by decide)
    · exact absurd (endless.symm.trans ended) (by decide)
    · refine Eq.trans ?_ waits
      exact if_neg fun reset => absurd (reset.symm.trans alive) (by decide)

end Connection

/-- `run` returns well after a run of passes, the relay having ended its stream
in order, without a failed local write, a reset, a stop or an engine restart. -/
structure Completes (stack : TcpStack Socket) (where_ : String) (socket : Socket) (first : Bytes)
    (passes : List Pass) (last : Pass) (pipe final : Pipe Socket) : Prop where
  opening : stack.state socket = .synSent ∧ stack.unread socket = [] ∧
    stack.fin socket = false ∧ stack.reset socket = false
  run : Run (step stack where_) anyStep (Pipe.initial socket first) passes pipe
  returned : pipe.pass stack where_ last = (final, .returns (.ok ()))
  ended : stack.fin final.socket = true
  unreset : stack.reset final.socket = false
  unstopped : last.stop = false
  alive : last.alive = true
  unfailed : .failed ∉ last.writes

/-- A run that completes has written all of the relay's stream exactly when
the local socket took, in the last pass, all that was left. -/
theorem delivers_iff_last_pass_takes (correct : stack.Correct) {where_ : String} {socket : Socket}
    {first : Bytes} {passes : List Pass} {last : Pass} {pipe final : Pipe Socket}
    (completes : Completes stack where_ socket first passes last pipe final) :
    final.written = final.delivered ↔
      Takes (stack.unread pipe.socket ++ stack.received pipe.socket pipe.rx last.now)
        pipe.toLocal last.writes := by
  obtain ⟨opening, unread, endless, -⟩ := completes.opening
  have initial : Invariant stack (Pipe.initial socket first) :=
    .initial opening unread endless first
  have invariant := initial.run correct completes.run
  rw [← correct.unread_poll pipe.socket pipe.rx last.now invariant.isOpen]
  exact written_iff_takes correct invariant completes.returned completes.ended completes.unreset
    completes.unstopped completes.alive completes.unfailed

/-! ### A relay that ends its stream with its last data -/

def opened : Connection := ⟨.synSent, [], false, false⟩

/-- A segment of the relay. -/
def relayed (flags : UInt8) (payload : Bytes) : Bytes :=
  [0x60, 0, 0, 0, 0, UInt8.ofNat (20 + payload.length), 6, 64] ++
    List.replicate 16 0xfd ++ List.replicate 16 0xfc ++ Bytes.toBe16 7777 ++ Bytes.toBe16 61234 ++
    List.replicate 8 0 ++ [0x50, flags, 0x20, 0, 0, 0, 0, 0] ++ payload

def waiting (wait : Wait) : Pass := ⟨true, false, 0, none, [], [], false, wait⟩

/-- The local client shuts its writing side, and the relay acknowledges that
before it sends its last bytes together with its end of stream. -/
private def halfClosed : List Pass :=
  [waiting (.events (.mesh (relayed 18 [])) []), waiting (.events .localClosed []),
    waiting .timeout, waiting (.events (.mesh (relayed 16 [])) []),
    waiting (.events (.mesh (relayed 17 [104, 105])) [])]

private def lastPass (writes : List LocalWrite) : Pass :=
  ⟨true, false, 0, none, [], writes, false, .timeout⟩

private def Ending.isOk : Ending → Bool
  | .returns (.ok ()) => true
  | _ => false

private theorem completes_halfClosed (writes : List LocalWrite)
    (holds : Pipe Connection → Pipe Connection → Prop) (unfailed : .failed ∉ writes)
    [∀ pipe final, Decidable (holds pipe final)]
    (passed : (execute (step Connection.tcp "relay") anyStep (Pipe.initial opened [])
      halfClosed).any (fun pipe => decide
        ((pipe.pass Connection.tcp "relay" (lastPass writes)).2.isOk = true ∧
          (pipe.pass Connection.tcp "relay" (lastPass writes)).1.socket.fin = true ∧
          (pipe.pass Connection.tcp "relay" (lastPass writes)).1.socket.reset = false ∧
          holds pipe (pipe.pass Connection.tcp "relay" (lastPass writes)).1)) = true) :
    ∃ pipe final, Completes Connection.tcp "relay" opened [] halfClosed (lastPass writes)
      pipe final ∧ holds pipe final := by
  obtain ⟨pipe, run, isOk, ended, unreset, kept⟩ := exists_run_of_execute _ passed
  have returned : (pipe.pass Connection.tcp "relay" (lastPass writes)).2 = .returns (.ok ()) := by
    revert isOk
    generalize (pipe.pass Connection.tcp "relay" (lastPass writes)).2 = ending
    intro isOk
    match ending with
    | .returns (.ok ()) => rfl
  exact ⟨pipe, _, ⟨⟨rfl, rfl, rfl, rfl⟩, run, Prod.ext rfl returned, ended, unreset, rfl, rfl,
    unfailed⟩, kept⟩

theorem fast_reader_gets_all : ∃ pipe final,
    Completes Connection.tcp "relay" opened [] halfClosed (lastPass [.accepted 2]) pipe final ∧
      final.written = final.delivered ∧ final.delivered = [104, 105] := by
  obtain ⟨pipe, final, completes, queue, arrived, delivered⟩ :=
    completes_halfClosed [.accepted 2]
      (fun pipe final => pipe.toLocal = [] ∧
        Connection.tcp.unread pipe.socket ++ Connection.tcp.received pipe.socket pipe.rx 0 =
          [104, 105] ∧ final.delivered = [104, 105])
      (by decide) (by decide +kernel)
  refine ⟨pipe, final, completes, ?_, delivered⟩
  refine (delivers_iff_last_pass_takes Connection.correct completes).mpr ?_
  rw [queue, show (lastPass [.accepted 2]).now = 0 from rfl, arrived]
  exact ⟨.inr (by decide), by decide⟩

/-- The last bytes arrive with the end of stream while a local write times out:
`run` returns well, and they are lost. -/
theorem timedOut_reader_loses_bytes : ∃ pipe final,
    Completes Connection.tcp "relay" opened [] halfClosed (lastPass [.timedOut]) pipe final ∧
      final.written = [] ∧ final.toLocal = [104, 105] ∧ final.delivered = [104, 105] :=
  completes_halfClosed [.timedOut] (fun _ final => final.written = [] ∧
    final.toLocal = [104, 105] ∧ final.delivered = [104, 105]) (by decide) (by decide +kernel)

end Fips2Go.MeshTcp
