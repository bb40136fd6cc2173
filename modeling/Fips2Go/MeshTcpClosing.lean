import Fips2Go.MeshTcpSending

/-!
# When the pipe closes its mesh side

Once the relay has finished and its bytes are delivered, the mesh side is to be
closed as soon as the queue for it is empty.  The pipe closes it in the pass
that finds the relay finished, and else only after the local client has closed
its own side.  A queue that is still there in that pass, and drains later while
the client stays, leaves the mesh side open.
-/

namespace Fips2Go.MeshTcp

open GuardedRuns

variable {Socket : Type} {stack : TcpStack Socket}

variable (stack) in
/-- `TakesAll fronts socket queued`: the socket, offered the queue slice by slice,
takes all of it. -/
inductive TakesAll : List Nat → Socket → Bytes → Prop
  | done {fronts : List Nat} {socket : Socket} : TakesAll fronts socket []
  | slice {fronts : List Nat} {socket : Socket} {queued : Bytes} (nonempty : queued ≠ [])
      (able : stack.canSend socket = true)
      (some : (stack.sendSlice socket (frontSlice queued fronts)).1 ≠ 0)
      (rest : TakesAll fronts.tail (stack.sendSlice socket (frontSlice queued fronts)).2
        (queued.drop (stack.sendSlice socket (frontSlice queued fronts)).1)) :
      TakesAll fronts socket queued

theorem takesAll_of_ne_nil {fronts : List Nat} {socket : Socket} {queued : Bytes}
    (nonempty : queued ≠ []) :
    TakesAll stack fronts socket queued ↔ stack.canSend socket = true ∧
      (stack.sendSlice socket (frontSlice queued fronts)).1 ≠ 0 ∧
      TakesAll stack fronts.tail (stack.sendSlice socket (frontSlice queued fronts)).2
        (queued.drop (stack.sendSlice socket (frontSlice queued fronts)).1) := by
  constructor
  · intro takes
    cases takes with
    | done => contradiction
    | slice _ able some rest => exact ⟨able, some, rest⟩
  · rintro ⟨able, some, rest⟩
    exact .slice nonempty able some rest

/-- The send loop empties the queue exactly where the socket takes it. -/
theorem sendLoop_empties_iff (fuel : Nat) (fronts : List Nat) (pipe : Pipe Socket)
    (enough : pipe.toMesh.length ≤ fuel) :
    (pipe.sendLoop stack fuel fronts).toMesh = [] ↔
      TakesAll stack fronts pipe.socket pipe.toMesh := by
  induction fuel generalizing fronts pipe with
  | zero =>
      have empty := List.eq_nil_of_length_eq_zero (Nat.le_zero.mp enough)
      exact ⟨fun _ => empty ▸ .done, fun _ => empty⟩
  | succ fuel ih =>
      unfold Pipe.sendLoop
      by_cases empty : pipe.toMesh = []
      · rw [if_pos (.inl empty)]
        exact ⟨fun _ => empty ▸ .done, fun _ => empty⟩
      · rw [takesAll_of_ne_nil empty]
        have positive := List.length_pos_of_ne_nil empty
        by_cases able : stack.canSend pipe.socket = true
        · rw [if_neg (by simp [empty, able])]
          simp only
          split
          next none =>
            have none : (stack.sendSlice pipe.socket (frontSlice pipe.toMesh fronts)).1 = 0 := none
            exact ⟨fun drained => absurd drained empty, fun takes => absurd none takes.2.1⟩
          next some =>
            have some : (stack.sendSlice pipe.socket (frontSlice pipe.toMesh fronts)).1 ≠ 0 := some
            have shorter : (pipe.toMesh.drop (stack.sendSlice pipe.socket
                (frontSlice pipe.toMesh fronts)).1).length ≤ fuel := by
              rw [List.length_drop]
              omega
            exact (ih fronts.tail _ shorter).trans
              ⟨fun rest => ⟨able, some, rest⟩, fun takes => takes.2.2⟩
        · rw [if_pos (.inr (by simpa using able))]
          simp [empty, able]

/-- Once the relay has finished and the local socket's write half is shut, an
empty queue means that our side is closed. -/
def Closes (pipe : Pipe Socket) : Prop :=
  pipe.localShut = true → pipe.toMesh = [] → pipe.closeSent = true

variable (stack) in
/-- The queue drains in a pass after the one that found the relay finished, while
the local client has its side open. -/
structure DrainsLate (pipe : Pipe Socket) (input : Pass) : Prop where
  shut : pipe.localShut = true
  queued : pipe.toMesh ≠ []
  clientOpen : pipe.localClosed = false
  unclosed : pipe.closeSent = false
  drains : TakesAll stack input.fronts (pipe.polled stack input.now).socket pipe.toMesh
  nothingNew : localBytes input.wait.received = []

variable (stack) in
/-- The guard that keeps the queue from draining late. -/
def drainsInTime (pipe : Pipe Socket) (input : Pass) : Prop := ¬ DrainsLate stack pipe input

/-- What a pass that goes on does to the latches and the queue. -/
theorem step_latches {where_ : String} {pipe next : Pipe Socket} {input : Pass}
    (stepTo : step stack where_ pipe input = some next) :
    let moved := ((pipe.polled stack input.now).transfer stack input.fronts input.writes).1
    (next.toMesh = [] ↔
      TakesAll stack input.fronts (pipe.polled stack input.now).socket pipe.toMesh ∧
        localBytes input.wait.received = []) ∧
    (moved.toMesh = [] ↔
      TakesAll stack input.fronts (pipe.polled stack input.now).socket pipe.toMesh) ∧
    (next.localShut = true ↔ pipe.localShut = true ∨ RelayFinished stack moved) ∧
    (next.closeSent = true ↔ pipe.closeSent = true ∨
      (pipe.localClosed = true ∧ moved.toMesh = []) ∨
      (RelayFinished stack moved ∧ pipe.localShut = false ∧ moved.toMesh = [])) := by
  intro moved
  obtain ⟨-, settled⟩ := settle_of_step stepTo
  obtain ⟨toMesh, -, -, -, localShut, closeSent⟩ :=
    transfer_queue stack input.fronts input.writes (pipe.polled stack input.now)
  obtain ⟨toMesh', -, -, -, localShut', closeSent'⟩ := shutLocal_queue stack moved
  obtain ⟨toMesh'', -, -, -, closeSent'', localShut''⟩ :=
    foldl_queue input.wait.received (moved.shutLocal stack)
  have drains : moved.toMesh = [] ↔
      TakesAll stack input.fronts (pipe.polled stack input.now).socket pipe.toMesh := by
    rw [toMesh]
    exact sendLoop_empties_iff _ _ _ (Nat.le_refl _)
  have shut : moved.localShut = pipe.localShut := localShut
  rw [← toMesh] at closeSent
  rw [settle_received settled]
  refine ⟨?_, drains, ?_, ?_⟩
  · rw [toMesh'', toMesh', List.append_eq_nil_iff, drains]
  · rw [localShut'', localShut', shut]
  · rw [closeSent'', closeSent', closeSent, shut, or_assoc]
    rfl

theorem step_closes {where_ : String} {pipe next : Pipe Socket} {input : Pass}
    (closes : Closes pipe) (stepTo : step stack where_ pipe input = some next) :
    Closes next ↔ drainsInTime stack pipe input := by
  obtain ⟨empty, drains, shut, closed⟩ := step_latches stepTo
  constructor
  · rintro kept ⟨late, queued, clientOpen, unclosed, takes, nothingNew⟩
    have closed := closed.mp (kept (shut.mpr (.inl late)) (empty.mpr ⟨takes, nothingNew⟩))
    simp [unclosed, clientOpen, late] at closed
  · intro inTime finished none
    obtain ⟨takes, nothingNew⟩ := empty.mp none
    have movedEmpty := drains.mpr takes
    refine closed.mpr ?_
    by_contra unclosed
    simp only [not_or, not_and, movedEmpty, not_true_eq_false, imp_false, Bool.not_eq_true]
      at unclosed
    obtain ⟨unclosed, clientOpen, unfinished⟩ := unclosed
    have late : pipe.localShut = true := by
      rcases shut.mp finished with late | relay
      · exact late
      · simpa using unfinished relay
    refine inTime ⟨late, fun queued => ?_, clientOpen, unclosed, takes, nothingNew⟩
    exact absurd ((closes late queued).symm.trans unclosed) (by decide)

variable (stack) in
/-- In every run in which the queue never drains late, the mesh side is closed
once the relay has finished and the queue is empty; and a pass that drains it
late ends with the mesh side open. -/
theorem closes_iff_drains_in_time {where_ : String} {socket : Socket} {first : Bytes}
    {passes : List Pass} {pipe : Pipe Socket}
    (run : Run (step stack where_) (drainsInTime stack) (.initial socket first) passes pipe) :
    Closes pipe ∧ ∀ input next, step stack where_ pipe input = some next →
      (next.localShut = true ↔ pipe.localShut = true ∨ RelayFinished stack
        ((pipe.polled stack input.now).transfer stack input.fronts input.writes).1) ∧
      (Closes next ↔ drainsInTime stack pipe input) := by
  have closes : Closes pipe := by
    refine run.invariant (fun shut => ?_) fun _ _ _ closes inTime stepTo =>
      (step_closes closes stepTo).mpr inTime
    cases shut
  exact ⟨closes, fun input next stepTo =>
    ⟨(step_latches stepTo).2.2.1, step_closes closes stepTo⟩⟩

private def relayAnswers : List Pass :=
  [waiting (.events (.mesh (relayed 18 [])) []),
    waiting (.events (.mesh (relayed 17 [104])) []),
    { waiting .timeout with writes := [.accepted 1] }]

/-- The relay ends its stream with nothing queued for it. -/
theorem idle_client_is_closed :
    ∃ pipe, Run (step Connection.tcp "relay") (drainsInTime Connection.tcp)
        (.initial opened [71]) relayAnswers pipe ∧
      pipe.written = [104] ∧ pipe.localClosed = false ∧ pipe.closeSent = true := by
  have unshut : ∀ (pipe : Pipe Connection) (input : Pass), pipe.localShut = false →
      drainsInTime Connection.tcp pipe input := by
    intro pipe input unshut late
    exact absurd late.shut (by simp [unshut])
  have passed : (execute (step Connection.tcp "relay") (fun pipe _ => pipe.localShut = false)
      (.initial opened [71]) relayAnswers).any (fun pipe => decide (pipe.localShut = true ∧
        pipe.toMesh = [] ∧ pipe.written = [104] ∧ pipe.localClosed = false)) = true := by
    decide +kernel
  obtain ⟨pipe, run, shut, empty, written, clientOpen⟩ := exists_run_of_execute _ passed
  have inTime := run.weaken unshut
  exact ⟨pipe, inTime, written, clientOpen,
    (closes_iff_drains_in_time Connection.tcp inTime).1 shut empty⟩

/-! ### A relay that stops reading -/

theorem step_of_moves {where_ : String} {pipe moved next : Pipe Socket} {input : Pass}
    (alive : input.alive = true) (unstopped : input.stop = false) (unfailed : input.failed = none)
    (stays : (pipe.polled stack input.now).localClosed = false)
    (moves : (pipe.polled stack input.now).transfer stack input.fronts input.writes =
      (moved, false))
    (settles : (moved.shutLocal stack).settle stack where_ input = (next, .goesOn)) :
    step stack where_ pipe input = some next := by
  unfold step Pipe.pass
  rw [if_neg (by simp [alive, unstopped])]
  simp only [unfailed, stays, moves, settles, Bool.false_eq_true, false_and, if_false]

/-- The first slice of the queue leaves. -/
def Pipe.sendFront (stack : TcpStack Socket) (fronts : List Nat) (pipe : Pipe Socket) :
    Pipe Socket :=
  let a := frontSlice pipe.toMesh fronts
  let sent := (stack.sendSlice pipe.socket a).1
  { pipe with
    socket := (stack.sendSlice pipe.socket a).2
    toMesh := pipe.toMesh.drop sent
    handed := pipe.handed ++ a.take sent
    firstLeft := pipe.firstLeft - min sent pipe.firstLeft
    released := pipe.released + (sent - min sent pipe.firstLeft) }

theorem sendLoop_succ {fronts : List Nat} {pipe : Pipe Socket} (nonempty : pipe.toMesh ≠ [])
    (able : stack.canSend pipe.socket = true)
    (some : (stack.sendSlice pipe.socket (frontSlice pipe.toMesh fronts)).1 ≠ 0) (fuel : Nat) :
    pipe.sendLoop stack (fuel + 1) fronts =
      (pipe.sendFront stack fronts).sendLoop stack fuel fronts.tail := by
  rw [Pipe.sendLoop, if_neg (by simp [nonempty, able])]
  exact if_neg some

theorem sendLoop_of_unable {pipe : Pipe Socket} (unable : stack.canSend pipe.socket = false)
    (fuel : Nat) (fronts : List Nat) : pipe.sendLoop stack fuel fronts = pipe := by
  cases fuel with
  | zero => rfl
  | succ fuel => exact if_pos (.inr unable)

def txCapacity : Nat := 64 * 1024

/-- A connection with a transmit buffer.  A plain acknowledgment is one of all
that is in it. -/
structure Buffered where
  connection : Connection
  buffered : Nat

namespace Buffered

def isAcknowledgment (p : Bytes) : Bool := p[53]? = some 16

def tcp : TcpStack Buffered where
  state socket := socket.connection.state
  unread socket := socket.connection.unread
  fin socket := socket.connection.fin
  reset socket := socket.connection.reset
  poll socket packets now :=
    ⟨socket.connection.poll packets now,
      if packets.any isAcknowledgment then 0 else socket.buffered⟩
  received socket packets now := Connection.tcp.received socket.connection packets now
  canSend socket := socket.connection.canSend && socket.buffered < txCapacity
  sendSlice socket bytes :=
    let sent := min (txCapacity - socket.buffered) bytes.length
    (sent, { socket with buffered := socket.buffered + sent })
  recvSlice socket size :=
    let (bytes, connection) := Connection.tcp.recvSlice socket.connection size
    (bytes, { socket with connection })
  close socket := { socket with connection := socket.connection.close }
  abort socket := { socket with connection := Connection.tcp.abort socket.connection }

theorem correct : tcp.Correct where
  unread_poll socket := Connection.correct.unread_poll socket.connection
  recvSlice_spec socket := Connection.correct.recvSlice_spec socket.connection
  sendSlice_spec _ _ := ⟨rfl, rfl, rfl, rfl⟩
  close_spec socket := Connection.correct.close_spec socket.connection
  abort_fin socket := Connection.correct.abort_fin socket.connection
  reset_closes socket := Connection.correct.reset_closes socket.connection
  fin_waits socket := Connection.correct.fin_waits socket.connection

theorem takesAtMost : tcp.TakesAtMost := fun _ _ => Nat.min_le_right _ _

/-- Of a queue that is longer than the room in the buffer, the buffer takes as
much as it has room for. -/
theorem sendLoop_fills (pipe : Pipe Buffered) (ready : tcp.canSend pipe.socket = true)
    (more : txCapacity - pipe.socket.buffered < pipe.toMesh.length) :
    pipe.sendLoop tcp pipe.toMesh.length [] = pipe.sendFront tcp [] := by
  obtain ⟨able, room⟩ :
      pipe.socket.connection.canSend = true ∧ pipe.socket.buffered < txCapacity := by
    simpa [tcp] using ready
  have least : min (txCapacity - pipe.socket.buffered) pipe.toMesh.length =
      txCapacity - pipe.socket.buffered := Nat.min_eq_left (Nat.le_of_lt more)
  have some : (tcp.sendSlice pipe.socket (frontSlice pipe.toMesh [])).1 ≠ 0 := by
    simp only [tcp, frontSlice, least]
    omega
  have full : tcp.canSend (pipe.sendFront tcp []).socket = false := by
    simp only [Pipe.sendFront, tcp, frontSlice, least, Bool.and_eq_false_iff,
      decide_eq_false_iff_not]
    omega
  obtain ⟨rest, size⟩ : ∃ rest, pipe.toMesh.length = rest + 1 :=
    ⟨_, (Nat.succ_pred (by omega)).symm⟩
  rw [size, sendLoop_succ (List.ne_nil_of_length_pos (by omega)) ready some,
    sendLoop_of_unable full]

end Buffered

/-- A request that came along when the pipe was opened. -/
private def request : Bytes :=
  [71, 69, 84, 32, 47, 32, 72, 84, 84, 80, 47, 49, 46, 49, 13, 10, 13, 10]

private def chunk : Bytes := List.replicate bufSize 0

private def opens : Pass := waiting (.events (.mesh (relayed 18 [])) [])

private def sends : Pass :=
  waiting (.events (.«local» chunk) [.«local» chunk, .«local» chunk, .«local» chunk])

private def endsEarly : Pass := waiting (.events (.mesh (relayed 17 [])) [])

private def acknowledges : Pass := waiting (.events (.mesh (relayed 16 [])) [])

private def answered : Pipe Buffered :=
  { Pipe.initial ⟨opened, 0⟩ request with rx := [relayed 18 []] }

private def queueing : Pipe Buffered :=
  { answered with
    socket := ⟨{ opened with phase := .established }, 18⟩
    rx := []
    established := true
    firstLeft := 0
    handed := request
    toMesh := chunk ++ chunk ++ chunk ++ chunk
    read := chunk ++ chunk ++ chunk ++ chunk }

private def filled : Pipe Buffered :=
  { queueing with
    socket := ⟨{ opened with phase := .established }, txCapacity⟩
    handed := request ++ (chunk ++ chunk ++ chunk ++ chunk).take (txCapacity - 18)
    toMesh := List.replicate 18 0
    released := txCapacity - 18 }

private def finished : Pipe Buffered :=
  { filled with
    socket := ⟨{ opened with phase := .closeWait, fin := true }, txCapacity⟩
    localShut := true }

private def drained : Pipe Buffered :=
  { finished with
    socket := ⟨{ opened with phase := .closeWait, fin := true }, 18⟩
    handed := filled.handed ++ List.replicate 18 0
    released := txCapacity
    toMesh := [] }

/-- The transmit buffer leaves as many bytes in the queue as the request has. -/
private theorem sendLoop_queueing :
    queueing.sendLoop Buffered.tcp queueing.toMesh.length [] = filled := by
  have queue : queueing.toMesh = List.replicate txCapacity 0 := by
    have sizes : bufSize + bufSize + bufSize + bufSize = txCapacity := rfl
    simp only [queueing, chunk, List.replicate_append_replicate, sizes]
  have more : txCapacity - 18 < queueing.toMesh.length := by
    rw [queue, List.length_replicate]
    decide
  have least : min (txCapacity - 18) queueing.toMesh.length = txCapacity - 18 :=
    Nat.min_eq_left (Nat.le_of_lt more)
  have left : queueing.toMesh.drop (txCapacity - 18) = List.replicate 18 0 := by
    rw [queue, List.drop_replicate]
    rfl
  have offered : Buffered.tcp.sendSlice queueing.socket (frontSlice queueing.toMesh []) =
      (txCapacity - 18, filled.socket) := by
    simp only [Buffered.tcp, frontSlice, show queueing.socket.buffered = 18 from rfl, least]
    rfl
  rw [Buffered.sendLoop_fills queueing (by decide) more]
  simp only [Pipe.sendFront, offered, left]
  rfl

private theorem step_queueing : step Buffered.tcp "relay" queueing endsEarly =
    some { filled with rx := [relayed 17 []] } := by
  have moves : queueing.transfer Buffered.tcp [] [] = (filled, false) := by
    unfold Pipe.transfer
    rw [sendLoop_queueing]
    rfl
  have polled : queueing.polled Buffered.tcp 0 = queueing := by rfl
  rw [← polled] at moves
  have settles : (filled.shutLocal Buffered.tcp).settle Buffered.tcp "relay" endsEarly =
      ({ filled with rx := [relayed 17 []] }, .goesOn) := by rfl
  exact step_of_moves rfl rfl rfl rfl moves settles

private theorem step_answered : step Buffered.tcp "relay" answered sends = some queueing := by
  rfl

private theorem step_filled :
    step Buffered.tcp "relay" { filled with rx := [relayed 17 []] } acknowledges =
      some { finished with rx := [relayed 16 []] } := by
  rfl

private theorem step_finished :
    step Buffered.tcp "relay" { finished with rx := [relayed 16 []] } (waiting .timeout) =
      some drained := by
  rfl

/-- The local client sends as much as a transmit buffer holds, the relay ends its
stream, and the rest of the queue leaves with its next acknowledgment.  The mesh
side stays open. -/
theorem late_queue_stays_open : Buffered.tcp.Correct ∧ Buffered.tcp.TakesAtMost ∧
    ∃ pipe, Run (step Buffered.tcp "relay") anyStep (.initial ⟨opened, 0⟩ request)
        [opens, sends, endsEarly, acknowledges, waiting .timeout] pipe ∧
      pipe.established = true ∧ mayRecv Buffered.tcp pipe.socket = false ∧
      Buffered.tcp.unread pipe.socket = [] ∧ pipe.written = pipe.delivered ∧
      pipe.localShut = true ∧ pipe.toMesh = [] ∧ pipe.closeSent = false := by
  refine ⟨Buffered.correct, Buffered.takesAtMost, drained, ?_, rfl, rfl, rfl, rfl, rfl, rfl, rfl⟩
  have step_opening : step Buffered.tcp "relay" (.initial ⟨opened, 0⟩ request) opens =
      some answered := by rfl
  have start : Run (step Buffered.tcp "relay") anyStep (.initial ⟨opened, 0⟩ request) []
    (.initial ⟨opened, 0⟩ request) := .nil
  have queues := (start.snoc trivial step_opening).snoc trivial step_answered
  have ends := (queues.snoc trivial step_queueing).snoc trivial step_filled
  exact ends.snoc trivial step_finished

end Fips2Go.MeshTcp
