import Fips2Go.MeshTcpDelivery

/-!
# What the pipe hands to the mesh

The bytes of the local client go from its reader's thread through the event
channel into the pipe's queue, and from there slice by slice to the mesh
socket.  What was handed over, the queue, and what waits in the channel are at
all times the request head and the client's bytes, in this order.
-/

namespace Fips2Go.MeshTcp

open GuardedRuns

variable {Socket : Type} {stack : TcpStack Socket}

/-- The bytes of the local client among events. -/
def localBytes (events : List Event) : Bytes :=
  events.flatMap fun event =>
    match event with
    | .«local» bytes => bytes
    | .mesh _ | .localClosed => []

/-- The events that a wait yields. -/
def Wait.received : Wait → List Event
  | .timeout | .disconnected => []
  | .events first more => first :: more

@[simp]
theorem localBytes_append (first second : List Event) :
    localBytes (first ++ second) = localBytes first ++ localBytes second :=
  List.flatMap_append

/-! ### The side of the mesh in the parts of a pass -/

/-- The queue for the mesh and what is known of both ends stay. -/
structure KeepsQueue (before after : Pipe Socket) : Prop where
  toMesh : after.toMesh = before.toMesh
  handed : after.handed = before.handed
  read : after.read = before.read
  localClosed : after.localClosed = before.localClosed
  closeSent : after.closeSent = before.closeSent
  localShut : after.localShut = before.localShut

namespace KeepsQueue

variable {first second third : Pipe Socket}

theorem refl (pipe : Pipe Socket) : KeepsQueue pipe pipe := ⟨rfl, rfl, rfl, rfl, rfl, rfl⟩

theorem trans (earlier : KeepsQueue first second) (later : KeepsQueue second third) :
    KeepsQueue first third where
  toMesh := later.toMesh.trans earlier.toMesh
  handed := later.handed.trans earlier.handed
  read := later.read.trans earlier.read
  localClosed := later.localClosed.trans earlier.localClosed
  closeSent := later.closeSent.trans earlier.closeSent
  localShut := later.localShut.trans earlier.localShut

end KeepsQueue

theorem keepsQueue_recvLoop (fuel : Nat) (pipe : Pipe Socket) :
    KeepsQueue pipe (pipe.recvLoop stack fuel) := by
  induction fuel generalizing pipe with
  | zero => exact .refl pipe
  | succ fuel ih =>
      unfold Pipe.recvLoop
      split
      · simp only
        split
        · exact ⟨rfl, rfl, rfl, rfl, rfl, rfl⟩
        · refine KeepsQueue.trans ?_ (ih _)
          exact ⟨rfl, rfl, rfl, rfl, rfl, rfl⟩
      · exact .refl pipe

theorem keepsQueue_writeLoop (answers : List LocalWrite) (pipe : Pipe Socket) :
    KeepsQueue pipe (pipe.writeLoop answers).1 := by
  induction answers generalizing pipe with
  | nil => exact .refl pipe
  | cons answer answers ih =>
      unfold Pipe.writeLoop
      split
      · exact .refl pipe
      · cases answer with
        | timedOut => exact .refl pipe
        | failed => exact .refl pipe
        | accepted size =>
            cases size with
            | zero => exact .refl pipe
            | succ size =>
                refine KeepsQueue.trans ?_ (ih _)
                exact ⟨rfl, rfl, rfl, rfl, rfl, rfl⟩

/-- `send_slice` takes no more than it is given. -/
def TcpStack.TakesAtMost (stack : TcpStack Socket) : Prop :=
  ∀ socket bytes, (stack.sendSlice socket bytes).1 ≤ bytes.length

theorem frontSlice_isFront (deque : Bytes) (fronts : List Nat) :
    frontSlice deque fronts <+: deque := by
  cases fronts with
  | nil => exact List.prefix_rfl
  | cons more fronts => exact List.take_prefix _ _

/-- What a part of the first slice takes is a part of the queue. -/
theorem take_frontSlice {deque : Bytes} {fronts : List Nat} {sent : Nat}
    (within : sent ≤ (frontSlice deque fronts).length) :
    (frontSlice deque fronts).take sent ++ deque.drop sent = deque := by
  obtain ⟨rest, parts⟩ := frontSlice_isFront deque fronts
  have same : (frontSlice deque fronts).take sent = deque.take sent := by
    rw [← parts, List.take_append_of_le_length within, parts]
  rw [same, List.take_append_drop]

variable (stack) in
/-- The send loop moves bytes from the queue to the socket, and nothing else. -/
theorem sendLoop_queue (fuel : Nat) (fronts : List Nat) (pipe : Pipe Socket) :
    let after := pipe.sendLoop stack fuel fronts
    (stack.TakesAtMost →
      after.handed ++ after.toMesh = pipe.handed ++ pipe.toMesh) ∧
    after.read = pipe.read ∧ after.localClosed = pipe.localClosed ∧
    after.closeSent = pipe.closeSent ∧ after.localShut = pipe.localShut := by
  induction fuel generalizing fronts pipe with
  | zero => exact ⟨fun _ => rfl, rfl, rfl, rfl, rfl⟩
  | succ fuel ih =>
      unfold Pipe.sendLoop
      split
      · exact ⟨fun _ => rfl, rfl, rfl, rfl, rfl⟩
      · simp only
        split
        · exact ⟨fun _ => rfl, rfl, rfl, rfl, rfl⟩
        · obtain ⟨queue, kept⟩ := ih fronts.tail _
          refine ⟨fun bounded => (queue bounded).trans ?_, kept⟩
          have within := bounded pipe.socket (frontSlice pipe.toMesh fronts)
          rw [List.append_assoc, take_frontSlice within]

variable (stack) in
/-- The transfers of a pass, seen from the queue: our side is closed where the
client has closed its own and the queue is empty. -/
theorem transfer_queue (fronts : List Nat) (writes : List LocalWrite) (pipe : Pipe Socket) :
    let sent := pipe.sendLoop stack pipe.toMesh.length fronts
    let after := (pipe.transfer stack fronts writes).1
    after.toMesh = sent.toMesh ∧ after.handed = sent.handed ∧ after.read = pipe.read ∧
      after.localClosed = pipe.localClosed ∧ after.localShut = pipe.localShut ∧
      (after.closeSent = true ↔
        pipe.closeSent = true ∨ (pipe.localClosed = true ∧ sent.toMesh = [])) := by
  intro sent after
  obtain ⟨-, read, localClosed, closeSent, localShut⟩ : _ ∧ sent.read = pipe.read ∧ _ ∧ _ ∧ _ :=
    sendLoop_queue stack pipe.toMesh.length fronts pipe
  obtain ⟨offered, offer⟩ : ∃ offered, offered =
      if sent.localClosed ∧ sent.toMesh = [] ∧ sent.closeSent = false then sent.closeOnce stack
      else sent := ⟨_, rfl⟩
  have later : KeepsQueue offered after := by
    have moved : after = ((offered.recvLoop stack
        (stack.unread offered.socket).length).writeLoop writes).1 := by
      rw [offer]
      rfl
    rw [moved]
    exact (keepsQueue_recvLoop _ offered).trans (keepsQueue_writeLoop writes _)
  rw [later.toMesh, later.handed, later.read, later.localClosed, later.localShut,
    later.closeSent, offer]
  split
  next finished =>
    exact ⟨rfl, rfl, read, localClosed, localShut, fun _ => .inr ⟨localClosed ▸ finished.1,
      finished.2.1⟩, fun _ => rfl⟩
  next unfinished =>
    refine ⟨rfl, rfl, read, localClosed, localShut, fun closed => .inl (closeSent ▸ closed), ?_⟩
    rintro (closed | ⟨finished, empty⟩)
    · exact closeSent.trans closed
    · by_contra unclosed
      exact unfinished ⟨localClosed.trans finished, empty, by simpa using unclosed⟩

/-- The relay finished sending, and the local socket has all that it sent. -/
structure RelayFinished (stack : TcpStack Socket) (pipe : Pipe Socket) : Prop where
  established : pipe.established = true
  endless : mayRecv stack pipe.socket = false
  unread : stack.unread pipe.socket = []
  toLocal : pipe.toLocal = []

variable (stack) in
theorem shutLocal_queue (pipe : Pipe Socket) :
    let after := pipe.shutLocal stack
    after.toMesh = pipe.toMesh ∧ after.handed = pipe.handed ∧ after.read = pipe.read ∧
      after.localClosed = pipe.localClosed ∧
      (after.localShut = true ↔ pipe.localShut = true ∨ RelayFinished stack pipe) ∧
      (after.closeSent = true ↔ pipe.closeSent = true ∨
        (RelayFinished stack pipe ∧ pipe.localShut = false ∧ pipe.toMesh = [])) := by
  intro after
  by_cases finished : RelayFinished stack pipe ∧ pipe.localShut = false
  · obtain ⟨⟨established, endless, unread, toLocal⟩, unshut⟩ := finished
    have shut : after = if pipe.closeSent = false ∧ pipe.toMesh = [] then
        ({ pipe with localShut := true }).closeOnce stack else { pipe with localShut := true } :=
      if_pos ⟨established, endless, unread, toLocal, unshut⟩
    rw [shut]
    split
    next closes =>
      exact ⟨rfl, rfl, rfl, rfl, ⟨fun _ => .inr ⟨established, endless, unread, toLocal⟩,
        fun _ => rfl⟩, fun _ => .inr ⟨⟨established, endless, unread, toLocal⟩, unshut, closes.2⟩,
        fun _ => rfl⟩
    next leaves =>
      refine ⟨rfl, rfl, rfl, rfl, ⟨fun _ => .inr ⟨established, endless, unread, toLocal⟩,
        fun _ => rfl⟩, .inl, ?_⟩
      rintro (closed | ⟨-, -, empty⟩)
      · exact closed
      · by_contra unclosed
        exact leaves ⟨by simpa using unclosed, empty⟩
  · have same : after = pipe := by
      refine if_neg fun conditions => finished ?_
      obtain ⟨established, endless, unread, toLocal, unshut⟩ := conditions
      exact ⟨⟨established, endless, unread, toLocal⟩, unshut⟩
    rw [same]
    refine ⟨rfl, rfl, rfl, rfl, ⟨.inl, ?_⟩, .inl, ?_⟩
    · rintro (shut | ended)
      · exact shut
      · by_contra unshut
        exact finished ⟨ended, by simpa using unshut⟩
    · rintro (closed | ⟨ended, unshut, -⟩)
      · exact closed
      · exact absurd ⟨ended, unshut⟩ finished

theorem foldl_queue (events : List Event) (pipe : Pipe Socket) :
    let after := events.foldl Pipe.handleEvent pipe
    after.toMesh = pipe.toMesh ++ localBytes events ∧ after.handed = pipe.handed ∧
      after.read = pipe.read ++ localBytes events ∧
      (after.localClosed = true ↔ pipe.localClosed = true ∨ .localClosed ∈ events) ∧
      after.closeSent = pipe.closeSent ∧ after.localShut = pipe.localShut := by
  induction events generalizing pipe with
  | nil => simp [localBytes]
  | cons event events ih =>
      obtain ⟨toMesh, handed, read, localClosed, closeSent, localShut⟩ :=
        ih (pipe.handleEvent event)
      simp only [List.foldl_cons]
      rw [toMesh, handed, read, localClosed, closeSent, localShut]
      cases event with
      | mesh packet =>
          have kept : KeepsQueue pipe (pipe.handleEvent (.mesh packet)) := by
            simp only [Pipe.handleEvent]
            split <;> exact ⟨rfl, rfl, rfl, rfl, rfl, rfl⟩
          simp [kept.toMesh, kept.handed, kept.read, kept.localClosed, kept.closeSent,
            kept.localShut, localBytes]
      | «local» bytes => simp [Pipe.handleEvent, localBytes]
      | localClosed => simp [Pipe.handleEvent, localBytes]

variable (stack) in
theorem settle_kept (where_ : String) (pipe : Pipe Socket) (input : Pass) :
    (pipe.settle stack where_ input).1.handed = pipe.handed ∧
      (pipe.settle stack where_ input).1.closeSent = pipe.closeSent := by
  unfold Pipe.settle
  split
  · exact ⟨rfl, rfl⟩
  · split
    · exact ⟨rfl, rfl⟩
    · cases wait : input.wait with
      | disconnected => exact ⟨rfl, rfl⟩
      | timeout =>
          rw [Pipe.await, afterEvents_fst]
          exact ⟨rfl, rfl⟩
      | events first more =>
          rw [Pipe.await, afterEvents_fst]
          obtain ⟨-, handed, -, -, closeSent, -⟩ := foldl_queue (first :: more) pipe
          exact ⟨handed, closeSent⟩

/-- Where the loop goes on, the events of the wait have been taken in. -/
theorem settle_received {where_ : String} {pipe next : Pipe Socket} {input : Pass}
    (settled : pipe.settle stack where_ input = (next, .goesOn)) :
    next = input.wait.received.foldl Pipe.handleEvent pipe := by
  have after : (pipe.settle stack where_ input).1 = next := congrArg Prod.fst settled
  unfold Pipe.settle at settled after
  split at settled
  · cases settled
  · split at settled
    · cases settled
    next unsettled late =>
      rw [if_neg unsettled, if_neg late] at after
      cases wait : input.wait with
      | disconnected =>
          rw [wait] at settled
          cases settled
      | timeout =>
          rw [wait, Pipe.await, afterEvents_fst] at after
          exact after.symm
      | events first more =>
          rw [wait, Pipe.await, afterEvents_fst] at after
          exact after.symm

/-- Our side is closed only when the queue is empty. -/
theorem empty_of_close (where_ : String) {pipe : Pipe Socket} {input : Pass}
    (unclosed : pipe.closeSent = false)
    (closed : (pipe.pass stack where_ input).1.closeSent = true) :
    let polled := pipe.polled stack input.now
    let sent := polled.sendLoop stack polled.toMesh.length input.fronts
    sent.toMesh = [] ∧ (pipe.pass stack where_ input).1.handed = sent.handed := by
  intro polled sent
  have open_ : polled.closeSent = false := unclosed
  obtain ⟨toMesh, handed, -, -, -, closes⟩ := transfer_queue stack input.fronts input.writes polled
  rw [open_] at closes
  rcases pass_cases stack where_ pipe input with
    ⟨-, result, passed⟩ | ⟨error, passed⟩ | ⟨-, -, passed⟩ | ⟨-, passed⟩ | ⟨-, passed⟩
  · rw [passed] at closed
    cases unclosed.symm.trans closed
  · rw [passed] at closed
    cases open_.symm.trans closed
  · rw [passed] at closed
    cases open_.symm.trans closed
  · rw [passed] at closed ⊢
    rcases closes.mp closed with closed | ⟨-, empty⟩
    · cases closed
    · exact ⟨empty, handed⟩
  · obtain ⟨toMesh', handed', -, -, -, closes'⟩ :=
      shutLocal_queue stack (polled.transfer stack input.fronts input.writes).1
    obtain ⟨kept, kept'⟩ := settle_kept stack where_
      ((polled.transfer stack input.fronts input.writes).1.shutLocal stack) input
    rw [passed] at closed ⊢
    refine ⟨?_, (kept.trans handed').trans handed⟩
    rcases closes'.mp (kept'.symm.trans closed) with closed | ⟨-, -, empty⟩
    · rcases closes.mp closed with closed | ⟨-, empty⟩
      · cases closed
      · exact empty
    · exact toMesh.symm.trans empty

/-! ### The reader's thread and the channel -/

/-- What one `read` of the local socket answers. -/
inductive LocalRead where
  | bytes (chunk : Bytes)
  | ended
  | retried
  | failed

/-- What `pipe` starts: the loop of `run`, the event channel, and the reader's
thread, with the chunks that it has read. -/
structure Carrier (Socket : Type) where
  pipe : Pipe Socket
  events : List Event
  reading : Bool
  chunks : List Bytes

inductive Turn where
  | reader (answer : LocalRead)
  | mesh (packet : Bytes)
  | pass (input : Pass)

def Carrier.initial (socket : Socket) (first : Bytes) : Carrier Socket where
  pipe := .initial socket first
  events := []
  reading := true
  chunks := []

/-- One round of the reader's loop. -/
def Carrier.readOnce (carrier : Carrier Socket) : LocalRead → Carrier Socket
  | .bytes chunk =>
      { carrier with
        events := carrier.events ++ [.«local» chunk]
        chunks := carrier.chunks ++ [chunk] }
  | .retried => carrier
  | .ended | .failed =>
      { carrier with events := carrier.events ++ [.localClosed], reading := false }

variable (stack) in
/-- A turn of one thread; the wait of a pass takes all that is in the channel. -/
def Carrier.step (where_ : String) (carrier : Carrier Socket) : Turn → Option (Carrier Socket)
  | .reader answer => if carrier.reading then some (carrier.readOnce answer) else none
  | .mesh packet => some { carrier with events := carrier.events ++ [.mesh packet] }
  | .pass input =>
      if input.wait.received = carrier.events then
        (MeshTcp.step stack where_ carrier.pipe input).map fun pipe =>
          { carrier with pipe, events := [] }
      else none

/-- Where the bytes for the mesh are. -/
structure Carrier.Exact (first : Bytes) (carrier : Carrier Socket) : Prop where
  queue : carrier.pipe.handed ++ carrier.pipe.toMesh = first ++ carrier.pipe.read
  channel : carrier.pipe.read ++ localBytes carrier.events = carrier.chunks.flatten
  ended : carrier.pipe.localClosed = true ∨ .localClosed ∈ carrier.events →
    carrier.reading = false
  drained : carrier.pipe.localClosed = true → localBytes carrier.events = []

namespace Carrier.Exact

variable {first : Bytes} {carrier next : Carrier Socket}

theorem initial (socket : Socket) (first : Bytes) :
    Carrier.Exact first (Carrier.initial socket first) where
  queue := by simp [Carrier.initial, Pipe.initial]
  channel := rfl
  ended := by simp [Carrier.initial, Pipe.initial]
  drained _ := rfl

theorem readOnce (exact : carrier.Exact first) (reading : carrier.reading = true)
    (answer : LocalRead) : (carrier.readOnce answer).Exact first := by
  have unclosed : carrier.pipe.localClosed = false := by
    by_contra closed
    have ended := exact.ended (.inl (by simpa using closed))
    exact absurd (reading.symm.trans ended) (by decide)
  have pending : .localClosed ∉ carrier.events := fun member =>
    absurd (reading.symm.trans (exact.ended (.inr member))) (by decide)
  cases answer with
  | retried => exact exact
  | bytes chunk =>
      refine ⟨exact.queue, ?_, ?_, ?_⟩
      · simp [Carrier.readOnce, localBytes, ← exact.channel]
      · simp [Carrier.readOnce, unclosed, pending]
      · simp [Carrier.readOnce, unclosed]
  | ended =>
      refine ⟨exact.queue, ?_, fun _ => rfl, ?_⟩
      · simp [Carrier.readOnce, localBytes, ← exact.channel]
      · simp [Carrier.readOnce, unclosed]
  | failed =>
      refine ⟨exact.queue, ?_, fun _ => rfl, ?_⟩
      · simp [Carrier.readOnce, localBytes, ← exact.channel]
      · simp [Carrier.readOnce, unclosed]

theorem mesh (exact : carrier.Exact first) (packet : Bytes) :
    Carrier.Exact first { carrier with events := carrier.events ++ [.mesh packet] } := by
  have none : localBytes [.mesh packet] = [] := rfl
  refine ⟨exact.queue, ?_, ?_, ?_⟩
  · rw [localBytes_append, none, List.append_nil]
    exact exact.channel
  · simpa using exact.ended
  · rw [localBytes_append, none, List.append_nil]
    exact exact.drained

/-- A pass moves bytes from the channel to the queue, and from there to the
socket. -/
theorem pass (bounded : stack.TakesAtMost) (exact : carrier.Exact first) {where_ : String}
    {input : Pass} {pipe : Pipe Socket} (received : input.wait.received = carrier.events)
    (stepTo : MeshTcp.step stack where_ carrier.pipe input = some pipe) :
    Carrier.Exact first { carrier with pipe, events := [] } := by
  obtain ⟨-, settled⟩ := settle_of_step stepTo
  have after := settle_received settled
  rw [received] at after
  obtain ⟨queue, read, -⟩ := sendLoop_queue stack
    (carrier.pipe.polled stack input.now).toMesh.length input.fronts
    (carrier.pipe.polled stack input.now)
  obtain ⟨toMesh, handed, read', localClosed, -⟩ := transfer_queue stack
    input.fronts input.writes (carrier.pipe.polled stack input.now)
  obtain ⟨toMesh', handed', read'', localClosed', -⟩ := shutLocal_queue stack
    ((carrier.pipe.polled stack input.now).transfer stack input.fronts input.writes).1
  obtain ⟨toMesh'', handed'', read''', localClosed'', -⟩ := foldl_queue carrier.events
    (((carrier.pipe.polled stack input.now).transfer stack input.fronts
      input.writes).1.shutLocal stack)
  have total : pipe.read = carrier.pipe.read ++ localBytes carrier.events := by
    rw [after, read''', read'', read']
    rfl
  constructor
  · rw [total, after, toMesh'', handed'', toMesh', handed', toMesh, handed, ← List.append_assoc,
      queue bounded, ← List.append_assoc, ← exact.queue]
    rfl
  · rw [total, exact.channel]
    exact List.append_nil _
  · rintro (closed | pending)
    · rw [after, localClosed'', localClosed', localClosed] at closed
      exact exact.ended closed
    · cases pending
  · exact fun _ => rfl

theorem step (bounded : stack.TakesAtMost) {where_ : String} {turn : Turn}
    (exact : carrier.Exact first) (stepTo : carrier.step stack where_ turn = some next) :
    next.Exact first := by
  cases turn with
  | reader answer =>
      simp only [Carrier.step] at stepTo
      split at stepTo
      next reading =>
        rw [← Option.some.inj stepTo]
        exact exact.readOnce reading answer
      next => cases stepTo
  | mesh packet =>
      rw [← Option.some.inj stepTo]
      exact exact.mesh packet
  | pass input =>
      simp only [Carrier.step] at stepTo
      split at stepTo
      next received =>
        obtain ⟨pipe, stepped, rfl⟩ := Option.map_eq_some_iff.mp stepTo
        exact exact.pass bounded received stepped
      next => cases stepTo

end Carrier.Exact

variable (stack) in
/-- The local client's stream is handed over exactly: at every moment of every
pass the mesh socket has a prefix of the request head and the client's chunks,
what is missing waits in order, and a close after the client's end of stream
comes when nothing is missing. -/
theorem local_stream_is_exact (bounded : stack.TakesAtMost) {where_ : String} {socket : Socket}
    {first : Bytes} {turns : List Turn} {carrier : Carrier Socket}
    (run : Run (Carrier.step stack where_) anyStep (.initial socket first) turns carrier) :
    carrier.pipe.handed ++ carrier.pipe.toMesh ++ localBytes carrier.events =
        first ++ carrier.chunks.flatten ∧
      ∀ input : Pass,
        (∀ rounds, ((carrier.pipe.polled stack input.now).sendLoop stack rounds
          input.fronts).handed <+: first ++ carrier.chunks.flatten) ∧
        (carrier.pipe.localClosed = true → carrier.pipe.closeSent = false →
          (carrier.pipe.pass stack where_ input).1.closeSent = true →
          carrier.reading = false ∧
            (carrier.pipe.pass stack where_ input).1.handed =
              first ++ carrier.chunks.flatten) := by
  have exact : carrier.Exact first :=
    run.invariant (.initial socket first) fun _ _ _ exact _ stepTo => exact.step bounded stepTo
  have whole : carrier.pipe.handed ++ carrier.pipe.toMesh ++ localBytes carrier.events =
      first ++ carrier.chunks.flatten := by
    rw [exact.queue, List.append_assoc, exact.channel]
  refine ⟨whole, fun input => ⟨fun rounds => ?_, fun ended unclosed closed => ?_⟩⟩
  · obtain ⟨queue, -⟩ := sendLoop_queue stack rounds input.fronts
      (carrier.pipe.polled stack input.now)
    have moved : _ ++ _ = carrier.pipe.handed ++ carrier.pipe.toMesh := queue bounded
    rw [← whole, ← moved, List.append_assoc]
    exact List.prefix_append _ _
  · obtain ⟨empty, handed⟩ := empty_of_close where_ unclosed closed
    obtain ⟨queue, -⟩ := sendLoop_queue stack
      (carrier.pipe.polled stack input.now).toMesh.length input.fronts
      (carrier.pipe.polled stack input.now)
    have moved : _ ++ _ = carrier.pipe.handed ++ carrier.pipe.toMesh := queue bounded
    rw [empty, List.append_nil] at moved
    refine ⟨exact.ended (.inl ended), ?_⟩
    rw [handed, moved, ← whole, exact.drained ended, List.append_nil]

/-- The client's two chunks are read while the connection opens, and leave in
slices of one, two and two bytes after the request head's. -/
private def clientTurns : List Turn :=
  [.reader (.bytes [1, 2, 3]), .mesh (relayed 18 []),
    .pass (waiting (.events (.«local» [1, 2, 3]) [.mesh (relayed 18 [])])),
    .reader (.bytes [4]), .reader .ended,
    .pass { waiting (.events (.«local» [4]) [.localClosed]) with fronts := [0, 1] }]

theorem chunks_leave_in_order : ∃ carrier,
    Run (Carrier.step Connection.tcp "relay") anyStep (.initial opened [71]) clientTurns carrier ∧
      carrier.pipe.handed = [71, 1, 2, 3] ∧
      (carrier.pipe.pass Connection.tcp "relay" (waiting .timeout)).1.handed =
        [71, 1, 2, 3, 4] := by
  obtain ⟨carrier, run, handed, ended, unclosed, closed, chunks⟩ :=
    exists_run_of_execute
      (fun carrier : Carrier Connection => carrier.pipe.handed = [71, 1, 2, 3] ∧
        carrier.pipe.localClosed = true ∧ carrier.pipe.closeSent = false ∧
        (carrier.pipe.pass Connection.tcp "relay" (waiting .timeout)).1.closeSent = true ∧
        carrier.chunks = [[1, 2, 3], [4]])
      (show (execute (Carrier.step Connection.tcp "relay") anyStep (.initial opened [71])
        clientTurns).any _ = true by decide +kernel)
  obtain ⟨-, exact⟩ :=
    local_stream_is_exact Connection.tcp (fun _ _ => Nat.le_refl _) run
  refine ⟨carrier, run, handed, ?_⟩
  rw [((exact (waiting .timeout)).2 ended unclosed closed).2, chunks]
  rfl

end Fips2Go.MeshTcp
