import Fips2Go.MeshTcpSending

/-!
# The backlog of the pipe

Between the reader's thread and the loop of `run` in `shim/src/meshtcp.rs`
stands a counter of the client's bytes on their way to the mesh; the reader
waits while it is above a limit.  The request head takes the same way and is
not counted.  Here the two threads move in small steps: a read, a look at the
counter, a chunk into the channel, a chunk out of it, and a part of the queue
handed to the socket.
-/

namespace Fips2Go.MeshTcp

open GuardedRuns

def toMeshLimit : Nat := 256 * 1024

/-- What one look at the counter in `Backlog::add` comes to. -/
inductive Look where
  | added (bytes : Nat)
  | waits
  | gaveUp

def Backlog.add (bytes n : Nat) (giveUp : Bool) : Look :=
  if bytes > toMeshLimit then
    if giveUp then .gaveUp else .waits
  else .added (bytes + n)

/-- `saturating_sub`. -/
def Backlog.sent (bytes n : Nat) : Nat := bytes - n

/-- Where the reader's thread is: before a read, in `Backlog::add` with what it
has read, before the channel with what it has added, or at its end. -/
inductive ReaderStage where
  | reads
  | adds (chunk : Bytes)
  | sends (chunk : Bytes)
  | stopped
  deriving DecidableEq

/-- The way to the mesh.  `channel` has the chunks of its events, and `done`
tells that `run` has returned. -/
structure Uplink where
  backlog : Nat
  reader : ReaderStage
  channel : List Bytes
  toMesh : Bytes
  firstLeft : Nat
  done : Bool
  deriving DecidableEq

/-- A step of one of the two threads. -/
inductive Move where
  | read (answer : LocalRead)
  | look
  | send
  | receive
  | handOver (size : Nat)
  | finish
  | wake

def Uplink.initial (first : Bytes) : Uplink where
  backlog := 0
  reader := .reads
  channel := []
  toMesh := first
  firstLeft := first.length
  done := false

namespace Uplink

/-- The reader's thread reads. -/
def read (uplink : Uplink) : LocalRead → Option Uplink
  | .bytes chunk =>
      if 0 < chunk.length ∧ chunk.length ≤ bufSize then some { uplink with reader := .adds chunk }
      else none
  | .retried => some uplink
  | .ended | .failed => some { uplink with reader := .stopped }

/-- The reader's thread looks for room in the backlog. -/
def look (uplink : Uplink) (chunk : Bytes) : Uplink :=
  match Backlog.add uplink.backlog chunk.length uplink.done with
  | .added bytes => { uplink with backlog := bytes, reader := .sends chunk }
  | .waits => uplink
  | .gaveUp => { uplink with reader := .stopped }

/-- The socket takes so many octets of the queue. -/
def handOver (uplink : Uplink) (size : Nat) : Uplink :=
  let fromFirst := min size uplink.firstLeft
  { uplink with
    toMesh := uplink.toMesh.drop size
    firstLeft := uplink.firstLeft - fromFirst
    backlog := Backlog.sent uplink.backlog (size - fromFirst) }

def step (uplink : Uplink) : Move → Option Uplink
  | .read answer => if uplink.reader = .reads then uplink.read answer else none
  | .look =>
      match uplink.reader with
      | .adds chunk => some (uplink.look chunk)
      | _ => none
  | .send =>
      match uplink.reader with
      | .sends chunk =>
          some { uplink with channel := uplink.channel ++ [chunk], reader := .reads }
      | _ => none
  | .receive =>
      match uplink.channel with
      | chunk :: channel =>
          if uplink.done then none
          else some { uplink with channel, toMesh := uplink.toMesh ++ chunk }
      | [] => none
  | .handOver size =>
      if uplink.done = false ∧ 0 < size ∧ size ≤ uplink.toMesh.length then
        some (uplink.handOver size)
      else none
  | .finish => some { uplink with done := true }
  | .wake => if uplink.done then some { uplink with backlog := 0 } else none

/-- The bytes that the reader has added and not yet put into the channel. -/
def pending (uplink : Uplink) : Bytes :=
  match uplink.reader with
  | .sends chunk => chunk
  | .reads | .adds _ | .stopped => []

/-- The bytes of the reader that are added and not yet handed to the socket. -/
def counted (uplink : Uplink) : Nat :=
  uplink.pending.length + uplink.channel.flatten.length +
    (uplink.toMesh.length - uplink.firstLeft)

/-- Everything on its way to the socket. -/
def queued (uplink : Uplink) : Nat :=
  uplink.pending.length + uplink.channel.flatten.length + uplink.toMesh.length

/-- The counter against the queue, of which the request head's unsent part is
the front. -/
structure Balanced (first : Bytes) (uplink : Uplink) : Prop where
  counter : uplink.backlog = uplink.counted
  head : uplink.toMesh.take uplink.firstLeft = first.drop (first.length - uplink.firstLeft)
  unsent : uplink.firstLeft ≤ uplink.toMesh.length ∧ uplink.firstLeft ≤ first.length
  limited : uplink.backlog ≤ toMeshLimit + bufSize
  buffered : ∀ chunk, uplink.reader = .adds chunk → chunk.length ≤ bufSize

namespace Balanced

variable {first : Bytes} {uplink next : Uplink}

theorem initial (first : Bytes) : Balanced first (Uplink.initial first) where
  counter := by simp [Uplink.initial, counted, pending]
  head := by simp [Uplink.initial]
  unsent := ⟨Nat.le_refl _, Nat.le_refl _⟩
  limited := Nat.zero_le _
  buffered _ reading := by cases reading

/-- Between additions the reader's thread moves as it likes. -/
theorem moveReader (balanced : Balanced first uplink) (nothing : uplink.pending = [])
    {stage : ReaderStage} (idle : ∀ chunk, stage ≠ .sends chunk)
    (buffered : ∀ chunk, stage = .adds chunk → chunk.length ≤ bufSize) :
    Balanced first { uplink with reader := stage } := by
  refine ⟨?_, balanced.head, balanced.unsent, balanced.limited, buffered⟩
  have counter := balanced.counter
  rw [counted, nothing] at counter
  cases stage with
  | sends chunk => exact absurd rfl (idle chunk)
  | reads => exact counter
  | adds chunk => exact counter
  | stopped => exact counter

theorem read (balanced : Balanced first uplink) (reading : uplink.reader = .reads)
    {answer : LocalRead} (stepTo : uplink.read answer = some next) : Balanced first next := by
  have nothing : uplink.pending = [] := by rw [pending, reading]
  cases answer with
  | bytes chunk =>
      by_cases sized : 0 < chunk.length ∧ chunk.length ≤ bufSize
      · rw [Uplink.read, if_pos sized, Option.some.injEq] at stepTo
        rw [← stepTo]
        refine balanced.moveReader nothing (fun _ sends => by cases sends) ?_
        intro other adds
        rw [← ReaderStage.adds.inj adds]
        exact sized.2
      · rw [Uplink.read, if_neg sized] at stepTo
        cases stepTo
  | retried =>
      rw [Uplink.read, Option.some.injEq] at stepTo
      exact stepTo ▸ balanced
  | ended =>
      rw [Uplink.read, Option.some.injEq] at stepTo
      rw [← stepTo]
      exact balanced.moveReader nothing (fun _ sends => by cases sends) fun _ adds => by cases adds
  | failed =>
      rw [Uplink.read, Option.some.injEq] at stepTo
      rw [← stepTo]
      exact balanced.moveReader nothing (fun _ sends => by cases sends) fun _ adds => by cases adds

/-- What is added is on its way and is counted, and the counter was at most at
its limit. -/
theorem look (balanced : Balanced first uplink) (running : uplink.done = false) {chunk : Bytes}
    (adding : uplink.reader = .adds chunk) : Balanced first (uplink.look chunk) := by
  have sized := balanced.buffered chunk adding
  by_cases full : uplink.backlog > toMeshLimit
  · have waits : uplink.look chunk = uplink := by
      simp [Uplink.look, Backlog.add, full, running]
    rw [waits]
    exact balanced
  · have added : uplink.look chunk =
        { uplink with backlog := uplink.backlog + chunk.length, reader := .sends chunk } := by
      simp [Uplink.look, Backlog.add, full]
    rw [added]
    refine ⟨?_, balanced.head, balanced.unsent, ?_, fun _ adds => by cases adds⟩
    · have counter := balanced.counter
      simp only [counted, pending, adding, List.length_nil] at counter ⊢
      omega
    · exact Nat.add_le_add (Nat.le_of_not_lt full) sized

theorem send (balanced : Balanced first uplink) {chunk : Bytes}
    (sending : uplink.reader = .sends chunk) :
    Balanced first { uplink with channel := uplink.channel ++ [chunk], reader := .reads } := by
  refine ⟨?_, balanced.head, balanced.unsent, balanced.limited, fun _ adds => by cases adds⟩
  have counter := balanced.counter
  simp only [counted, pending, sending, List.length_nil, List.flatten_append,
    List.flatten_cons, List.flatten_nil, List.append_nil, List.length_append] at counter ⊢
  omega

theorem receive (balanced : Balanced first uplink) {chunk : Bytes} {channel : List Bytes}
    (waiting : uplink.channel = chunk :: channel) :
    Balanced first { uplink with channel, toMesh := uplink.toMesh ++ chunk } := by
  obtain ⟨inQueue, inFirst⟩ := balanced.unsent
  refine ⟨?_, ?_, ?_, balanced.limited, balanced.buffered⟩
  · have counter := balanced.counter
    simp only [counted, pending, waiting, List.flatten_cons, List.length_append] at counter ⊢
    omega
  · rw [List.take_append_of_le_length inQueue]
    exact balanced.head
  · rw [List.length_append]
    exact ⟨Nat.le_trans inQueue (Nat.le_add_right _ _), inFirst⟩

/-- What the socket takes beyond the request head is counted. -/
theorem uncounted_le (balanced : Balanced first uplink) {size : Nat}
    (within : size ≤ uplink.toMesh.length) :
    size - min size uplink.firstLeft ≤ uplink.backlog := by
  rw [balanced.counter, counted]
  omega

theorem handOver (balanced : Balanced first uplink) {size : Nat}
    (within : size ≤ uplink.toMesh.length) : Balanced first (uplink.handOver size) := by
  obtain ⟨inQueue, inFirst⟩ := balanced.unsent
  have counter := balanced.counter
  refine ⟨?_, ?_, ?_, ?_, balanced.buffered⟩
  · simp only [counted, pending, Uplink.handOver, Backlog.sent, List.length_drop] at counter ⊢
    omega
  · have head := congrArg (List.drop size) balanced.head
    rw [List.drop_take, List.drop_drop] at head
    simp only [Uplink.handOver]
    rcases Nat.le_total size uplink.firstLeft with inside | beyond
    · have left : first.length - (uplink.firstLeft - size) =
          first.length - uplink.firstLeft + size := by omega
      rw [Nat.min_eq_left inside, left, head]
    · rw [Nat.min_eq_right beyond, Nat.sub_self, List.take_zero, Nat.sub_zero, List.drop_length]
  · simp only [Uplink.handOver, List.length_drop]
    omega
  · exact Nat.le_trans (Nat.sub_le _ _) balanced.limited

theorem step (balanced : Balanced first uplink) (running : uplink.done = false) {move : Move}
    (stepTo : uplink.step move = some next) : next.done = true ∨ Balanced first next := by
  cases move with
  | read answer =>
      simp only [Uplink.step] at stepTo
      split at stepTo
      next reading => exact Or.inr (balanced.read reading stepTo)
      · cases stepTo
  | look =>
      simp only [Uplink.step] at stepTo
      split at stepTo
      next chunk adding => exact Or.inr (Option.some.inj stepTo ▸ balanced.look running adding)
      · cases stepTo
  | send =>
      simp only [Uplink.step] at stepTo
      split at stepTo
      next chunk sending => exact Or.inr (Option.some.inj stepTo ▸ balanced.send sending)
      · cases stepTo
  | receive =>
      simp only [Uplink.step] at stepTo
      split at stepTo
      next chunk channel waiting =>
        rw [if_neg (by simp [running])] at stepTo
        exact Or.inr (Option.some.inj stepTo ▸ balanced.receive waiting)
      · cases stepTo
  | handOver size =>
      simp only [Uplink.step] at stepTo
      split at stepTo
      next part => exact Or.inr (Option.some.inj stepTo ▸ balanced.handOver part.2.2)
      · cases stepTo
  | finish => exact Or.inl (Option.some.inj stepTo ▸ rfl)
  | wake =>
      simp only [Uplink.step, running] at stepTo
      cases stepTo

end Balanced

/-- What has ended stays so. -/
theorem done_of_step {uplink next : Uplink} {move : Move} (ended : uplink.done = true)
    (stepTo : uplink.step move = some next) : next.done = true := by
  cases move with
  | read answer =>
      simp only [step] at stepTo
      split at stepTo
      · unfold read at stepTo
        split at stepTo
        · split at stepTo
          · exact Option.some.inj stepTo ▸ ended
          · cases stepTo
        all_goals exact Option.some.inj stepTo ▸ ended
      · cases stepTo
  | look =>
      simp only [step] at stepTo
      split at stepTo
      next chunk adding =>
        rw [← Option.some.inj stepTo]
        unfold look
        split <;> exact ended
      · cases stepTo
  | send =>
      simp only [step] at stepTo
      split at stepTo
      · exact Option.some.inj stepTo ▸ ended
      · cases stepTo
  | receive =>
      simp only [step, ended, if_true] at stepTo
      split at stepTo <;> cases stepTo
  | handOver size =>
      simp [step, ended] at stepTo
  | finish => exact Option.some.inj stepTo ▸ rfl
  | wake =>
      simp only [step, if_pos ended] at stepTo
      exact Option.some.inj stepTo ▸ ended

variable {first : Bytes} {uplink : Uplink} {moves : List Move}

theorem balanced_of_run (run : Run step anyStep (initial first) moves uplink) :
    uplink.done = true ∨ Balanced first uplink := by
  induction run with
  | nil => exact Or.inr (.initial first)
  | @snoc moves current next move run _ stepTo holds =>
      cases ended : current.done with
      | true => exact Or.inl (done_of_step ended stepTo)
      | false =>
          rcases holds with done | balanced
          · rw [ended] at done
            cases done
          · exact balanced.step ended stepTo

/-- Until the pipe ends the counter is the number of the reader's bytes that
are added and not yet handed to the socket, of whatever is handed over it gives
back no more than it has, and neither it nor the queue outgrows the limit. -/
theorem backlog_is_exact (run : Run step anyStep (initial first) moves uplink)
    (running : uplink.done = false) :
    uplink.backlog = uplink.pending.length + uplink.channel.flatten.length +
        (uplink.toMesh.length - uplink.firstLeft) ∧
      uplink.toMesh.take uplink.firstLeft = first.drop (first.length - uplink.firstLeft) ∧
      uplink.firstLeft ≤ uplink.toMesh.length ∧
      (∀ size, (uplink.step (.handOver size)).isSome →
        size - min size uplink.firstLeft ≤ uplink.backlog) ∧
      uplink.backlog ≤ toMeshLimit + 16384 ∧
      uplink.queued ≤ toMeshLimit + 16384 + first.length := by
  rcases balanced_of_run run with done | balanced
  · rw [running] at done
    cases done
  · refine ⟨balanced.counter, balanced.head, balanced.unsent.1, ?_, balanced.limited, ?_⟩
    · intro size moves
      simp only [step] at moves
      split at moves
      next part => exact balanced.uncounted_le part.2.2
      · cases moves
    · have counter := balanced.counter
      have limited := balanced.limited
      have unsent := balanced.unsent
      unfold counted at counter
      unfold queued
      simp only [bufSize] at limited
      omega

/-- A chunk behind a head of two octets, and three octets handed over: two of
the head, which are not counted, and one of the chunk. -/
theorem two_octets_are_left : ∃ uplink,
    Run step anyStep (initial [9, 9])
      [.read (.bytes [1, 2, 3]), .look, .send, .receive, .handOver 3] uplink ∧
    uplink.backlog = 2 ∧
    uplink.backlog = uplink.pending.length + uplink.channel.flatten.length +
      (uplink.toMesh.length - uplink.firstLeft) := by
  obtain ⟨uplink, run, running, two⟩ := exists_run_of_execute
    (fun uplink : Uplink => uplink.done = false ∧ uplink.backlog = 2)
    (show (execute step anyStep (initial [9, 9])
      [.read (.bytes [1, 2, 3]), .look, .send, .receive, .handOver 3]).any _ = true by decide)
  exact ⟨uplink, run, two, (backlog_is_exact run running).1⟩

end Uplink

/-! ### The loop of the pipe -/

variable {Socket : Type} {stack : TcpStack Socket}

/-- The hand-overs of an uplink are those of the code: the send loop of a pass hands
the queue over in parts, and what it gives back is what they take off the backlog. -/
theorem sendLoop_handsOver (bounded : stack.TakesAtMost) (fuel : Nat) (fronts : List Nat)
    (pipe : Pipe Socket) (uplink : Uplink) (queue : uplink.toMesh = pipe.toMesh)
    (leftNow : uplink.firstLeft = pipe.firstLeft) (running : uplink.done = false) :
    ∃ (sizes : List Nat) (next : Uplink) (given : Nat),
      Run Uplink.step anyStep uplink (sizes.map .handOver) next ∧
      next.toMesh = (pipe.sendLoop stack fuel fronts).toMesh ∧
      next.firstLeft = (pipe.sendLoop stack fuel fronts).firstLeft ∧
      (pipe.sendLoop stack fuel fronts).released = pipe.released + given ∧
      next.backlog = Backlog.sent uplink.backlog given := by
  induction fuel generalizing fronts pipe uplink with
  | zero => exact ⟨[], uplink, 0, .nil, queue, leftNow, rfl, rfl⟩
  | succ fuel ih =>
      unfold Pipe.sendLoop
      split
      · exact ⟨[], uplink, 0, .nil, queue, leftNow, rfl, rfl⟩
      next ready =>
        simp only
        split
        · exact ⟨[], uplink, 0, .nil, queue, leftNow, rfl, rfl⟩
        next takes =>
          have atMost := bounded pipe.socket (frontSlice pipe.toMesh fronts)
          have inQueue := (frontSlice_isFront pipe.toMesh fronts).length_le
          generalize (stack.sendSlice pipe.socket (frontSlice pipe.toMesh fronts)).1 = sent at *
          have moves : uplink.step (.handOver sent) = some (uplink.handOver sent) :=
            if_pos ⟨running, Nat.pos_of_ne_zero takes,
              queue ▸ Nat.le_trans atMost inQueue⟩
          have first : Run Uplink.step anyStep uplink [.handOver sent] (uplink.handOver sent) :=
            Run.snoc .nil trivial moves
          have left : (uplink.handOver sent).firstLeft =
              pipe.firstLeft - min sent pipe.firstLeft := by
            rw [← leftNow]
            rfl
          obtain ⟨sizes, next, given, run, toMesh, firstLeft, released, backlog⟩ :=
            ih fronts.tail
              { pipe with
                socket := (stack.sendSlice pipe.socket (frontSlice pipe.toMesh fronts)).2
                toMesh := pipe.toMesh.drop sent
                handed := pipe.handed ++ (frontSlice pipe.toMesh fronts).take sent
                firstLeft := pipe.firstLeft - min sent pipe.firstLeft
                released := pipe.released + (sent - min sent pipe.firstLeft) }
              (uplink.handOver sent) (congrArg (List.drop sent) queue) left running
          refine ⟨sent :: sizes, next, sent - min sent pipe.firstLeft + given, ?_, toMesh,
            firstLeft, ?_, ?_⟩
          · exact Run.append first run
          · rw [released, Nat.add_assoc]
          · rw [backlog, Uplink.handOver]
            simp only [Backlog.sent, leftNow]
            omega

end Fips2Go.MeshTcp
