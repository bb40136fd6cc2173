import Fips2Go.ByteStrings
import Fips2Go.GuardedRuns
import Mathlib.Logic.Function.Basic
import Mathlib.Data.List.Flatten

/-!
# The writer channel across tunnel swaps

Every packet bound for the tunnel goes through one channel, and the writer
thread that drains it is replaced whenever the tunnel is: `stop_io` clears the
old generation's `live` flag, queues an empty packet as a wake-up, joins the
old threads and hands the channel's receiver to `spawn_io`.  Each load of a
flag, each channel operation and each write is one step here.
-/

namespace Fips2Go.PumpWriter

open GuardedRuns

/-- Where a writer thread stands: at either load of its loop condition, at
`recv`, before the write of the packet it took, past the loop, or returned
with the receiver. -/
inductive WriterPc where
  | loadRunning
  | loadLive
  | recv
  | write (packet : Bytes)
  | leaving
  | returned
  deriving DecidableEq, Repr

inductive ReaderPc where
  | loop
  | leaving
  | returned
  deriving DecidableEq, Repr

/-- A reader/writer generation; `written` records what it wrote to its fd. -/
structure Io where
  live : Bool
  writer : WriterPc
  reader : ReaderPc
  doneRx : Nat
  written : List Bytes
  deriving DecidableEq, Repr

/-- Where the thread inside `swap_fd` stands; `join` takes the same path and
never reaches `spawnIo`. -/
inductive SwapPc where
  | idle
  | clearLive
  | sendSentinel
  | awaitDone (left : Nat)
  | joinWriter
  | spawnIo
  deriving DecidableEq, Repr

structure Pump where
  running : Bool
  channel : List Bytes
  io : Nat → Io
  generation : Nat
  swap : SwapPc
  sent : List Bytes

inductive Move where
  | send (packet : Bytes)
  | clearRunning
  | writer (generation : Nat)
  | reader (generation : Nat)
  | swap
  deriving DecidableEq, Repr

def spawnIo : Io where
  live := true
  writer := .loadRunning
  reader := .loop
  doneRx := 0
  written := []

def spawn : Pump where
  running := true
  channel := []
  io := fun _ => spawnIo
  generation := 0
  swap := .idle
  sent := []

def Pump.setIo (pump : Pump) (generation : Nat) (io : Io) : Pump :=
  { pump with io := Function.update pump.io generation io }

def writerStep (pump : Pump) (generation : Nat) : Option Pump :=
  let io := pump.io generation
  match io.writer with
  | .loadRunning =>
      let next : WriterPc := if pump.running then .loadLive else .leaving
      some (pump.setIo generation { io with writer := next })
  | .loadLive =>
      let next : WriterPc := if io.live then .recv else .leaving
      some (pump.setIo generation { io with writer := next })
  | .recv =>
      match pump.channel with
      | [] => none
      | packet :: queued =>
          -- A stop sentinel, whoever sent it, only sends the writer back to
          -- the flags.
          let next : WriterPc := if packet = [] then .loadRunning else .write packet
          some (({ pump with channel := queued }).setIo generation
            { io with writer := next })
  | .write packet =>
      some (pump.setIo generation
        { io with writer := .loadRunning, written := io.written ++ [packet] })
  | .leaving =>
      some (pump.setIo generation
        { io with writer := .returned, doneRx := io.doneRx + 1 })
  | .returned => none

/-- The reader leaves its loop on a cleared flag or on an error of its own. -/
def readerStep (pump : Pump) (generation : Nat) : Option Pump :=
  let io := pump.io generation
  match io.reader with
  | .loop => some (pump.setIo generation { io with reader := .leaving })
  | .leaving =>
      some (pump.setIo generation
        { io with reader := .returned, doneRx := io.doneRx + 1 })
  | .returned => none

def swapStep (pump : Pump) : Option Pump :=
  let io := pump.io pump.generation
  match pump.swap with
  | .idle => some { pump with swap := .clearLive }
  | .clearLive =>
      some { pump.setIo pump.generation { io with live := false } with
        swap := .sendSentinel }
  | .sendSentinel =>
      some { pump with channel := pump.channel ++ [[]], swap := .awaitDone 2 }
  | .awaitDone (left + 1) =>
      if 0 < io.doneRx then
        some { pump.setIo pump.generation { io with doneRx := io.doneRx - 1 } with
          swap := .awaitDone left }
      else none
  | .awaitDone 0 =>
      if io.reader = .returned then some { pump with swap := .joinWriter } else none
  | .joinWriter =>
      if io.writer = .returned then some { pump with swap := .spawnIo } else none
  | .spawnIo =>
      some { pump.setIo (pump.generation + 1) spawnIo with
        generation := pump.generation + 1
        swap := .idle }

def step (pump : Pump) : Move → Option Pump
  | .send packet =>
      if packet = [] then none
      else some { pump with
        channel := pump.channel ++ [packet]
        sent := pump.sent ++ [packet] }
  | .clearRunning => some { pump with running := false }
  | .writer generation =>
      if generation ≤ pump.generation then writerStep pump generation else none
  | .reader generation =>
      if generation ≤ pump.generation then readerStep pump generation else none
  | .swap => swapStep pump

/-- The packet a writer has taken and not yet written. -/
def WriterPc.inHand : WriterPc → List Bytes
  | .write packet => [packet]
  | _ => []

/-- The writer is past its loop. -/
def WriterPc.stopped : WriterPc → Bool
  | .leaving | .returned => true
  | _ => false

/-- `stop_io` has cleared this generation's `live`. -/
def SwapPc.clearedLive : SwapPc → Bool
  | .idle | .clearLive => false
  | _ => true

def SwapPc.sentSentinel : SwapPc → Bool
  | .idle | .clearLive | .sendSentinel => false
  | _ => true

def Pump.queued (pump : Pump) : List Bytes :=
  pump.channel.filter (fun packet => packet ≠ [])

def Pump.writtenBefore (pump : Pump) (generation : Nat) : List Bytes :=
  (List.range generation).flatMap fun earlier => (pump.io earlier).written

/-- What all generations wrote, oldest generation first. -/
def Pump.written (pump : Pump) : List Bytes :=
  pump.writtenBefore (pump.generation + 1)

def Pump.retired (pump : Pump) (generation : Nat) : Prop :=
  generation < pump.generation ∨
    generation = pump.generation ∧ pump.swap.clearedLive = true

def Pump.sentinelSent (pump : Pump) (generation : Nat) : Prop :=
  generation < pump.generation ∨
    generation = pump.generation ∧ pump.swap.sentSentinel = true

def Pump.blocked (pump : Pump) (generation : Nat) : Prop :=
  (pump.io generation).writer = .recv ∧ pump.channel = []

def Pump.holdsReceiver (pump : Pump) (generation : Nat) : Prop :=
  generation ≤ pump.generation ∧ (pump.io generation).writer ≠ .returned

/-- What every state of the pump owes to its senders and to `stop_io`. -/
structure HandedOver (pump : Pump) : Prop where
  oneWriter : ∀ first second, pump.holdsReceiver first → pump.holdsReceiver second →
    first = second
  exactlyOnce : pump.sent =
    pump.written ++ (pump.io pump.generation).writer.inHand ++ pump.queued
  stoppedWhenTold : ∀ generation ≤ pump.generation,
    (pump.io generation).writer.stopped = true →
      pump.retired generation ∨ pump.running = false
  neverStuck : ∀ generation ≤ pump.generation, pump.sentinelSent generation →
    ¬ pump.blocked generation

/-- The induction hypothesis: earlier generations have returned, and a writer
still at `recv` once its sentinel is queued has not taken anything since, so a
sentinel is waiting for it. -/
structure Invariant (pump : Pump) : Prop where
  earlier : ∀ generation < pump.generation,
    (pump.io generation).writer = .returned
  liveFlag : (pump.io pump.generation).live = !pump.swap.clearedLive
  stream : pump.sent =
    pump.written ++ (pump.io pump.generation).writer.inHand ++ pump.queued
  stopped : (pump.io pump.generation).writer.stopped = true →
    pump.swap.clearedLive = true ∨ pump.running = false
  waiting : pump.swap.sentSentinel = true →
    (pump.io pump.generation).writer = .recv → [] ∈ pump.channel
  joined : pump.swap = .spawnIo → (pump.io pump.generation).writer = .returned

@[simp]
theorem setIo_self (pump : Pump) (generation : Nat) (io : Io) :
    (pump.setIo generation io).io generation = io := by
  simp [Pump.setIo]

@[simp]
theorem setIo_of_ne (pump : Pump) {generation other : Nat} (io : Io)
    (different : other ≠ generation) :
    (pump.setIo generation io).io other = pump.io other := by
  simp [Pump.setIo, different]

@[simp]
theorem setIo_running (pump : Pump) (generation : Nat) (io : Io) :
    (pump.setIo generation io).running = pump.running :=
  rfl

@[simp]
theorem setIo_channel (pump : Pump) (generation : Nat) (io : Io) :
    (pump.setIo generation io).channel = pump.channel :=
  rfl

@[simp]
theorem setIo_generation (pump : Pump) (generation : Nat) (io : Io) :
    (pump.setIo generation io).generation = pump.generation :=
  rfl

@[simp]
theorem setIo_swap (pump : Pump) (generation : Nat) (io : Io) :
    (pump.setIo generation io).swap = pump.swap :=
  rfl

@[simp]
theorem setIo_sent (pump : Pump) (generation : Nat) (io : Io) :
    (pump.setIo generation io).sent = pump.sent :=
  rfl

theorem clearedLive_of_sentSentinel {swap : SwapPc} (sent : swap.sentSentinel = true) :
    swap.clearedLive = true := by
  cases swap with
  | idle => cases sent
  | clearLive => cases sent
  | sendSentinel => cases sent
  | awaitDone left => rfl
  | joinWriter => rfl
  | spawnIo => rfl

theorem writtenBefore_congr {first second : Pump} {generation : Nat}
    (same : ∀ earlier < generation,
      (first.io earlier).written = (second.io earlier).written) :
    first.writtenBefore generation = second.writtenBefore generation := by
  induction generation with
  | zero => rfl
  | succ generation ih =>
      have smaller := ih (fun earlier below => same earlier (by omega))
      simp only [Pump.writtenBefore] at smaller ⊢
      simp [List.range_succ, smaller, same generation (by omega)]

theorem written_eq (pump : Pump) :
    pump.written =
      pump.writtenBefore pump.generation ++ (pump.io pump.generation).written := by
  simp [Pump.written, Pump.writtenBefore, List.range_succ]

namespace Invariant

variable {pump : Pump}

theorem spawn : Invariant spawn := by
  constructor
  · intro generation below
    exact absurd below (Nat.not_lt_zero _)
  · rfl
  · rfl
  · intro stopped
    cases stopped
  · intro sent
    cases sent
  · intro spawning
    cases spawning

/-- A step of the current generation keeps the invariant when it keeps the
flags and shifts what it writes along the stream. -/
theorem ofCurrent (invariant : Invariant pump) (io : Io) (channel : List Bytes)
    (moved : (pump.io pump.generation).written ++
        (pump.io pump.generation).writer.inHand ++ pump.queued =
      io.written ++ io.writer.inHand ++ channel.filter (fun packet => packet ≠ []))
    (stopped : io.writer.stopped = true →
      pump.swap.clearedLive = true ∨ pump.running = false)
    (waiting : pump.swap.sentSentinel = true → io.writer = .recv → [] ∈ channel)
    (joined : pump.swap = .spawnIo → io.writer = .returned)
    (liveEq : io.live = (pump.io pump.generation).live) :
    Invariant (({ pump with channel := channel }).setIo pump.generation io) := by
  constructor
  · intro generation below
    have different : generation ≠ pump.generation := by
      simp only [setIo_generation] at below
      omega
    simp only [setIo_of_ne _ _ different]
    exact invariant.earlier generation below
  · simpa [liveEq] using invariant.liveFlag
  · have unchanged :
        (({ pump with channel := channel }).setIo pump.generation io).writtenBefore
          pump.generation = pump.writtenBefore pump.generation := by
      apply writtenBefore_congr
      intro earlier below
      rw [setIo_of_ne _ _ (by omega)]
    have before := invariant.stream
    rw [written_eq] at before ⊢
    simp only [setIo_generation, setIo_self, setIo_sent] at *
    rw [unchanged, before, List.append_assoc, List.append_assoc]
    rw [List.append_assoc] at moved
    rw [moved]
    simp [Pump.queued]
  · simpa using stopped
  · simpa using waiting
  · simpa using joined

theorem writerStep (invariant : Invariant pump) {generation : Nat} {next : Pump}
    (inRange : generation ≤ pump.generation)
    (stepTo : writerStep pump generation = some next) : Invariant next := by
  have current : generation = pump.generation := by
    by_contra different
    have returned := invariant.earlier generation (by omega)
    simp [PumpWriter.writerStep, returned] at stepTo
  subst current
  unfold PumpWriter.writerStep at stepTo
  have notJoined : (pump.io pump.generation).writer ≠ .returned →
      pump.swap ≠ .spawnIo := by
    intro holding spawning
    exact holding (invariant.joined spawning)
  cases writer : (pump.io pump.generation).writer with
  | loadRunning =>
      simp only [writer, Option.some.injEq] at stepTo
      rw [← stepTo]
      apply invariant.ofCurrent
      · cases pump.running <;> simp [writer, WriterPc.inHand, Pump.queued]
      · cases running : pump.running <;> simp [WriterPc.stopped]
      · cases pump.running <;> simp
      · simp [notJoined, writer]
      · rfl
  | loadLive =>
      simp only [writer, Option.some.injEq] at stepTo
      rw [← stepTo]
      have flag := invariant.liveFlag
      apply invariant.ofCurrent
      · cases (pump.io pump.generation).live <;>
          simp [writer, WriterPc.inHand, Pump.queued]
      · cases live : (pump.io pump.generation).live
        · rw [live] at flag
          simpa [WriterPc.stopped] using Or.inl flag.symm
        · simp [WriterPc.stopped]
      · intro sent entered
        -- The sentinel goes out after `live` is cleared, so this load saw it.
        rw [clearedLive_of_sentSentinel sent] at flag
        simp [flag] at entered
      · simp [notJoined, writer]
      · rfl
  | recv =>
      cases channel : pump.channel with
      | nil => simp [writer, channel] at stepTo
      | cons packet queued =>
          simp only [writer, channel, Option.some.injEq] at stepTo
          rw [← stepTo]
          apply invariant.ofCurrent
          · by_cases sentinel : packet = [] <;>
              simp [sentinel, writer, channel, WriterPc.inHand, Pump.queued]
          · by_cases sentinel : packet = [] <;> simp [sentinel, WriterPc.stopped]
          · by_cases sentinel : packet = [] <;> simp [sentinel]
          · simp [notJoined, writer]
          · rfl
  | write packet =>
      simp only [writer, Option.some.injEq] at stepTo
      rw [← stepTo]
      apply invariant.ofCurrent
      · simp [writer, WriterPc.inHand, Pump.queued]
      · simp [WriterPc.stopped]
      · simp
      · simp [notJoined, writer]
      · rfl
  | leaving =>
      simp only [writer, Option.some.injEq] at stepTo
      rw [← stepTo]
      apply invariant.ofCurrent
      · simp [writer, WriterPc.inHand, Pump.queued]
      · intro _
        exact invariant.stopped (by simp [writer, WriterPc.stopped])
      · simp
      · simp
      · rfl
  | returned => simp [writer] at stepTo

/-- Steps that leave a generation's writer, flag and output alone. -/
theorem ofSameWriter (invariant : Invariant pump) (generation : Nat) (io : Io)
    (writerEq : io.writer = (pump.io generation).writer)
    (liveEq : io.live = (pump.io generation).live)
    (writtenEq : io.written = (pump.io generation).written) :
    Invariant (pump.setIo generation io) := by
  have sameWriter : ∀ other,
      ((pump.setIo generation io).io other).writer = (pump.io other).writer := by
    intro other
    by_cases same : other = generation
    · rw [same, setIo_self, writerEq]
    · rw [setIo_of_ne _ _ same]
  have sameLive : ∀ other,
      ((pump.setIo generation io).io other).live = (pump.io other).live := by
    intro other
    by_cases same : other = generation
    · rw [same, setIo_self, liveEq]
    · rw [setIo_of_ne _ _ same]
  have sameWritten : (pump.setIo generation io).written = pump.written := by
    apply writtenBefore_congr
    intro other _
    by_cases same : other = generation
    · rw [same, setIo_self, writtenEq]
    · rw [setIo_of_ne _ _ same]
  constructor
  · intro other below
    rw [sameWriter]
    exact invariant.earlier other below
  · rw [sameLive]
    exact invariant.liveFlag
  · rw [sameWriter, sameWritten]
    exact invariant.stream
  · rw [sameWriter]
    exact invariant.stopped
  · rw [sameWriter]
    exact invariant.waiting
  · rw [sameWriter]
    exact invariant.joined

theorem readerStep (invariant : Invariant pump) {generation : Nat} {next : Pump}
    (stepTo : readerStep pump generation = some next) : Invariant next := by
  unfold PumpWriter.readerStep at stepTo
  cases reader : (pump.io generation).reader with
  | loop =>
      simp only [reader, Option.some.injEq] at stepTo
      rw [← stepTo]
      exact invariant.ofSameWriter _ _ rfl rfl rfl
  | leaving =>
      simp only [reader, Option.some.injEq] at stepTo
      rw [← stepTo]
      exact invariant.ofSameWriter _ _ rfl rfl rfl
  | returned => simp [reader] at stepTo

/-- Steps of `swap_fd` that only wait. -/
theorem advance (invariant : Invariant pump) (swap : SwapPc)
    (sameCleared : swap.clearedLive = pump.swap.clearedLive)
    (sameSent : swap.sentSentinel = pump.swap.sentSentinel)
    (joined : swap = .spawnIo → (pump.io pump.generation).writer = .returned) :
    Invariant { pump with swap := swap } := by
  constructor
  · exact invariant.earlier
  · simp only [sameCleared]
    exact invariant.liveFlag
  · exact invariant.stream
  · simp only [sameCleared]
    exact invariant.stopped
  · simp only [sameSent]
    exact invariant.waiting
  · exact joined

theorem clearLive (invariant : Invariant pump) :
    Invariant { pump.setIo pump.generation
      { pump.io pump.generation with live := false } with swap := .sendSentinel } := by
  have sameWriter : ((pump.setIo pump.generation
      { pump.io pump.generation with live := false }).io pump.generation).writer =
        (pump.io pump.generation).writer := by
    rw [setIo_self]
  constructor
  · intro generation below
    have different : generation ≠ pump.generation := Nat.ne_of_lt below
    simp only [setIo_of_ne _ _ different]
    exact invariant.earlier generation below
  · simp [SwapPc.clearedLive]
  · have sameWritten : (pump.setIo pump.generation
        { pump.io pump.generation with live := false }).written = pump.written := by
      apply writtenBefore_congr
      intro other _
      by_cases same : other = pump.generation
      · rw [same, setIo_self]
      · rw [setIo_of_ne _ _ same]
    have before := invariant.stream
    rw [← sameWritten, ← sameWriter] at before
    exact before
  · intro _
    exact Or.inl rfl
  · intro sent
    cases sent
  · intro spawning
    cases spawning

theorem sendSentinel (invariant : Invariant pump) (atSend : pump.swap = .sendSentinel) :
    Invariant { pump with channel := pump.channel ++ [[]], swap := .awaitDone 2 } := by
  constructor
  · exact invariant.earlier
  · have flag := invariant.liveFlag
    rw [atSend] at flag
    exact flag
  · have before := invariant.stream
    simpa [Pump.queued, Pump.written, Pump.writtenBefore] using before
  · intro _
    exact Or.inl rfl
  · intro _ _
    simp
  · intro spawning
    cases spawning

theorem spawnNext (invariant : Invariant pump) (atSpawn : pump.swap = .spawnIo) :
    Invariant { pump.setIo (pump.generation + 1) spawnIo with
      generation := pump.generation + 1
      swap := .idle } := by
  have returned := invariant.joined atSpawn
  have older : ∀ generation ≤ pump.generation,
      (pump.setIo (pump.generation + 1) spawnIo).io generation = pump.io generation := by
    intro generation below
    exact setIo_of_ne _ _ (by omega)
  constructor
  · intro generation below
    have atMost : generation ≤ pump.generation := Nat.lt_succ_iff.mp below
    simp only [older generation atMost]
    rcases Nat.lt_or_eq_of_le atMost with earlier | current
    · exact invariant.earlier generation earlier
    · rw [current, returned]
  · simp [spawnIo, SwapPc.clearedLive]
  · have sameWritten :
        (pump.setIo (pump.generation + 1) spawnIo).writtenBefore (pump.generation + 1) =
          pump.written := by
      apply writtenBefore_congr
      intro earlier below
      rw [older earlier (by omega)]
    have before := invariant.stream
    rw [returned] at before
    rw [written_eq]
    simp only [Pump.writtenBefore, setIo_self] at sameWritten ⊢
    rw [sameWritten]
    simpa [spawnIo, WriterPc.inHand, Pump.queued] using before
  · intro stopped
    simp [spawnIo, WriterPc.stopped] at stopped
  · intro sent
    cases sent
  · intro spawning
    cases spawning

theorem swapStep (invariant : Invariant pump) {next : Pump}
    (stepTo : swapStep pump = some next) : Invariant next := by
  unfold PumpWriter.swapStep at stepTo
  cases swap : pump.swap with
  | idle =>
      simp only [swap, Option.some.injEq] at stepTo
      rw [← stepTo]
      exact invariant.advance .clearLive (by rw [swap]; rfl) (by rw [swap]; rfl) nofun
  | clearLive =>
      simp only [swap, Option.some.injEq] at stepTo
      rw [← stepTo]
      exact invariant.clearLive
  | sendSentinel =>
      simp only [swap, Option.some.injEq] at stepTo
      rw [← stepTo]
      exact invariant.sendSentinel swap
  | awaitDone left =>
      cases left with
      | zero =>
          simp only [swap, Option.ite_none_right_eq_some, Option.some.injEq] at stepTo
          rw [← stepTo.2]
          exact invariant.advance .joinWriter (by rw [swap]; rfl) (by rw [swap]; rfl) nofun
      | succ left =>
          simp only [swap, Option.ite_none_right_eq_some, Option.some.injEq] at stepTo
          rw [← stepTo.2]
          have received := invariant.ofSameWriter pump.generation
            { pump.io pump.generation with doneRx := (pump.io pump.generation).doneRx - 1 }
            rfl rfl rfl
          exact received.advance (.awaitDone left) (by rw [setIo_swap, swap]; rfl)
            (by rw [setIo_swap, swap]; rfl) nofun
  | joinWriter =>
      simp only [swap, Option.ite_none_right_eq_some, Option.some.injEq] at stepTo
      obtain ⟨returned, stepTo⟩ := stepTo
      rw [← stepTo]
      exact invariant.advance .spawnIo (by rw [swap]; rfl) (by rw [swap]; rfl)
        (fun _ => returned)
  | spawnIo =>
      simp only [swap, Option.some.injEq] at stepTo
      rw [← stepTo]
      exact invariant.spawnNext swap

theorem send (invariant : Invariant pump) {packet : Bytes} (nonempty : packet ≠ []) :
    Invariant { pump with
      channel := pump.channel ++ [packet]
      sent := pump.sent ++ [packet] } := by
  constructor
  · exact invariant.earlier
  · exact invariant.liveFlag
  · have before := invariant.stream
    simp only [Pump.queued, Pump.written, Pump.writtenBefore] at before ⊢
    rw [before]
    simp [nonempty]
  · exact invariant.stopped
  · intro sent atRecv
    exact List.mem_append_left _ (invariant.waiting sent atRecv)
  · exact invariant.joined

theorem clearRunning (invariant : Invariant pump) :
    Invariant { pump with running := false } := by
  constructor
  · exact invariant.earlier
  · exact invariant.liveFlag
  · exact invariant.stream
  · intro _
    exact Or.inr rfl
  · exact invariant.waiting
  · exact invariant.joined

theorem step (invariant : Invariant pump) {move : Move} {next : Pump}
    (stepTo : step pump move = some next) : Invariant next := by
  cases move with
  | send packet =>
      simp only [PumpWriter.step] at stepTo
      split at stepTo
      · cases stepTo
      · rename_i nonempty
        cases stepTo
        exact invariant.send nonempty
  | clearRunning =>
      cases stepTo
      exact invariant.clearRunning
  | writer generation =>
      simp only [PumpWriter.step] at stepTo
      split at stepTo
      · rename_i inRange
        exact invariant.writerStep inRange stepTo
      · cases stepTo
  | reader generation =>
      simp only [PumpWriter.step] at stepTo
      split at stepTo
      · exact invariant.readerStep stepTo
      · cases stepTo
  | swap => exact invariant.swapStep stepTo

theorem run {moves : List Move} {final : Pump}
    (run : Run PumpWriter.step anyStep PumpWriter.spawn moves final) : Invariant final :=
  run.invariant Invariant.spawn (fun _ _ _ before _ stepTo => before.step stepTo)

theorem handedOver (invariant : Invariant pump) : HandedOver pump := by
  constructor
  · have latest : ∀ generation, pump.holdsReceiver generation →
        generation = pump.generation := by
      rintro generation ⟨inRange, holding⟩
      by_contra different
      exact holding (invariant.earlier generation (by omega))
    intro first second firstHolds secondHolds
    rw [latest first firstHolds, latest second secondHolds]
  · exact invariant.stream
  · intro generation inRange stopped
    rcases Nat.lt_or_eq_of_le inRange with earlier | current
    · exact Or.inl (Or.inl earlier)
    · subst current
      rcases invariant.stopped stopped with cleared | down
      · exact Or.inl (Or.inr ⟨rfl, cleared⟩)
      · exact Or.inr down
  · rintro generation inRange (earlier | ⟨rfl, sent⟩) ⟨atRecv, empty⟩
    · rw [invariant.earlier generation earlier] at atRecv
      cases atRecv
    · have waiting := invariant.waiting sent atRecv
      simp [empty] at waiting

end Invariant

/-- However senders, writers, readers and swaps interleave, the channel is
handed over intact. -/
theorem writer_handover {moves : List Move} {final : Pump}
    (run : Run step anyStep spawn moves final) : HandedOver final :=
  (Invariant.run run).handedOver

/-- A swap during which the first writer leaves its sentinel behind; the second
one takes it and stays in its loop. -/
def swapPastSentinel : List Move :=
  [.writer 0, .writer 0, .send [1], .swap, .swap, .swap, .writer 0, .writer 0,
    .writer 0, .writer 0, .writer 0, .reader 0, .reader 0, .swap, .swap, .swap,
    .swap, .swap, .send [2], .writer 1, .writer 1, .writer 1]

theorem handover_past_stale_sentinel :
    ∃ final, Run step anyStep spawn swapPastSentinel final ∧
      (final.generation = 1 ∧ (final.io 1).writer = .loadRunning ∧
        final.channel = [[2]]) ∧ HandedOver final := by
  have reaches : ∃ final, Run step anyStep spawn swapPastSentinel final ∧
      (final.generation = 1 ∧ (final.io 1).writer = .loadRunning ∧
        final.channel = [[2]]) :=
    exists_run_of_execute _ (by decide +kernel)
  rcases reaches with ⟨final, run, reached⟩
  exact ⟨final, run, reached, writer_handover run⟩

end Fips2Go.PumpWriter
