import Fips2Go.GuardedRuns
import Mathlib.Logic.Function.Basic

/-!
# Threads as lists of instructions

Each thread of a concurrent program has a list of instructions ahead of it.
Executing one changes the shared state and puts the instructions that follow
from it in front of the rest.  A field that is only right once some thread has
gone on is described by what is owed: either the shared state is as it should
be, or an instruction that makes it so lies ahead of some thread.
-/

namespace ThreadPrograms

variable {Thread Instr Shared Answers : Type*}

structure State (Thread Instr Shared : Type*) where
  shared : Shared
  pending : Thread → List Instr

/-- What an instruction is followed by, and the shared state it leaves. -/
abbrev Exec (Answers Instr Shared : Type*) := Answers → Instr → Shared → List Instr × Shared

section Steps

variable [DecidableEq Thread]

/-- Give a thread a program, and change the shared state with that. -/
def State.start (state : State Thread Instr Shared) (thread : Thread) (program : List Instr)
    (shared : Shared) : State Thread Instr Shared :=
  ⟨shared, Function.update state.pending thread program⟩

/-- One instruction of a thread; there is no step when none lies ahead of it. -/
def runStep (exec : Exec Answers Instr Shared) (state : State Thread Instr Shared)
    (thread : Thread) (answers : Answers) : Option (State Thread Instr Shared) :=
  match state.pending thread with
  | [] => none
  | instr :: rest =>
      let (following, shared) := exec answers instr state.shared
      some (state.start thread (following ++ rest) shared)

@[simp]
theorem State.shared_start (state : State Thread Instr Shared) (thread : Thread)
    (program : List Instr) (shared : Shared) :
    (state.start thread program shared).shared = shared := rfl

@[simp]
theorem State.pending_start_self (state : State Thread Instr Shared) (thread : Thread)
    (program : List Instr) (shared : Shared) :
    (state.start thread program shared).pending thread = program :=
  Function.update_self ..

theorem State.pending_start_of_ne (state : State Thread Instr Shared) {thread other : Thread}
    (different : other ≠ thread) (program : List Instr) (shared : Shared) :
    (state.start thread program shared).pending other = state.pending other :=
  Function.update_of_ne different ..

theorem runStep_of_cons (exec : Exec Answers Instr Shared) {state : State Thread Instr Shared}
    {thread : Thread} {instr : Instr} {rest : List Instr}
    (ahead : state.pending thread = instr :: rest) (answers : Answers) :
    runStep exec state thread answers =
      some (state.start thread ((exec answers instr state.shared).1 ++ rest)
        (exec answers instr state.shared).2) := by
  simp only [runStep, ahead]

theorem runStep_cases {exec : Exec Answers Instr Shared} {state next : State Thread Instr Shared}
    {thread : Thread} {answers : Answers} (stepTo : runStep exec state thread answers = some next) :
    ∃ instr rest, state.pending thread = instr :: rest ∧
      next = state.start thread ((exec answers instr state.shared).1 ++ rest)
        (exec answers instr state.shared).2 := by
  cases ahead : state.pending thread with
  | nil => simp [runStep, ahead] at stepTo
  | cons instr rest =>
      rw [runStep_of_cons exec ahead, Option.some.injEq] at stepTo
      exact ⟨instr, rest, rfl, stepTo.symm⟩

end Steps

/-! ### What is owed -/

/-- No thread has anything ahead of it. -/
def State.Quiet (state : State Thread Instr Shared) : Prop := ∀ thread, state.pending thread = []

/-- Nothing else lies ahead of the thread. -/
def State.Only (state : State Thread Instr Shared) (thread : Thread) (allowed : Instr → Prop) :
    Prop :=
  ∀ instr ∈ state.pending thread, allowed instr

/-- Some thread has an instruction of this kind ahead of it. -/
def State.Awaits (state : State Thread Instr Shared) (awaited : Instr → Prop) : Prop :=
  ∃ thread, ∃ instr ∈ state.pending thread, awaited instr

/-- The shared state is as it should be, or an instruction that makes it so lies ahead. -/
def State.Owed (state : State Thread Instr Shared) (holds : Shared → Prop)
    (awaited : Instr → Prop) : Prop :=
  holds state.shared ∨ state.Awaits awaited

variable {state next : State Thread Instr Shared} {holds : Shared → Prop}
  {awaited : Instr → Prop}

theorem State.Owed.of_quiet (owed : state.Owed holds awaited) (quiet : state.Quiet) :
    holds state.shared := by
  rcases owed with now | ⟨thread, instr, ahead, -⟩
  · exact now
  · rw [quiet thread] at ahead
    exact absurd ahead List.not_mem_nil

/-- The shared state is as it should be, and nothing else lies ahead of any thread. -/
structure State.Confined (state : State Thread Instr Shared) (holds : Shared → Prop)
    (allowed : Instr → Prop) : Prop where
  shared : holds state.shared
  pending : ∀ thread, state.Only thread allowed

theorem State.Quiet.confined {allowed : Instr → Prop} (quiet : state.Quiet)
    (now : holds state.shared) : state.Confined holds allowed where
  shared := now
  pending thread instr ahead := by
    rw [quiet thread] at ahead
    exact absurd ahead List.not_mem_nil

variable [DecidableEq Thread] {thread : Thread} {program : List Instr} {shared : Shared}

theorem State.Awaits.of_program {instr : Instr} (member : instr ∈ program)
    (kind : awaited instr) : (state.start thread program shared).Awaits awaited :=
  ⟨thread, instr, by simpa using member, kind⟩

theorem State.Awaits.of_other {other : Thread} {instr : Instr} (different : other ≠ thread)
    (member : instr ∈ state.pending other) (kind : awaited instr) :
    (state.start thread program shared).Awaits awaited := by
  apply Exists.intro other
  rw [state.pending_start_of_ne different]
  exact ⟨instr, member, kind⟩

/-- An idle thread gets a program: what it owes, the program has to bring. -/
theorem State.Owed.start (owed : state.Owed holds awaited) (idle : state.pending thread = [])
    (keeps : holds state.shared → holds shared ∨ ∃ instr ∈ program, awaited instr) :
    (state.start thread program shared).Owed holds awaited := by
  rcases owed with now | ⟨other, instr, ahead, kind⟩
  · rcases keeps now with still | ⟨instr, member, kind⟩
    · exact .inl still
    · exact .inr (.of_program member kind)
  · have different : other ≠ thread := by
      rintro rfl
      rw [idle] at ahead
      exact absurd ahead List.not_mem_nil
    exact .inr (.of_other different ahead kind)

/-- The executed instruction has to make up for what it was awaited for, or for
what it spoils, itself or by an instruction that follows it. -/
theorem State.Owed.runStep {exec : Exec Answers Instr Shared} {answers : Answers}
    (owed : state.Owed holds awaited)
    (stepTo : runStep exec state thread answers = some next)
    (keeps : ∀ instr rest, state.pending thread = instr :: rest →
      holds state.shared ∨ awaited instr →
        holds (exec answers instr state.shared).2 ∨
          ∃ follow ∈ (exec answers instr state.shared).1, awaited follow) :
    next.Owed holds awaited := by
  obtain ⟨instr, rest, ahead, rfl⟩ := runStep_cases stepTo
  have made : holds state.shared ∨ awaited instr →
      (state.start thread ((exec answers instr state.shared).1 ++ rest)
        (exec answers instr state.shared).2).Owed holds awaited := by
    intro before
    rcases keeps instr rest ahead before with still | ⟨follow, member, kind⟩
    · exact .inl still
    · exact .inr (.of_program (List.mem_append_left _ member) kind)
  rcases owed with now | ⟨other, waiting, member, kind⟩
  · exact made (.inl now)
  by_cases same : other = thread
  · subst same
    rw [ahead] at member
    rcases List.mem_cons.mp member with rfl | later
    · exact made (.inr kind)
    · exact .inr (.of_program (List.mem_append_right _ later) kind)
  · exact .inr (.of_other same member kind)

/-! ### What a thread executes -/

theorem State.Only.runStep {exec : Exec Answers Instr Shared} {answers : Answers}
    {allowed : Instr → Prop} {mover : Thread} (only : state.Only thread allowed)
    (stepTo : runStep exec state mover answers = some next)
    (closed : ∀ instr, allowed instr → ∀ follow ∈ (exec answers instr state.shared).1,
      allowed follow) : next.Only thread allowed := by
  obtain ⟨instr, rest, ahead, rfl⟩ := runStep_cases stepTo
  intro later member
  by_cases same : thread = mover
  · subst same
    rw [State.pending_start_self] at member
    rcases List.mem_append.mp member with follows | behind
    · have first : allowed instr := only instr (by simp [ahead])
      exact closed instr first later follows
    · exact only later (by simp [ahead, behind])
  · rw [state.pending_start_of_ne same] at member
    exact only later member

/-- An instruction of this kind is all that lies ahead of the thread, and the
shared state is as it needs it. -/
def State.Alone (state : State Thread Instr Shared) (thread : Thread) (kind : Instr → Prop)
    (needs : Instr → Shared → Prop) : Prop :=
  ∀ instr ∈ state.pending thread, kind instr →
    state.pending thread = [instr] ∧ needs instr state.shared

/-- Such an instruction follows from one of its kind only; the other threads
leave it what it needs. -/
theorem State.Alone.runStep {exec : Exec Answers Instr Shared} {answers : Answers}
    {kind : Instr → Prop} {needs : Instr → Shared → Prop} {mover : Thread}
    (alone : state.Alone thread kind needs)
    (stepTo : runStep exec state mover answers = some next)
    (own : ∀ instr rest, mover = thread → state.pending mover = instr :: rest →
      ∀ follow ∈ (exec answers instr state.shared).1, kind follow →
        kind instr ∧ (exec answers instr state.shared).1 = [follow] ∧
          needs follow (exec answers instr state.shared).2)
    (others : ∀ instr rest, mover ≠ thread → state.pending mover = instr :: rest →
      ∀ waiting, kind waiting → needs waiting state.shared →
        needs waiting (exec answers instr state.shared).2) :
    next.Alone thread kind needs := by
  obtain ⟨instr, rest, ahead, rfl⟩ := runStep_cases stepTo
  intro later member isKind
  by_cases same : mover = thread
  · subst same
    rw [State.pending_start_self] at member ⊢
    rcases List.mem_append.mp member with follows | behind
    · obtain ⟨firstKind, single, fulfilled⟩ := own instr rest rfl ahead later follows isKind
      have first := alone instr (by simp [ahead]) firstKind
      have nothing : rest = [] := by simpa [ahead] using first.1
      exact ⟨by rw [single, nothing, List.append_nil], fulfilled⟩
    · have first := alone later (by simp [ahead, behind]) isKind
      have nothing : rest = [] := by
        have length := congrArg List.length first.1
        rw [ahead] at length
        simpa using length
      rw [nothing] at behind
      exact absurd behind List.not_mem_nil
  · rw [state.pending_start_of_ne (Ne.symm same)] at member ⊢
    obtain ⟨single, fulfilled⟩ := alone later member isKind
    exact ⟨single, others instr rest same ahead later isKind fulfilled⟩

/-! ### What all threads are confined to -/

theorem State.Confined.start {allowed : Instr → Prop} (confined : state.Confined holds allowed)
    (still : holds shared) (brings : ∀ instr ∈ program, allowed instr) :
    (state.start thread program shared).Confined holds allowed where
  shared := still
  pending other := by
    intro instr ahead
    by_cases same : other = thread
    · subst same
      rw [State.pending_start_self] at ahead
      exact brings instr ahead
    · rw [state.pending_start_of_ne same] at ahead
      exact confined.pending other instr ahead

theorem State.Confined.runStep {exec : Exec Answers Instr Shared} {answers : Answers}
    {allowed : Instr → Prop} (confined : state.Confined holds allowed)
    (stepTo : runStep exec state thread answers = some next)
    (keeps : ∀ instr rest, state.pending thread = instr :: rest → allowed instr →
      holds state.shared → holds (exec answers instr state.shared).2 ∧
        ∀ follow ∈ (exec answers instr state.shared).1, allowed follow) :
    next.Confined holds allowed := by
  obtain ⟨instr, rest, ahead, rfl⟩ := runStep_cases stepTo
  have first : allowed instr := confined.pending thread instr (by simp [ahead])
  obtain ⟨still, follows⟩ := keeps instr rest ahead first confined.shared
  apply confined.start still
  intro later member
  rcases List.mem_append.mp member with early | behind
  · exact follows later early
  · exact confined.pending thread later (by simp [ahead, behind])

end ThreadPrograms
