import Fips2Go.EngineLock
import Fips2Go.HandleAccounts

/-!
# One node and one descriptor

What `LIFECYCLE` protects: the node threads that were not joined and the dup'd
descriptors that were not closed are those of the engine in its slot and of the
thread that holds the lock.  As long as starts succeed, this gives at most one
node at a time, and at rest the engine with its pump, its one descriptor and its
node, if that did not break out of its loop, or nothing.
-/

namespace Fips2Go.Lifecycle

open GuardedRuns HandleAccounts LockInvariant

/-! ### What the holder of the lock answers for -/

/-- What is known of `ENGINE`: an engine in it is whole, it is empty, or there
is an engine in it with or without its pump. -/
inductive Slot where
  | whole
  | empty
  | present
  | out
  deriving DecidableEq

def Slot.Fits : Slot → Option Engine → Prop
  | .whole, engine => ∀ found, engine = some found → found.pump ≠ none
  | .empty, engine => engine = none
  | .present, engine => ∃ found, engine = some found ∧ found.pump ≠ none
  | .out, engine => ∃ found, engine = some found ∧ found.pump = none

/-- The node that the holder is starting or stopping, and its descriptor. -/
structure View where
  slot : Slot
  starting : Option Nat
  stopping : Option Nat
  fd : Option Nat

def View.only (slot : Slot) : View := ⟨slot, none, none, none⟩

def View.owning (slot : Slot) (fd : Nat) : View := ⟨slot, none, none, some fd⟩

/-- On the way to an engine, without a failure. -/
def StartPc.view : StartPc → Option View
  | .check | .unflag .done => some (.only .whole)
  | .flag | .configure | .spawnNode => some (.only .empty)
  | .await node | .dup node => some ⟨.empty, some node, none, none⟩
  | .forwarder node fd | .bridge node fd _ _ | .install node fd _ _ =>
      some ⟨.empty, some node, none, some fd⟩
  | _ => none

def StopPc.view : StopPc → View
  | .take => .only .whole
  | .tell engine => ⟨.empty, some engine.node, none, some engine.tunFd⟩
  | .joinPump engine | .joinForwarder engine | .joinNode engine =>
      ⟨.empty, none, some engine.node, some engine.tunFd⟩
  | .close engine => .owning .empty engine.tunFd

def SwapPc.view : SwapPc → View
  | .dup | .unlock | .giveUp => .only .present
  | .takePump fd | .replace fd | .closeOld fd | .closeNew fd => .owning .present fd
  | .stopOld fd _ | .putBack fd _ _ => .owning .out fd

def Control.view : Control → Option View
  | .rebind _ => some (.only .whole)
  | .start _ pc _ => pc.view
  | .io (.retire _) _ (.start ..) => none
  | .io _ fd (.start _ _ node _) => some ⟨.empty, some node, none, some fd⟩
  | .io _ fd (.swap _) => some (.owning .out fd)
  | .stop pc _ => some pc.view
  | .swap pc _ => some pc.view
  | .leave (.failed _ _) _ => none
  | .leave _ _ => some (.only .whole)
  | .idle | .wants _ | .unrebind | .reading | .panicked => none

theorem Control.holds_of_view {control : Control} {view : View}
    (shows : control.view = some view) : control.Holds := by
  cases control <;> trivial

def Shared.joins (shared : Shared) (node : Nat) : Nat := (shared.nodes node).joined.toNat

/-- The nodes of the engine in the slot and of the holder. -/
def OwnsNode (engine : Option Engine) (view : View) (node : Nat) : Prop :=
  engine.map Engine.node = some node ∨ view.starting = some node ∨ view.stopping = some node

def OwnsFd (engine : Option Engine) (view : View) (fd : Nat) : Prop :=
  engine.map Engine.tunFd = some fd ∨ view.fd = some fd

/-- The node thread runs. -/
def Shared.Alive (shared : Shared) (node : Nat) : Prop := (shared.nodes node).phase ≠ .ended

instance (shared : Shared) (node : Nat) : Decidable (shared.Alive node) :=
  inferInstanceAs (Decidable (_ ≠ _))

/-- No start of it has failed, and it has answered once it is past its start. -/
def Node.Answers (node : Node) : Prop :=
  node.ready ≠ some false ∧ (node.told = false → node.ready = none → node.phase = .starting)

/-- The accounts of nodes and descriptors balance, and a node that was not told
to stop has not, unless its loop broke. -/
structure Sound (broken : Nat → Prop) (shared : Shared) (view : View) : Prop where
  slot : view.slot.Fits shared.engine
  nodes : Balanced shared.joins shared.nextNode (OwnsNode shared.engine view)
  latest : ∀ node, OwnsNode shared.engine view node → node + 1 = shared.nextNode
  fds : Balanced shared.closes shared.nextFd (OwnsFd shared.engine view)
  apart : ∀ engine, shared.engine = some engine → view.fd ≠ some engine.tunFd
  joined : ∀ node, (shared.nodes node).joined = true → ¬ shared.Alive node
  unmade : ∀ node, shared.nextNode ≤ node → ¬ shared.Alive node
  serves : ∀ node, (shared.nodes node).told = false →
    ((shared.nodes node).phase = .starting ∨ (shared.nodes node).phase = .serving) ∨ broken node
  untold : ∀ node, shared.engine.map Engine.node = some node ∨ view.starting = some node →
    (shared.nodes node).told = false
  answers : ∀ node, (shared.nodes node).Answers

namespace Sound

variable {broken : Nat → Prop} {shared : Shared} {view : View}

theorem initial : Sound broken Lifecycle.initial.shared (.only .whole) where
  slot found some := by cases some
  nodes := Balanced.initial.congr fun node => by simp [OwnsNode, Lifecycle.initial, View.only]
  latest node owns := by simp [OwnsNode, Lifecycle.initial, View.only] at owns
  fds := Balanced.initial.congr fun fd => by simp [OwnsFd, Lifecycle.initial, View.only]
  apart engine some := by cases some
  joined _ isJoined := by cases isJoined
  unmade _ _ alive := alive rfl
  serves _ untold := by cases untold
  untold _ owns := by simp [Lifecycle.initial, View.only] at owns
  answers _ := ⟨nofun, nofun⟩

/-- The holder knows more or less of the slot. -/
theorem look (sound : Sound broken shared view) {slot : Slot} (fits : slot.Fits shared.engine) :
    Sound broken shared { view with slot } :=
  { sound with slot := fits }

/-- An empty slot, or one with a pump, is as it is at rest. -/
theorem whole {slot : Slot} (sound : Sound broken shared (.only slot)) (notOut : slot ≠ .out) :
    Sound broken shared (.only .whole) := by
  have fits : slot.Fits shared.engine := sound.slot
  have whole : Slot.whole.Fits shared.engine := by
    intro engine found
    cases slot with
    | whole => exact fits engine found
    | empty => exact absurd (found.symm.trans fits) (Option.some_ne_none _)
    | present =>
        obtain ⟨other, some, pump⟩ := fits
        rwa [← Option.some.inj (some.symm.trans found)]
    | out => exact absurd rfl notOut
  exact sound.look whole

/-- Readers and writers come and go. -/
theorem setIo (sound : Sound broken shared view) (io : Nat) (value : Io) :
    Sound broken (shared.setIo io value) view :=
  { sound with }

theorem spawnReader (sound : Sound broken shared view) (fd : Nat) :
    Sound broken (shared.spawnReader fd) view :=
  { sound with }

/-- A node starts where nobody has one. -/
theorem spawnNode (sound : Sound broken shared (.only .empty)) :
    Sound broken shared.spawnNode ⟨.empty, some shared.nextNode, none, none⟩ := by
  have empty : shared.engine = none := sound.slot
  have only (node : Nat) :
      OwnsNode shared.spawnNode.engine ⟨.empty, some shared.nextNode, none, none⟩ node ↔
        node = shared.nextNode ∨ OwnsNode shared.engine (.only .empty) node := by
    simp [OwnsNode, Shared.spawnNode, Shared.setNode, View.only, empty, eq_comm]
  have others (node : Nat) : ¬ OwnsNode shared.engine (.only .empty) node := by
    simp [OwnsNode, View.only, empty]
  have spawned (node : Nat) (other : node ≠ shared.nextNode) :
      shared.spawnNode.nodes node = shared.nodes node :=
    Function.update_of_ne other _ _
  have new : shared.spawnNode.nodes shared.nextNode = .spawned := Function.update_self ..
  have joins : shared.spawnNode.joins = shared.joins := by
    funext node
    by_cases own : node = shared.nextNode
    · have unmade := sound.nodes.unmade shared.nextNode (Nat.le_refl _)
      rw [own, unmade, Shared.joins, new]
      rfl
    · rw [Shared.joins, Shared.joins, spawned node own]
  constructor
  case slot => exact empty
  case nodes =>
    rw [joins]
    exact sound.nodes.acquire only
  case latest =>
    intro node owns
    rcases (only node).mp owns with rfl | before
    · rfl
    · exact absurd before (others node)
  case fds => exact sound.fds.congr fun fd => Iff.rfl
  case apart => exact sound.apart
  case joined =>
    intro node isJoined
    by_cases own : node = shared.nextNode
    · rw [own, new] at isJoined
      cases isJoined
    · rw [spawned node own] at isJoined
      rw [Shared.Alive, spawned node own]
      exact sound.joined node isJoined
  case unmade =>
    intro node atLeast
    have other : node ≠ shared.nextNode := Nat.ne_of_gt atLeast
    rw [Shared.Alive, spawned node other]
    exact sound.unmade node (Nat.le_of_succ_le atLeast)
  case serves =>
    intro node untold
    by_cases own : node = shared.nextNode
    · rw [own, new]
      exact .inl (.inl rfl)
    · rw [spawned node own] at untold ⊢
      exact sound.serves node untold
  case untold =>
    intro node owns
    have own : node = shared.nextNode := by
      simpa [Shared.spawnNode, Shared.setNode, empty, eq_comm] using owns
    rw [own, new]
    rfl
  case answers =>
    intro node
    by_cases own : node = shared.nextNode
    · rw [own, new]
      exact ⟨nofun, fun _ _ => rfl⟩
    · rw [spawned node own]
      exact sound.answers node

theorem dup {slot : Slot} {starting stopping : Option Nat}
    (sound : Sound broken shared ⟨slot, starting, stopping, none⟩) :
    Sound broken shared.dup ⟨slot, starting, stopping, some shared.nextFd⟩ :=
  { sound with
    fds := sound.fds.acquire fun fd => by
      simp [OwnsFd, Shared.dup, eq_comm, or_comm]
    apart := by
      intro engine some same
      have made := sound.fds.made engine.tunFd
        (.inl (congrArg (Option.map Engine.tunFd) some))
      rw [← Option.some.inj same] at made
      exact Nat.lt_irrefl _ made }

theorem close {slot : Slot} {starting stopping : Option Nat} {fd : Nat}
    (sound : Sound broken shared ⟨slot, starting, stopping, some fd⟩) :
    Sound broken (shared.close fd) ⟨slot, starting, stopping, none⟩ :=
  { sound with
    fds := by
      have owned : OwnsFd shared.engine ⟨slot, starting, stopping, some fd⟩ fd := .inr rfl
      refine sound.fds.giveBack owned ?_ (Function.update_self ..)
        fun other distinct => Function.update_of_ne distinct _ _
      intro other
      constructor
      · rintro (installed | owed)
        · refine ⟨.inl installed, ?_⟩
          rintro rfl
          obtain ⟨engine, some, tunFd⟩ := Option.map_eq_some_iff.mp installed
          exact sound.apart engine some (congrArg Option.some tunFd.symm)
        · cases owed
      · rintro ⟨installed | owed, distinct⟩
        · exact .inl installed
        · exact absurd (Option.some.inj owed).symm distinct
    apart := fun _ _ owed => by cases owed }

/-- Something about one node changes. -/
theorem setNode {after : View} (sound : Sound broken shared view) {node : Nat} {value : Node}
    (slot : after.slot = view.slot) (fd : after.fd = view.fd)
    (nodes : Balanced (shared.setNode node value).joins shared.nextNode
      (OwnsNode shared.engine after))
    (owner : ∀ other, OwnsNode shared.engine after other → OwnsNode shared.engine view other)
    (alive : value.phase ≠ .ended → shared.Alive node)
    (ended : value.joined = true → value.phase = .ended)
    (serves : value.told = false →
      (value.phase = .starting ∨ value.phase = .serving) ∨ broken node)
    (untold : ∀ other,
      shared.engine.map Engine.node = some other ∨ after.starting = some other →
      ((shared.setNode node value).nodes other).told = false)
    (answers : value.Answers) : Sound broken (shared.setNode node value) after := by
  have new := shared.nodes_setNode_self node value
  have kept (other : Nat) (distinct : other ≠ node) := shared.nodes_setNode_of_ne distinct value
  constructor
  case slot =>
    rw [slot]
    exact sound.slot
  case nodes => exact nodes
  case latest => exact fun other owns => sound.latest other (owner other owns)
  case fds =>
    refine sound.fds.congr fun other => ?_
    rw [OwnsFd, OwnsFd, fd]
    rfl
  case apart =>
    rw [fd]
    exact sound.apart
  case joined =>
    intro other isJoined
    by_cases own : other = node
    · rw [own, new] at isJoined
      rw [own, Shared.Alive, new, not_not]
      exact ended isJoined
    · rw [kept other own] at isJoined
      rw [Shared.Alive, kept other own]
      exact sound.joined other isJoined
  case unmade =>
    intro other atLeast
    by_cases own : other = node
    · rw [own] at atLeast ⊢
      rw [Shared.Alive, new]
      exact fun isAlive => sound.unmade node atLeast (alive isAlive)
    · rw [Shared.Alive, kept other own]
      exact sound.unmade other atLeast
  case serves =>
    intro other isUntold
    by_cases own : other = node
    · rw [own, new] at isUntold ⊢
      exact serves isUntold
    · rw [kept other own] at isUntold ⊢
      exact sound.serves other isUntold
  case untold => exact untold
  case answers =>
    intro other
    by_cases own : other = node
    · rw [own, new]
      exact answers
    · rw [kept other own]
      exact sound.answers other

theorem joins_setNode {node : Nat} {value : Node}
    (joined : value.joined = (shared.nodes node).joined) :
    (shared.setNode node value).joins = shared.joins := by
  funext other
  by_cases own : other = node
  · rw [own, Shared.joins, Shared.nodes_setNode_self, joined]
    rfl
  · rw [Shared.joins, Shared.nodes_setNode_of_ne own]
    rfl

theorem ended_of_joined (sound : Sound broken shared view) {node : Nat}
    (isJoined : (shared.nodes node).joined = true) : (shared.nodes node).phase = .ended := by
  have notAlive := sound.joined node isJoined
  rwa [Shared.Alive, not_not] at notAlive

/-- The holder tells its node to stop. -/
theorem tell {node : Nat} {fd : Option Nat}
    (sound : Sound broken shared ⟨.empty, some node, none, fd⟩) :
    Sound broken (shared.tell node) ⟨.empty, none, some node, fd⟩ := by
  have empty : shared.engine = none := sound.slot
  have same (other : Nat) : OwnsNode shared.engine ⟨.empty, none, some node, fd⟩ other ↔
      OwnsNode shared.engine ⟨.empty, some node, none, fd⟩ other := by
    simp [OwnsNode, empty]
  have nodes := sound.nodes.congr same
  have joins : (shared.tell node).joins = shared.joins := joins_setNode rfl
  rw [← joins] at nodes
  refine sound.setNode rfl rfl nodes (fun other => (same other).mp) id sound.ended_of_joined ?_ ?_
    ⟨(sound.answers node).1, nofun⟩
  · intro untold
    cases untold
  · intro other owns
    simp [empty] at owns

/-- The holder joins the node that it has told to stop. -/
theorem join {node : Nat} {fd : Option Nat}
    (sound : Sound broken shared ⟨.empty, none, some node, fd⟩)
    (ended : (shared.nodes node).phase = .ended) :
    Sound broken (shared.join node) ⟨.empty, none, none, fd⟩ := by
  have empty : shared.engine = none := sound.slot
  have nobody (other : Nat) : ¬ OwnsNode shared.engine ⟨.empty, none, none, fd⟩ other := by
    simp [OwnsNode, empty]
  have owned : OwnsNode shared.engine ⟨.empty, none, some node, fd⟩ node := .inr (.inr rfl)
  have out : (shared.nodes node).joined.toNat = 0 := sound.nodes.out node owned
  refine sound.setNode rfl rfl (sound.nodes.giveBack owned ?_ ?_ ?_) ?_ ?_ (fun _ => ended) ?_ ?_
    (sound.answers node)
  · intro other
    simpa [OwnsNode, empty] using Eq.symm
  · rw [Shared.joins, Shared.joins, Shared.nodes_setNode_self, out]
    rfl
  · intro other distinct
    rw [Shared.joins, Shared.nodes_setNode_of_ne distinct]
    rfl
  · exact fun other owns => absurd owns (nobody other)
  · exact fun alive => absurd ended alive
  · exact sound.serves node
  · intro other owns
    simp [empty] at owns

/-- The slot changes, and everything keeps an owner. -/
theorem put {after : View} {engine : Option Engine} (sound : Sound broken shared view)
    (slot : after.slot.Fits engine)
    (nodes : ∀ node, OwnsNode engine after node ↔ OwnsNode shared.engine view node)
    (fds : ∀ fd, OwnsFd engine after fd ↔ OwnsFd shared.engine view fd)
    (apart : ∀ found, engine = some found → after.fd ≠ some found.tunFd)
    (untold : ∀ node, engine.map Engine.node = some node ∨ after.starting = some node →
      shared.engine.map Engine.node = some node ∨ view.starting = some node) :
    Sound broken (shared.put engine) after where
  slot := slot
  nodes := sound.nodes.congr nodes
  latest node owns := sound.latest node ((nodes node).mp owns)
  fds := sound.fds.congr fds
  apart := apart
  joined := sound.joined
  unmade := sound.unmade
  serves := sound.serves
  untold node owns := sound.untold node (untold node owns)
  answers := sound.answers

theorem install {engine : Engine}
    (sound : Sound broken shared ⟨.empty, some engine.node, none, some engine.tunFd⟩)
    (whole : engine.pump ≠ none) : Sound broken (shared.put (some engine)) (.only .whole) := by
  have empty : shared.engine = none := sound.slot
  refine sound.put ?_ ?_ ?_ ?_ ?_
  · intro found same
    rwa [← Option.some.inj same]
  · intro node
    simp [OwnsNode, View.only, empty]
  · intro fd
    simp [OwnsFd, View.only, empty]
  · intro found same owed
    cases owed
  · intro node owns
    simpa [View.only, empty] using owns

theorem take {engine : Engine} (sound : Sound broken shared (.only .whole))
    (found : shared.engine = some engine) :
    Sound broken (shared.put none) ⟨.empty, some engine.node, none, some engine.tunFd⟩ := by
  refine sound.put rfl ?_ ?_ ?_ ?_
  · intro node
    simp [OwnsNode, View.only, found]
  · intro fd
    simp [OwnsFd, View.only, found]
  · intro other some
    cases some
  · intro node owns
    simpa [View.only, found] using owns

/-- The pump is taken out of the slot or put back. -/
theorem setPump {engine : Engine} {slot after : Slot} {fd : Nat}
    (sound : Sound broken shared (.owning slot fd)) (found : shared.engine = some engine)
    (pump : Option Pump) (fits : after.Fits (some { engine with pump })) :
    Sound broken (shared.put (some { engine with pump })) (.owning after fd) := by
  refine sound.put fits ?_ ?_ ?_ ?_
  · intro node
    simp [OwnsNode, View.owning, found]
  · intro other
    simp [OwnsFd, View.owning, found]
  · intro other some
    rw [← Option.some.inj some]
    exact sound.apart engine found
  · intro node owns
    simpa [View.owning, found] using owns

/-- The descriptors of the engine and of the holder change places. -/
theorem replace {engine : Engine} {fd : Nat} (sound : Sound broken shared (.owning .present fd))
    (found : shared.engine = some engine) :
    Sound broken (shared.put (some { engine with tunFd := fd }))
      (.owning .present engine.tunFd) := by
  obtain ⟨other, some, whole⟩ := sound.slot
  have same : other = engine := Option.some.inj (some.symm.trans found)
  refine sound.put ⟨_, rfl, same ▸ whole⟩ ?_ ?_ ?_ ?_
  · intro node
    simp [OwnsNode, View.owning, found]
  · intro other
    simp [OwnsFd, View.owning, found, or_comm]
  · intro other some owed
    rw [← Option.some.inj some] at owed
    exact sound.apart engine found owed.symm
  · intro node owns
    simpa [View.owning, found] using owns

/-- The node thread goes on; it leaves its loop when it was told to, or breaks. -/
theorem nodeStep (sound : Sound broken shared view) {node : Nat} {move : NodeStep} {value : Node}
    (stepTo : (shared.nodes node).step move = some value)
    (succeeds : move ≠ .fails ∧ move ≠ .dies) (breaks : move = .breaks → broken node) :
    Sound broken (shared.setNode node value) view := by
  obtain ⟨joined, told, alive, phase, answers⟩ :
      value.joined = (shared.nodes node).joined ∧ value.told = (shared.nodes node).told ∧
      shared.Alive node ∧ (value.told = false → value.phase = .serving ∨ broken node) ∧
      value.Answers := by
    have phases := sound.serves node
    have answers := sound.answers node
    unfold Shared.Alive
    cases move with
    | fails => exact absurd rfl succeeds.1
    | dies => exact absurd rfl succeeds.2
    | starts =>
        simp only [Node.step, Option.ite_none_right_eq_some, Option.some.injEq] at stepTo
        obtain ⟨starting, rfl⟩ := stepTo
        refine ⟨rfl, rfl, by rw [starting]; decide, fun _ => .inl rfl, by simp, ?_⟩
        intro untold unanswered
        cases unanswered
    | stops =>
        simp only [Node.step, Option.ite_none_right_eq_some, Option.some.injEq] at stepTo
        obtain ⟨⟨serving, told⟩, rfl⟩ := stepTo
        refine ⟨rfl, rfl, by rw [serving]; decide, fun untold => ?_, answers.1, fun untold => ?_⟩
        · exact absurd (untold.symm.trans told) (by decide)
        · exact absurd (untold.symm.trans told) (by decide)
    | breaks =>
        simp only [Node.step, Option.ite_none_right_eq_some, Option.some.injEq] at stepTo
        obtain ⟨serving, rfl⟩ := stepTo
        refine ⟨rfl, rfl, by rw [serving]; decide, fun _ => .inr (breaks rfl), answers.1, ?_⟩
        intro untold unanswered
        exact absurd (serving.symm.trans (answers.2 untold unanswered)) (by decide)
    | ends =>
        simp only [Node.step, Option.ite_none_right_eq_some, Option.some.injEq] at stepTo
        obtain ⟨leaving, rfl⟩ := stepTo
        refine ⟨rfl, rfl, by rw [leaving]; decide, fun untold => ?_, answers.1, ?_⟩
        · rcases phases untold with (starting | serving) | broke
          · exact absurd (leaving.symm.trans starting) (by decide)
          · exact absurd (leaving.symm.trans serving) (by decide)
          · exact .inr broke
        · intro untold unanswered
          exact absurd (leaving.symm.trans (answers.2 untold unanswered)) (by decide)
  have joins := joins_setNode joined
  refine sound.setNode rfl rfl (joins ▸ sound.nodes) (fun _ => id) (fun _ => alive) ?_ ?_ ?_
    answers
  · intro isJoined
    exact absurd alive (sound.joined node (joined.symm.trans isJoined))
  · exact fun untold => (phase untold).imp_left .inr
  · intro other owns
    by_cases own : other = node
    · rw [own, Shared.nodes_setNode_self, told]
      exact sound.untold node (own ▸ owns)
    · rw [Shared.nodes_setNode_of_ne own]
      exact sound.untold other owns

end Sound

/-! ### Every step keeps the accounts -/

/-- The statement of the caller belongs to `start_locked`, and it is not the
check whether the engine already runs. -/
def Control.inStart : Control → Bool
  | .start _ .check _ => false
  | .start .. | .io _ _ (.start ..) => true
  | _ => false

/-- Every step of a start succeeds, with what its node thread does until it
answers. -/
def StartsSucceed (state : State) : Label → Prop
  | .move thread ok => (state.control thread).inStart = true → ok = true
  | .node _ move => move ≠ .fails ∧ move ≠ .dies
  | _ => True

instance : DecidableRel StartsSucceed
  | _, .move _ _ => inferInstanceAs (Decidable (_ → _))
  | _, .node _ _ => inferInstanceAs (Decidable (_ ≠ _ ∧ _ ≠ _))
  | _, .call _ _ | _, .read _ | _, .readerStops _ | _, .writerStops _ => isTrue trivial

/-- What the holder of `LIFECYCLE` answers for is accounted for. -/
def Control.Fits (broken : Nat → Prop) (control : Control) (shared : Shared) : Prop :=
  ∃ view, control.view = some view ∧ Sound broken shared view

/-- The accounts of a state. -/
def Kept (broken : Nat → Prop) (state : State) : Prop :=
  Guarded (Control.Fits broken) (fun shared => Sound broken shared (.only .whole)) state

namespace Kept

variable {broken : Nat → Prop} {state next : State} {thread : Thread}

theorem initial : Kept broken initial :=
  Protected.initial (fun _ => id) Sound.initial

/-- The holder goes on, with another view. -/
theorem go (kept : Kept broken state) (holds : (state.control thread).Holds) {shared : Shared}
    {control : Control} {starting engineLock : Bool}
    (stepTo : some ({ state with starting, engineLock }.go thread shared control) = some next)
    {view : View} (sound : Sound broken shared view) (shows : control.view = some view) :
    Kept broken next :=
  Guarded.go kept holds stepTo ⟨view, shows, sound⟩ (Control.holds_of_view shows)

/-- What the holder's view says. -/
theorem sound (kept : Kept broken state) {control : Control} {view : View}
    (location : state.control thread = control) (holds : control.Holds)
    (shows : control.view = some view) : Sound broken state.shared view := by
  subst location
  obtain ⟨other, shown, sound⟩ := kept.held thread holds
  rw [shows, Option.some.injEq] at shown
  rwa [shown]

/-- Some places are not reached while starts succeed. -/
theorem elim (kept : Kept broken state) {control : Control}
    (location : state.control thread = control) (holds : control.Holds)
    (hidden : control.view = none) {claim : Prop} : claim := by
  subst location
  obtain ⟨view, shown, -⟩ := kept.held thread holds
  rw [hidden] at shown
  cases shown

theorem startStep (kept : Kept broken state) {forwards : String → Bool} {config : String}
    {pc : StartPc} {rebinds : Bool}
    (location : state.control thread = .start config pc rebinds) {ok : Bool}
    (succeeds : pc ≠ .check → ok = true)
    (stepTo : Lifecycle.startStep state thread ok forwards config rebinds pc = some next) :
    Kept broken next := by
  have holds := holds_of_location location trivial
  cases pc with
  | check =>
      have sound := kept.sound location trivial rfl
      have stepTo := of_withEngine stepTo
      cases found : state.shared.engine with
      | some engine =>
          rw [found] at stepTo
          exact kept.go holds stepTo sound rfl
      | none =>
          rw [found] at stepTo
          have empty : Slot.empty.Fits state.shared.engine := found
          exact kept.go holds stepTo (sound.look empty) rfl
  | flag =>
      have sound := kept.sound location trivial rfl
      simp only [Lifecycle.startStep] at stepTo
      split at stepTo
      · exact kept.go holds stepTo (sound.whole (by decide)) rfl
      · exact kept.go holds stepTo sound rfl
  | configure =>
      have sound := kept.sound location trivial rfl
      rw [succeeds (by decide)] at stepTo
      exact kept.go holds stepTo sound rfl
  | spawnNode =>
      have sound := kept.sound location trivial rfl
      rw [succeeds (by decide)] at stepTo
      exact kept.go holds stepTo sound.spawnNode rfl
  | await node =>
      have sound := kept.sound location trivial rfl
      obtain ⟨succeeded, answered⟩ := sound.answers node
      rw [succeeds nofun] at stepTo
      simp only [Lifecycle.startStep, if_true] at stepTo
      split at stepTo
      · exact kept.go holds stepTo sound rfl
      next failed => exact absurd failed succeeded
      next unanswered =>
        split at stepTo
        next ended =>
          have starting := answered (sound.untold node (.inr rfl)) unanswered
          exact absurd (ended.symm.trans starting) (by decide)
        next => cases stepTo
  | dup node =>
      have sound := kept.sound location trivial rfl
      rw [succeeds nofun] at stepTo
      exact kept.go holds stepTo sound.dup rfl
  | tell node => exact kept.elim location trivial rfl
  | join node failure => exact kept.elim location trivial rfl
  | forwarder node fd =>
      have sound := kept.sound location trivial rfl
      rw [succeeds nofun] at stepTo
      simp only [Lifecycle.startStep, if_true] at stepTo
      split at stepTo
      · exact kept.go holds stepTo sound rfl
      · exact kept.go holds stepTo sound rfl
  | bridge node fd forwarder io =>
      have sound := kept.sound location trivial rfl
      rw [succeeds nofun] at stepTo
      exact kept.go holds stepTo sound rfl
  | install node fd forwarder io =>
      have sound := kept.sound location trivial rfl
      have stepTo := of_withEngine stepTo
      have installed : Sound broken
          (state.shared.put (some ⟨config, node, some ⟨some io⟩, forwarder, fd⟩)) (.only .whole) :=
        sound.install (Option.some_ne_none _)
      exact kept.go holds stepTo installed rfl
  | closeFailed node fd failure => exact kept.elim location trivial rfl
  | abandon node fd failure => exact kept.elim location trivial rfl
  | unflag outcome =>
      cases outcome with
      | done =>
          have sound := kept.sound location trivial rfl
          exact kept.go holds stepTo sound rfl
      | alreadyRunning => exact kept.elim location trivial rfl
      | inProgress => exact kept.elim location trivial rfl
      | failed failure made => exact kept.elim location trivial rfl

theorem ioStep (kept : Kept broken state) {pc : IoPc} {fd : Nat} {user : IoUser}
    (location : state.control thread = .io pc fd user) {ok : Bool}
    (succeeds : (Control.io pc fd user).inStart = true → ok = true)
    (stepTo : Lifecycle.ioStep state thread ok fd user pc = some next) : Kept broken next := by
  have holds := holds_of_location location trivial
  cases user with
  | start config rebinds node forwarder =>
      rw [succeeds rfl] at stepTo
      cases pc with
      | wake =>
          have sound := kept.sound location trivial rfl
          exact kept.go holds stepTo sound rfl
      | reader =>
          have sound := kept.sound location trivial rfl
          exact kept.go holds stepTo (sound.spawnReader fd) rfl
      | writer io =>
          have sound := kept.sound location trivial rfl
          exact kept.go holds stepTo (sound.setIo io _) rfl
      | retire io => exact kept.elim location trivial rfl
  | swap config =>
      have sound := kept.sound location trivial (by cases pc <;> rfl)
      cases pc with
      | wake => exact kept.go holds stepTo sound (by cases ok <;> rfl)
      | reader =>
          cases ok with
          | true =>
              exact kept.go holds stepTo (sound.spawnReader fd) rfl
          | false => exact kept.go holds stepTo sound rfl
      | writer io =>
          cases ok with
          | true =>
              exact kept.go holds stepTo (sound.setIo io _) rfl
          | false => exact kept.go holds stepTo sound rfl
      | retire io =>
          simp only [Lifecycle.ioStep] at stepTo
          split at stepTo
          · cases stepTo
          · exact kept.go holds stepTo sound rfl

theorem stopStep (kept : Kept broken state) {pc : StopPc} {restart : Option String}
    (location : state.control thread = .stop pc restart) {ok : Bool}
    (stepTo : Lifecycle.stopStep state thread ok restart pc = some next) : Kept broken next := by
  have holds := holds_of_location location trivial
  have sound := kept.sound location trivial rfl
  cases pc with
  | take =>
      have stepTo := of_withEngine stepTo
      cases found : state.shared.engine with
      | none =>
          rw [found] at stepTo
          exact kept.go holds stepTo sound (by cases restart <;> rfl)
      | some engine =>
          rw [found] at stepTo
          exact kept.go holds stepTo (sound.take found) rfl
  | tell engine =>
      exact kept.go holds stepTo sound.tell rfl
  | joinPump engine =>
      simp only [Lifecycle.stopStep] at stepTo
      split at stepTo
      · exact kept.go holds stepTo sound rfl
      · split at stepTo
        · cases stepTo
        · exact kept.go holds stepTo sound rfl
  | joinForwarder engine => exact kept.go holds stepTo sound rfl
  | joinNode engine =>
      obtain ⟨ended, stepTo⟩ := Option.ite_none_right_eq_some.mp stepTo
      exact kept.go holds stepTo (sound.join ended) rfl
  | close engine =>
      have closed : Sound broken _ (.only .empty) := sound.close
      exact kept.go holds stepTo (closed.whole (by decide)) (by cases restart <;> rfl)

theorem swapStep (kept : Kept broken state) {pc : SwapPc} {config : String}
    (location : state.control thread = .swap pc config) {ok : Bool}
    (stepTo : Lifecycle.swapStep state thread ok config pc = some next) : Kept broken next := by
  have holds := holds_of_location location trivial
  have sound := kept.sound location trivial rfl
  cases pc with
  | dup =>
      cases ok with
      | true =>
          exact kept.go holds stepTo sound.dup rfl
      | false => exact kept.go holds stepTo (sound.whole (by decide)) rfl
  | takePump fd =>
      have stepTo := of_withEngine stepTo
      obtain ⟨⟨configJson, node, pump, forwarder, tunFd⟩, found, whole⟩ := sound.slot
      cases pump with
      | none => exact absurd rfl whole
      | some pump =>
          rw [found] at stepTo
          have without : Slot.out.Fits (some ⟨configJson, node, none, forwarder, tunFd⟩) :=
            ⟨_, rfl, rfl⟩
          exact kept.go holds stepTo (sound.setPump found none without) rfl
  | stopOld fd pump =>
      simp only [Lifecycle.swapStep] at stepTo
      split at stepTo
      · exact kept.go holds stepTo sound rfl
      · split at stepTo
        · exact kept.go holds stepTo sound rfl
        · split at stepTo
          · cases stepTo
          · exact kept.go holds stepTo sound rfl
  | putBack fd io swapped =>
      have stepTo := of_withEngine stepTo
      obtain ⟨engine, found, -⟩ := sound.slot
      rw [found] at stepTo
      have back : Slot.present.Fits (some { engine with pump := some ⟨io⟩ }) :=
        ⟨_, rfl, Option.some_ne_none _⟩
      exact kept.go holds stepTo (sound.setPump found (some ⟨io⟩) back) (by cases swapped <;> rfl)
  | replace fd =>
      obtain ⟨engine, found, -⟩ := sound.slot
      simp only [Lifecycle.swapStep, found] at stepTo
      exact kept.go holds stepTo (sound.replace found) rfl
  | closeOld old =>
      exact kept.go holds stepTo sound.close rfl
  | unlock => exact kept.go holds stepTo (sound.whole (by decide)) rfl
  | closeNew fd =>
      exact kept.go holds stepTo sound.close rfl
  | giveUp => exact kept.go holds stepTo (sound.whole (by decide)) rfl

theorem rebindStep (kept : Kept broken state) {config : Option String}
    (location : state.control thread = .rebind config)
    (stepTo : Lifecycle.rebindStep state thread config = some next) : Kept broken next := by
  have holds := holds_of_location location trivial
  have sound := kept.sound location trivial rfl
  have stepTo := of_withEngine stepTo
  cases found : state.shared.engine with
  | none =>
      rw [found] at stepTo
      exact kept.go holds stepTo sound rfl
  | some engine =>
      simp only [found] at stepTo
      have present : Slot.present.Fits state.shared.engine :=
        ⟨engine, found, sound.slot engine found⟩
      split at stepTo
      · exact kept.go holds stepTo (sound.look present) rfl
      · exact kept.go holds stepTo sound rfl

theorem bodies (kept : Kept broken state) {forwards : String → Bool} {ok : Bool}
    (succeeds : (state.control thread).inStart = true → ok = true) :
    Bodies forwards state next thread ok (Kept broken next) where
  rebind _ location := kept.rebindStep location
  start config pc rebinds location := by
    refine kept.startStep location fun notCheck => succeeds ?_
    rw [location]
    cases pc <;> first | rfl | exact absurd rfl notCheck
  io _ _ _ location := kept.ioStep location fun inStart => succeeds (location ▸ inStart)
  stop _ _ location := kept.stopStep location
  swap _ _ location := kept.swapStep location

/-- A change that keeps every view sound. -/
theorem fits_of_sound {shared changed : Shared}
    (sound : ∀ view, Sound broken shared view → Sound broken changed view) :
    (∀ control : Control, control.Fits broken shared → control.Fits broken changed) ∧
      (Sound broken shared (.only .whole) → Sound broken changed (.only .whole)) :=
  ⟨fun _ ⟨view, shows, before⟩ => ⟨view, shows, sound view before⟩, sound _⟩

theorem step (kept : Kept broken state) {forwards : String → Bool} {label : Label}
    (allowed : StartsSucceed state label)
    (breaks : ∀ node, label = .node node .breaks → broken node)
    (stepTo : Lifecycle.step forwards state label = some next) : Kept broken next := by
  refine Guarded.step kept ?_ ?_ ?_ ?_ ?_ stepTo
  · intro call resting
    exact ⟨_, by cases call <;> rfl, resting⟩
  · rintro outcome rebinds ⟨view, shows, sound⟩
    cases outcome with
    | failed failure made => cases shows
    | _ => exact Option.some.inj shows ▸ sound
  · rintro thread ok rfl
    exact kept.bodies allowed
  · rintro node move value rfl moved
    refine fits_of_sound fun view sound => sound.nodeStep moved allowed fun broke => ?_
    exact breaks node (by rw [broke])
  · intro io value
    exact fits_of_sound fun view sound => sound.setIo io value

/-- The nodes that broke are those the run says. -/
theorem run {forwards : String → Bool} {labels : List Label} {final : State}
    (run : Run (Lifecycle.step forwards) StartsSucceed Lifecycle.initial labels final) :
    Kept (fun node => .node node .breaks ∈ labels) final := by
  have kept : ∀ broken : Nat → Prop, (∀ node, .node node .breaks ∈ labels → broken node) →
      Kept broken final := by
    induction run with
    | nil => exact fun _ _ => initial
    | snoc run allowed stepTo ih =>
        intro broken breaks
        have before := ih broken fun node broke => breaks node (List.mem_append_left _ broke)
        refine before.step allowed (fun node broke => breaks node ?_) stepTo
        rw [broke]
        exact List.mem_append_right _ (List.mem_singleton_self _)
  exact kept _ fun _ => id

end Kept

/-- At most one node is alive, and every earlier one was joined; while
`LIFECYCLE` is free, an engine has its pump and its node is alive unless that
node's loop broke, there is no node without an engine, and the engine's
descriptor is the one that is open; no descriptor is closed twice, and none that
the engine has. -/
structure Accounted (broken : Nat → Prop) (state : State) : Prop where
  oneNode : ∀ first second, state.shared.Alive first → state.shared.Alive second → first = second
  afterJoin : ∀ node, node + 1 < state.shared.nextNode → (state.shared.nodes node).joined = true
  atRest : state.lifecycle = false →
    ((∃ node, state.shared.Alive node) → ∃ engine, state.shared.engine = some engine) ∧
    ∀ engine, state.shared.engine = some engine →
      engine.pump ≠ none ∧ (state.shared.Alive engine.node ∨ broken engine.node)
  unbroken : state.lifecycle = false → (∀ node, ¬broken node) →
    ((∃ engine, state.shared.engine = some engine) ↔ ∃ node, state.shared.Alive node)
  opened : state.lifecycle = false → ∀ fd,
    fd < state.shared.nextFd ∧ state.shared.closes fd = 0 ↔
      ∃ engine, state.shared.engine = some engine ∧ engine.tunFd = fd
  once : ∀ fd, state.shared.closes fd ≤ 1
  installed : ∀ engine, state.shared.engine = some engine → state.shared.closes engine.tunFd = 0
  unpanicked : ∀ thread, state.control thread ≠ .panicked

namespace Sound

variable {broken : Nat → Prop} {shared : Shared} {view : View}

theorem owns_of_unjoined (sound : Sound broken shared view) {node : Nat}
    (made : node < shared.nextNode) (unjoined : (shared.nodes node).joined = false) :
    OwnsNode shared.engine view node := by
  refine sound.nodes.kept node made ?_
  rw [Shared.joins, unjoined]
  rfl

theorem owns_of_alive (sound : Sound broken shared view) {node : Nat} (alive : shared.Alive node) :
    OwnsNode shared.engine view node := by
  have made : node < shared.nextNode :=
    Nat.lt_of_not_le fun atLeast => sound.unmade node atLeast alive
  have unjoined : (shared.nodes node).joined = false :=
    Bool.not_eq_true _ ▸ fun joined => sound.joined node joined alive
  exact sound.owns_of_unjoined made unjoined

theorem unique (sound : Sound broken shared view) {first second : Nat} (one : shared.Alive first)
    (other : shared.Alive second) : first = second := by
  have latest := sound.latest first (sound.owns_of_alive one)
  have same := sound.latest second (sound.owns_of_alive other)
  exact Nat.succ.inj (latest.trans same.symm)

theorem joined_of_lt (sound : Sound broken shared view) {node : Nat}
    (earlier : node + 1 < shared.nextNode) : (shared.nodes node).joined = true := by
  by_contra unjoined
  rw [Bool.not_eq_true] at unjoined
  have owns := sound.owns_of_unjoined (Nat.lt_of_succ_lt earlier) unjoined
  exact absurd (sound.latest node owns) (Nat.ne_of_lt earlier)

theorem alive_node (sound : Sound broken shared view) {engine : Engine}
    (found : shared.engine = some engine) : shared.Alive engine.node ∨ broken engine.node := by
  have untold := sound.untold engine.node (.inl (congrArg (Option.map Engine.node) found))
  refine (sound.serves engine.node untold).imp_left ?_
  rintro (starting | serving)
  · rw [Shared.Alive, starting]
    decide
  · rw [Shared.Alive, serving]
    decide

theorem closes_tunFd (sound : Sound broken shared view) {engine : Engine}
    (found : shared.engine = some engine) : shared.closes engine.tunFd = 0 :=
  sound.fds.out _ (.inl (congrArg (Option.map Engine.tunFd) found))

theorem engine_of_alive (sound : Sound broken shared (.only .whole)) {node : Nat}
    (alive : shared.Alive node) : ∃ engine, shared.engine = some engine := by
  rcases sound.owns_of_alive alive with installed | owed | owed
  · obtain ⟨engine, found, -⟩ := Option.map_eq_some_iff.mp installed
    exact ⟨engine, found⟩
  · cases owed
  · cases owed

theorem open_iff (sound : Sound broken shared (.only .whole)) (fd : Nat) :
    fd < shared.nextFd ∧ shared.closes fd = 0 ↔
      ∃ engine, shared.engine = some engine ∧ engine.tunFd = fd := by
  rw [← sound.fds.owned_iff fd, OwnsFd]
  simp [View.only]

end Sound

/-- Somebody answers for what is out, at any time. -/
theorem Kept.exists_view {broken : Nat → Prop} {state : State} (kept : Kept broken state) :
    ∃ view, Sound broken state.shared view := by
  cases taken : state.lifecycle with
  | false => exact ⟨_, kept.free taken⟩
  | true =>
      obtain ⟨thread, holds⟩ := kept.exclusive.taken_iff.mp taken
      obtain ⟨view, -, sound⟩ := kept.held thread holds
      exact ⟨view, sound⟩

/-- Whatever threads call the entry points in whatever order and whichever node
loops break, the accounts of nodes and descriptors are right at any time. -/
theorem lifecycle_accounts {forwards : String → Bool} {labels : List Label} {final : State}
    (run : Run (step forwards) StartsSucceed initial labels final) :
    Accounted (fun node => .node node .breaks ∈ labels) final := by
  have kept := Kept.run run
  obtain ⟨view, sound⟩ := kept.exists_view
  constructor
  case oneNode => exact fun _ _ => sound.unique
  case afterJoin => exact fun _ => sound.joined_of_lt
  case atRest =>
    intro free
    have resting := kept.free free
    refine ⟨fun ⟨_, alive⟩ => resting.engine_of_alive alive, fun engine found => ?_⟩
    exact ⟨resting.slot engine found, resting.alive_node found⟩
  case unbroken =>
    intro free unbroken
    have resting := kept.free free
    refine ⟨?_, fun ⟨_, alive⟩ => resting.engine_of_alive alive⟩
    rintro ⟨engine, found⟩
    exact ⟨engine.node, (resting.alive_node found).resolve_right (unbroken _)⟩
  case opened => exact fun free => (kept.free free).open_iff
  case once => exact sound.fds.once
  case installed => exact fun _ => sound.closes_tunFd
  case unpanicked => exact fun _ panicked => kept.elim panicked trivial rfl

private def moves (thread : Thread) (count : Nat) : List Label :=
  List.replicate count (.move thread true)

/-- A start; then a rebind whose new writer cannot be spawned, so that the node
is restarted. -/
private def swapFails : List Label :=
  List.flatten [[.call 0 (.start "a")], moves 0 5, [.node 0 .starts], moves 0 10,
    [.call 1 (.networkChanged none)], moves 1 4, [.read 2, .readerStops 0, .writerStops 0],
    moves 1 1, moves 2 1, moves 1 2, [.move 1 false, .readerStops 1], moves 1 8,
    [.node 0 .stops, .node 0 .ends], moves 1 6, [.node 1 .starts], moves 1 11]

theorem failed_swap_restarts : ∃ final,
    Run (step fun _ => false) StartsSucceed initial swapFails final ∧
      Accounted (fun node => .node node .breaks ∈ swapFails) final ∧
      final.control 1 = .idle ∧ final.shared.engine.map Engine.tunFd = some 2 ∧
      final.shared.closes 0 = 1 ∧ final.shared.closes 1 = 1 := by
  have passed : (execute (step fun _ => false) StartsSucceed initial swapFails).any
      (fun final => decide (final.control 1 = .idle ∧
        final.shared.engine.map Engine.tunFd = some 2 ∧
        final.shared.closes 0 = 1 ∧ final.shared.closes 1 = 1)) = true := by decide +kernel
  obtain ⟨final, run, idle, installed⟩ := exists_run_of_execute _ passed
  exact ⟨final, run, lifecycle_accounts run, idle, installed⟩

/-- A start, after which the node's receive loop ends with an error. -/
private def nodeBreaks : List Label :=
  List.flatten [[.call 0 (.start "a")], moves 0 5, [.node 0 .starts], moves 0 10,
    [.node 0 .breaks, .node 0 .ends]]

/-- Nobody takes the engine of a node that broke out of its slot. -/
theorem broken_node_leaves_engine : ∃ final,
    Run (step fun _ => false) StartsSucceed initial nodeBreaks final ∧
      final.lifecycle = false ∧
      ¬ ((∃ engine, final.shared.engine = some engine) ↔ ∃ node, final.shared.Alive node) := by
  have passed : (execute (step fun _ => false) StartsSucceed initial nodeBreaks).any
      (fun final => decide (final.lifecycle = false ∧ final.shared.engine.isSome = true ∧
        final.shared.nextNode = 1 ∧ ¬final.shared.Alive 0)) = true := by decide +kernel
  obtain ⟨final, run, free, installed, only, ended⟩ := exists_run_of_execute _ passed
  refine ⟨final, run, free, fun same => ?_⟩
  obtain ⟨node, alive⟩ := same.mp (Option.isSome_iff_exists.mp installed)
  by_cases first : node = 0
  · exact ended (first ▸ alive)
  · have unmade : final.shared.nextNode ≤ node := by omega
    exact ((Kept.run run).free free).unmade node unmade alive

end Fips2Go.Lifecycle
