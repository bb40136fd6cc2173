import Fips2Go.DivertFlows
import Fips2Go.MeshRelay
import Fips2Go.WorkerPlaces

/-!
# The connections of a relay listener

`accept_loop`, `read_head` and the frame of `pipe` of `shim/src/meshtcp.rs`: the
thread that accepts loopback connections and one thread for each of them, which
count themselves in and out of one counter while the proxy is dropped, the engine
stops and other requests open and drop flows of the tap.  What a pipe carries
while its flow is open is the subject of `MeshTcp`.
-/

namespace Fips2Go.MeshRelay.Listener

open GuardedRuns Bytes WorkerPlaces
open MeshHttp (FlowGuard Tap)

def maxConnections : Nat := 4
def maxHead : Nat := 8 * 1024

/-- The most that one `read` yields. -/
def readSize : Nat := 1024

/-- Where the thread of a connection stands. -/
inductive Connection where
  | spawned
  | reading (head : Bytes)
  | admitted (head first : Bytes)
  | carrying (head first : Bytes) (flow : FlowGuard)
  | returned
  | ended
  deriving DecidableEq

/-- Where the accepting thread stands.  `accepted` has not looked at the flags yet,
`counted` tells whether the counter was at its limit. -/
inductive Loop where
  | accepting
  | accepted (connected : Bool)
  | connecting
  | counted (full : Bool)
  | unspawned
  | sleeping
  | ended
  deriving DecidableEq

/-- The relay that the listener serves, and the node's own address. -/
structure Served where
  addr : MeshHttp.Addr
  port : UInt16
  path : Utf8Text.Text
  token : Utf8Text.Text
  ourAddr : MeshHttp.Addr

structure Proxy where
  stop : Bool
  running : Bool
  active : Nat
  loop : Loop
  connections : List Connection
  tap : Tap

/-- What a connection's thread does next. -/
inductive Move where
  | begin
  | read (received : Option Bytes)
  | headRead (timeoutCleared : Bool)
  | openFlow (random : UInt64)
  | finish
  | countOut

inductive Act where
  | dropProxy
  | engineStops
  | accept (connected : Bool)
  | look
  | count
  | refuse
  | spawn (spawned : Bool)
  | countOut
  | wake
  | connection (index : Nat) (move : Move)
  | others (op : MeshHttp.Op)

def headEnded (head : Bytes) : Bool := (windowPosition blankLine head).isSome

def Proxy.at (proxy : Proxy) (index : Nat) (connection : Connection) : Proxy :=
  { proxy with connections := proxy.connections.set index connection }

section Relay

variable (relay : Served)

/-- One step of `read_head`: a head that is too long is given up, and so is one
where the read fails or ends. -/
def readOnce (head : Bytes) (received : Option Bytes) : Option Connection :=
  if headEnded head then none
  else if head.length > maxHead then some .returned
  else
    match received with
    | none | some [] => some .returned
    | some bytes =>
        if bytes.length ≤ readSize then some (.reading (head ++ bytes)) else none

/-- The end of `read_head`, and the token. -/
def admitOnce (head : Bytes) (timeoutCleared : Bool) : Option Connection :=
  if headEnded head then
    match admitHead head relay.token relay.path with
    | some first => some (if timeoutCleared then .admitted head first else .returned)
    | none => some .returned
  else none

/-- A move of the thread that stands at a place. -/
def Proxy.move (proxy : Proxy) (index : Nat) : Connection → Move → Option Proxy
  | .spawned, .begin =>
      some (proxy.at index (if relay.addr = relay.ourAddr then .returned else .reading []))
  | .reading head, .read received => (readOnce head received).map (proxy.at index)
  | .reading head, .headRead timeoutCleared =>
      (admitOnce relay head timeoutCleared).map (proxy.at index)
  | .admitted head first, .openFlow random =>
      match proxy.tap.open relay.addr relay.port random with
      | (tap, none) => some ({ proxy with tap }.at index .returned)
      | (tap, some flow) => some ({ proxy with tap }.at index (.carrying head first flow))
  | .carrying _ _ flow, .finish =>
      some ({ proxy with tap := proxy.tap.drop flow }.at index .returned)
  | .returned, .countOut => some ({ proxy with active := proxy.active - 1 }.at index .ended)
  | _, _ => none

def Connection.flow : Connection → Option FlowGuard
  | .carrying _ _ flow => some flow
  | _ => none

/-- A guard is dropped by whoever opened the flow. -/
def Proxy.mayDo (proxy : Proxy) : MeshHttp.Op → Bool
  | .drop guard => ∀ connection ∈ proxy.connections, connection.flow ≠ some guard
  | _ => true

def step (proxy : Proxy) : Act → Option Proxy
  | .dropProxy => some { proxy with stop := true }
  | .engineStops => some { proxy with running := false }
  | .accept connected =>
      if proxy.loop = .accepting then some { proxy with loop := .accepted connected } else none
  | .look =>
      match proxy.loop with
      | .accepted connected =>
          some { proxy with
            loop :=
              if proxy.stop ∨ proxy.running = false then .ended
              else if connected then .connecting
              else .sleeping }
      | _ => none
  | .count =>
      if proxy.loop = .connecting then
        some { proxy with
          loop := .counted (proxy.active ≥ maxConnections)
          active := proxy.active + 1 }
      else none
  | .refuse =>
      if proxy.loop = .counted true then
        some { proxy with loop := .accepting, active := proxy.active - 1 }
      else none
  | .spawn spawned =>
      if proxy.loop = .counted false then
        some (if spawned then
          { proxy with loop := .accepting, connections := proxy.connections ++ [.spawned] }
        else { proxy with loop := .unspawned })
      else none
  | .countOut =>
      if proxy.loop = .unspawned then
        some { proxy with loop := .accepting, active := proxy.active - 1 }
      else none
  | .wake => if proxy.loop = .sleeping then some { proxy with loop := .accepting } else none
  | .connection index move =>
      match proxy.connections[index]? with
      | some connection => proxy.move relay index connection move
      | none => none
  | .others op =>
      if proxy.mayDo op then
        match MeshHttp.step proxy.tap op with
        | some tap => some { proxy with tap }
        | none => none
      else none

end Relay

/-- A listener that has just been started. -/
def Proxy.started (tap : Tap) : Proxy where
  stop := false
  running := true
  active := 0
  loop := .accepting
  connections := []
  tap := tap

/-! ### What holds at every moment -/

/-- A connection from its spawning until its thread counts itself out. -/
def Connection.counts : Connection → Bool
  | .ended => false
  | _ => true

/-- The accepting thread has counted a connection in that nobody else counts. -/
def Loop.share : Loop → Nat
  | .counted _ | .unspawned => 1
  | _ => 0

def Proxy.live (proxy : Proxy) : Nat := proxy.connections.countP Connection.counts

/-- The head was read within its bound, and what is passed on of it was admitted. -/
structure Admitted (relay : Served) (head first : Bytes) : Prop where
  short : head.length ≤ maxHead + readSize
  token : admitHead head relay.token relay.path = some first

/-- What a connection's place says of what it has read. -/
def Connection.Legal (relay : Served) : Connection → Prop
  | .reading head => relay.addr ≠ relay.ourAddr ∧ head.length ≤ maxHead + readSize
  | .admitted head first => relay.addr ≠ relay.ourAddr ∧ Admitted relay head first
  | .carrying head first flow => relay.addr ≠ relay.ourAddr ∧ Admitted relay head first ∧
      flow.key.1 = relay.addr ∧ flow.key.2.1 = relay.port
  | .spawned | .returned | .ended => True

structure Sound (relay : Served) (proxy : Proxy) : Prop where
  counted : proxy.active = proxy.loop.share + proxy.live
  room : proxy.loop = .counted false → proxy.live < maxConnections
  bounded : proxy.live ≤ maxConnections
  legal : ∀ connection ∈ proxy.connections, connection.Legal relay
  sole : Sole Connection.flow proxy.connections
  flows : ∀ connection ∈ proxy.connections, ∀ flow, connection.flow = some flow →
    flow ∈ proxy.tap.guards
  coherent : MeshHttp.Coherent proxy.tap

variable {relay : Served} {proxy next : Proxy} {index : Nat} {before after : Connection}

theorem Sound.started {tap : Tap} (coherent : MeshHttp.Coherent tap) :
    Sound relay (Proxy.started tap) where
  counted := rfl
  room := nofun
  bounded := Nat.zero_le _
  legal := by simp [Proxy.started]
  sole := Sole.nil
  flows := by simp [Proxy.started]
  coherent := coherent

/-- A connection moves that keeps counting and owns no other flow than before. -/
theorem Sound.at (sound : Sound relay proxy) (found : proxy.connections[index]? = some before)
    (counts : after.counts = before.counts) (legal : after.Legal relay)
    (flow : ∀ flow, after.flow = some flow → before.flow = some flow) :
    Sound relay (proxy.at index after) := by
  have live : (proxy.at index after).live = proxy.live := shares_stay found counts
  refine ⟨?_, ?_, ?_, forall_set sound.legal legal, ?_, ?_, sound.coherent⟩
  · rw [live]
    exact sound.counted
  · rw [live]
    exact sound.room
  · rw [live]
    exact sound.bounded
  · exact sound.sole.set found fun owned owns => .inl (flow owned owns)
  · refine forall_set sound.flows fun owned owns => ?_
    exact sound.flows before (List.mem_of_getElem? found) owned (flow owned owns)

theorem readOnce_spec {head : Bytes} {received : Option Bytes}
    (reads : readOnce head received = some after) :
    after = .returned ∨ ∃ bytes, head.length ≤ maxHead ∧ bytes.length ≤ readSize ∧
      after = .reading (head ++ bytes) := by
  unfold readOnce at reads
  split at reads
  · cases reads
  split at reads
  · exact .inl (Option.some.inj reads).symm
  next short =>
    split at reads
    · exact .inl (Option.some.inj reads).symm
    · exact .inl (Option.some.inj reads).symm
    next bytes _ =>
      split at reads
      next fits => exact .inr ⟨bytes, Nat.le_of_not_lt short, fits, (Option.some.inj reads).symm⟩
      next => cases reads

theorem admitOnce_spec {head : Bytes} {timeoutCleared : Bool}
    (admits : admitOnce relay head timeoutCleared = some after) :
    after = .returned ∨ ∃ first, admitHead head relay.token relay.path = some first ∧
      after = .admitted head first := by
  unfold admitOnce at admits
  split at admits
  next =>
    cases token : admitHead head relay.token relay.path with
    | none =>
        rw [token] at admits
        exact .inl (Option.some.inj admits).symm
    | some first =>
        rw [token] at admits
        cases timeoutCleared with
        | false => exact .inl (Option.some.inj admits).symm
        | true => exact .inr ⟨first, rfl, (Option.some.inj admits).symm⟩
  next => cases admits

/-- The flow that is dropped was the only one's. -/
theorem Sound.finish (sound : Sound relay proxy) {head first : Bytes} {flow : FlowGuard}
    (found : proxy.connections[index]? = some (.carrying head first flow)) :
    Sound relay ({ proxy with tap := proxy.tap.drop flow }.at index .returned) := by
  have owns : flow ∈ proxy.tap.guards :=
    sound.flows _ (List.mem_of_getElem? found) flow rfl
  have placed : Sound relay (proxy.at index .returned) := sound.at found rfl trivial nofun
  refine ⟨placed.counted, placed.room, placed.bounded, placed.legal, placed.sole, ?_,
    sound.coherent.dropGuard owns⟩
  intro connection member other holds
  have alive := placed.flows connection member other holds
  have distinct : other ≠ flow := by
    rintro rfl
    obtain ⟨place, stands⟩ := List.mem_iff_getElem?.mp member
    by_cases same : place = index
    · subst same
      rw [Proxy.at, List.getElem?_set_self (lt_of_found found), Option.some.injEq] at stands
      subst stands
      cases holds
    · rw [Proxy.at, List.getElem?_set_ne (Ne.symm same)] at stands
      refine same (sound.sole place index other ?_ ?_)
      · rw [stands]
        exact holds
      · rw [found]
        rfl
  exact (List.mem_erase_of_ne distinct).mpr alive

/-- What opening a flow does to the guards. -/
theorem openFlow_spec {tap opened : Tap} (coherent : MeshHttp.Coherent tap)
    {remote : MeshHttp.Addr} {remotePort : UInt16} {random : UInt64} {flow : Option FlowGuard}
    (opens : tap.open remote remotePort random = (opened, flow)) :
    MeshHttp.Coherent opened ∧ (flow = none → opened.guards = tap.guards) ∧
      ∀ guard, flow = some guard → opened.guards = guard :: tap.guards ∧
        guard ∉ tap.guards ∧ guard.key.1 = remote ∧ guard.key.2.1 = remotePort := by
  have keeps := coherent.openFlow remote remotePort random
  rw [opens] at keeps
  refine ⟨keeps, ?_, ?_⟩
  · rintro rfl
    unfold Tap.open at opens
    split at opens
    · cases opens
      rfl
    · cases opens
  · rintro guard rfl
    unfold Tap.open at opens
    split at opens
    · cases opens
    · cases opens
      exact ⟨rfl, fun old => Nat.lt_irrefl _ (coherent.numbered _ old), rfl, rfl⟩

/-- No local port is left for a connection. -/
theorem Sound.flowRefused (sound : Sound relay proxy) {head first : Bytes}
    (found : proxy.connections[index]? = some (.admitted head first)) {random : UInt64} {tap : Tap}
    (opens : proxy.tap.open relay.addr relay.port random = (tap, none)) :
    Sound relay ({ proxy with tap }.at index .returned) := by
  obtain ⟨coherent, unchanged, -⟩ := openFlow_spec sound.coherent opens
  have placed : Sound relay (proxy.at index .returned) := sound.at found rfl trivial nofun
  refine ⟨placed.counted, placed.room, placed.bounded, placed.legal, placed.sole, ?_, coherent⟩
  intro connection member owned owns
  simp only [Proxy.at, unchanged rfl]
  exact placed.flows connection member owned owns

/-- A connection opens the flow that it is going to carry. -/
theorem Sound.flowOpened (sound : Sound relay proxy) {head first : Bytes}
    (found : proxy.connections[index]? = some (.admitted head first)) {random : UInt64} {tap : Tap}
    {guard : FlowGuard}
    (opens : proxy.tap.open relay.addr relay.port random = (tap, some guard)) :
    Sound relay ({ proxy with tap }.at index (.carrying head first guard)) := by
  obtain ⟨foreign, admitted⟩ := sound.legal _ (List.mem_of_getElem? found)
  obtain ⟨coherent, -, added⟩ := openFlow_spec sound.coherent opens
  obtain ⟨guards, fresh, addr, port⟩ := added guard rfl
  have live : (proxy.connections.set index (.carrying head first guard)).countP
      Connection.counts = proxy.live := shares_stay found rfl
  refine ⟨?_, ?_, ?_, ?_, ?_, ?_, coherent⟩
  · exact sound.counted.trans (congrArg (proxy.loop.share + ·) live.symm)
  · exact fun counted => live.trans_lt (sound.room counted)
  · exact live.trans_le sound.bounded
  · exact forall_set sound.legal ⟨foreign, admitted, addr, port⟩
  · refine sound.sole.set found ?_
    rintro owned ⟨⟩
    exact .inr fun place member owns => fresh (sound.flows place member _ owns)
  · simp only [Proxy.at, guards]
    refine forall_set ?_ ?_
    · exact fun place member owned owns =>
        List.mem_cons_of_mem _ (sound.flows place member owned owns)
    · rintro owned ⟨⟩
      exact List.mem_cons_self

/-- A connection counts itself out. -/
theorem Sound.countOut (sound : Sound relay proxy)
    (found : proxy.connections[index]? = some .returned) :
    Sound relay ({ proxy with active := proxy.active - 1 }.at index .ended) := by
  have less : ({ proxy with active := proxy.active - 1 }.at index .ended).live + 1 = proxy.live :=
    shares_giveBack found rfl rfl
  have counted := sound.counted
  refine ⟨?_, ?_, ?_, forall_set sound.legal trivial, sound.sole.set found nofun,
    forall_set sound.flows nofun, sound.coherent⟩
  · change proxy.active - 1 = proxy.loop.share + _
    omega
  · intro stands
    have room := sound.room stands
    omega
  · have bounded := sound.bounded
    omega

theorem Sound.move (sound : Sound relay proxy)
    (found : proxy.connections[index]? = some before) {move : Move}
    (moves : proxy.move relay index before move = some next) : Sound relay next := by
  have legal := sound.legal before (List.mem_of_getElem? found)
  unfold Proxy.move at moves
  split at moves
  next =>
    cases moves
    by_cases own : relay.addr = relay.ourAddr
    · rw [if_pos own]
      exact sound.at found rfl trivial nofun
    · rw [if_neg own]
      exact sound.at found rfl ⟨own, Nat.zero_le _⟩ nofun
  next head received =>
    obtain ⟨after, reads, rfl⟩ := Option.map_eq_some_iff.mp moves
    rcases readOnce_spec reads with rfl | ⟨bytes, short, fits, rfl⟩
    · exact sound.at found rfl trivial nofun
    · refine sound.at found rfl ⟨legal.1, ?_⟩ nofun
      rw [List.length_append]
      omega
  next head timeoutCleared =>
    obtain ⟨after, admits, rfl⟩ := Option.map_eq_some_iff.mp moves
    rcases admitOnce_spec admits with rfl | ⟨first, token, rfl⟩
    · exact sound.at found rfl trivial nofun
    · exact sound.at found rfl ⟨legal.1, legal.2, token⟩ nofun
  next head first random =>
    split at moves
    next tap opens =>
      cases moves
      exact sound.flowRefused found opens
    next tap flow opens =>
      cases moves
      exact sound.flowOpened found opens
  next head first flow =>
    cases moves
    exact sound.finish found
  next =>
    cases moves
    exact sound.countOut found
  next => cases moves

/-- Other requests open and drop their own flows. -/
theorem Sound.others (sound : Sound relay proxy) {op : MeshHttp.Op} (may : proxy.mayDo op = true)
    {tap : Tap} (stepTo : MeshHttp.step proxy.tap op = some tap) :
    Sound relay { proxy with tap } := by
  refine { sound with flows := ?_, coherent := sound.coherent.step stepTo }
  intro connection member owned owns
  have alive := sound.flows connection member owned owns
  cases op with
  | «open» remote remotePort random =>
      obtain rfl := Option.some.inj stepTo
      rcases opens : proxy.tap.open remote remotePort random with ⟨opened, flow⟩
      obtain ⟨-, unchanged, added⟩ := openFlow_spec sound.coherent opens
      cases flow with
      | none => exact (unchanged rfl).symm ▸ alive
      | some guard => exact (added guard rfl).1.symm ▸ List.mem_cons_of_mem _ alive
  | drop guard =>
      simp only [MeshHttp.step] at stepTo
      split at stepTo
      · cases stepTo
        have distinct : owned ≠ guard := by
          rintro rfl
          simp only [Proxy.mayDo, decide_eq_true_eq] at may
          exact may connection member owns
        exact (List.mem_erase_of_ne distinct).mpr alive
      · cases stepTo
  | claim packet =>
      cases stepTo
      unfold Tap.claim
      split <;> exact alive

/-- The accepting thread moves, or somebody sets a flag. -/
theorem Sound.loop (sound : Sound relay proxy) {stop running : Bool} {active : Nat} {loop : Loop}
    (counted : active = loop.share + proxy.live)
    (room : loop = .counted false → proxy.live < maxConnections) :
    Sound relay { proxy with stop, running, active, loop } :=
  ⟨counted, room, sound.bounded, sound.legal, sound.sole, sound.flows, sound.coherent⟩

/-- The accepting thread hands its count over to a new connection. -/
theorem Sound.spawn (sound : Sound relay proxy) (stands : proxy.loop = .counted false) :
    Sound relay { proxy with
      loop := .accepting, connections := proxy.connections ++ [.spawned] } := by
  have live : (proxy.connections ++ [Connection.spawned]).countP Connection.counts =
      proxy.live + 1 := shares_append _
  have counted := sound.counted
  rw [stands] at counted
  refine ⟨?_, nofun, ?_, forall_append sound.legal trivial, sound.sole.append rfl,
    forall_append sound.flows nofun, sound.coherent⟩
  · simp only [Proxy.live, live]
    exact counted.trans ((Nat.add_comm 1 _).trans (Nat.zero_add _).symm)
  · simp only [Proxy.live, live]
    exact sound.room stands

theorem Sound.step (sound : Sound relay proxy) {act : Act}
    (stepTo : step relay proxy act = some next) : Sound relay next := by
  have counted := sound.counted
  have back : 1 + proxy.live - 1 = 0 + proxy.live := by omega
  cases act with
  | dropProxy =>
      cases stepTo
      exact sound.loop counted sound.room
  | engineStops =>
      cases stepTo
      exact sound.loop counted sound.room
  | accept connected =>
      obtain ⟨stands, ⟨⟩⟩ := Option.ite_none_right_eq_some.mp stepTo
      rw [stands] at counted
      exact sound.loop counted nofun
  | look =>
      simp only [Listener.step] at stepTo
      split at stepTo
      next connected stands =>
        cases stepTo
        rw [stands] at counted
        split_ifs <;> exact sound.loop counted nofun
      next => cases stepTo
  | count =>
      obtain ⟨stands, ⟨⟩⟩ := Option.ite_none_right_eq_some.mp stepTo
      rw [stands] at counted
      have active : proxy.active = proxy.live := counted.trans (Nat.zero_add _)
      refine sound.loop ?_ ?_
      · rw [active]
        exact Nat.add_comm _ 1
      · intro notFull
        rw [Loop.counted.injEq, decide_eq_false_iff_not, active] at notFull
        exact Nat.lt_of_not_le notFull
  | refuse =>
      obtain ⟨stands, ⟨⟩⟩ := Option.ite_none_right_eq_some.mp stepTo
      rw [stands] at counted
      exact sound.loop (counted ▸ back) nofun
  | spawn spawned =>
      obtain ⟨stands, ⟨⟩⟩ := Option.ite_none_right_eq_some.mp stepTo
      cases spawned with
      | false =>
          rw [stands] at counted
          exact sound.loop counted nofun
      | true => exact sound.spawn stands
  | countOut =>
      obtain ⟨stands, ⟨⟩⟩ := Option.ite_none_right_eq_some.mp stepTo
      rw [stands] at counted
      exact sound.loop (counted ▸ back) nofun
  | wake =>
      obtain ⟨stands, ⟨⟩⟩ := Option.ite_none_right_eq_some.mp stepTo
      rw [stands] at counted
      exact sound.loop counted nofun
  | connection index move =>
      simp only [Listener.step] at stepTo
      split at stepTo
      next connection found => exact sound.move found stepTo
      next => cases stepTo
  | others op =>
      simp only [Listener.step] at stepTo
      split at stepTo
      next may =>
        split at stepTo
        next tap steps =>
          cases stepTo
          exact sound.others may steps
        next => cases stepTo
      next => cases stepTo

/-! ### Whole runs -/

theorem sound_of_run {tap : Tap} (coherent : MeshHttp.Coherent tap) {acts : List Act}
    (run : Run (step relay) anyStep (Proxy.started tap) acts proxy) : Sound relay proxy :=
  run.invariant (.started coherent) fun _ _ _ sound _ stepTo => sound.step stepTo

/-- The counter was at its limit. -/
theorem Sound.full_iff (sound : Sound relay proxy)
    (counts : Listener.step relay proxy .count = some next) :
    next.loop = .counted true ↔ proxy.live = maxConnections := by
  obtain ⟨stands, ⟨⟩⟩ := Option.ite_none_right_eq_some.mp counts
  have counted := sound.counted
  have bounded := sound.bounded
  rw [stands] at counted
  have active : proxy.active = proxy.live := counted.trans (Nat.zero_add _)
  rw [Loop.counted.injEq, decide_eq_true_eq, active]
  omega

theorem Sound.carrying (sound : Sound relay proxy) {head first : Bytes} {flow : FlowGuard}
    (found : proxy.connections[index]? = some (.carrying head first flow)) :
    Connection.Legal relay (.carrying head first flow) ∧ flow ∈ proxy.tap.guards :=
  ⟨sound.legal _ (List.mem_of_getElem? found),
    sound.flows _ (List.mem_of_getElem? found) flow rfl⟩

/-- In every interleaving the counter counts the connections and the one that is
being taken in, no more than four are carried on, and one is refused only while
there are four.  What a pipe carries was asked for with the token, in a head of
bounded length, and each pipe has a flow to the relay of its own. -/
theorem connections_are_counted {tap : Tap} (coherent : MeshHttp.Coherent tap) {acts : List Act}
    (run : Run (step relay) anyStep (Proxy.started tap) acts proxy) :
    proxy.active = proxy.loop.share + proxy.live ∧ proxy.live ≤ maxConnections ∧
      (∀ next, step relay proxy .count = some next →
        (next.loop = .counted true ↔ proxy.live = maxConnections)) ∧
      ∀ (index : Nat) (head first : Bytes) (flow : FlowGuard),
        proxy.connections[index]? = some (.carrying head first flow) →
        head.length ≤ maxHead + readSize ∧
          (∃ rest tail, Requests relay.token head rest tail ∧
            first = Utf8Text.encode (requestLine (relayTarget relay.path rest) ++
              "\r\n".toList) ++ tail) ∧
          (relay.addr ≠ relay.ourAddr ∧ flow.key.1 = relay.addr ∧ flow.key.2.1 = relay.port) ∧
          flow ∈ proxy.tap.guards ∧
          ∀ (other : Nat) (head' first' : Bytes) (flow' : FlowGuard),
            proxy.connections[other]? = some (.carrying head' first' flow') →
            flow.key = flow'.key → index = other := by
  have sound := sound_of_run coherent run
  refine ⟨sound.counted, sound.bounded, fun next counts => sound.full_iff counts, ?_⟩
  intro index head first flow found
  obtain ⟨⟨foreign, admitted, addr, port⟩, alive⟩ := sound.carrying found
  refine ⟨admitted.short, admitHead_eq_some_iff.mp admitted.token, ⟨foreign, addr, port⟩, alive, ?_⟩
  intro other head' first' flow' found' same
  obtain rfl := sound.coherent.keys alive (sound.carrying found').2 same
  refine sound.sole index other flow ?_ ?_
  · rw [found]
    rfl
  · rw [found']
    rfl

/-- The accepting thread is about to spawn a connection. -/
def Loop.pending : Loop → Nat
  | .connecting | .counted false => 1
  | _ => 0

def Proxy.Halted (proxy : Proxy) : Prop := proxy.stop = true ∨ proxy.running = false

theorem Connection.move_length {move : Move}
    (moves : proxy.move relay index before move = some next) :
    next.connections.length = proxy.connections.length ∧ next.loop = proxy.loop ∧
      next.stop = proxy.stop ∧ next.running = proxy.running := by
  unfold Proxy.move at moves
  split at moves
  next =>
    cases moves
    exact ⟨List.length_set, rfl, rfl, rfl⟩
  next =>
    obtain ⟨after, -, rfl⟩ := Option.map_eq_some_iff.mp moves
    exact ⟨List.length_set, rfl, rfl, rfl⟩
  next =>
    obtain ⟨after, -, rfl⟩ := Option.map_eq_some_iff.mp moves
    exact ⟨List.length_set, rfl, rfl, rfl⟩
  next =>
    split at moves <;> cases moves <;> exact ⟨List.length_set, rfl, rfl, rfl⟩
  next =>
    cases moves
    exact ⟨List.length_set, rfl, rfl, rfl⟩
  next =>
    cases moves
    exact ⟨List.length_set, rfl, rfl, rfl⟩
  next => cases moves

/-- A halted listener stays so, and only the connection that it was about to
spawn adds to the others. -/
theorem Proxy.Halted.step (halted : proxy.Halted) {act : Act}
    (stepTo : step relay proxy act = some next) :
    next.Halted ∧ next.connections.length + next.loop.pending ≤
      proxy.connections.length + proxy.loop.pending := by
  cases act with
  | dropProxy =>
      cases stepTo
      exact ⟨.inl rfl, Nat.le_refl _⟩
  | engineStops =>
      cases stepTo
      exact ⟨.inr rfl, Nat.le_refl _⟩
  | accept connected =>
      obtain ⟨stands, ⟨⟩⟩ := Option.ite_none_right_eq_some.mp stepTo
      exact ⟨halted, Nat.add_le_add_left (Nat.zero_le _) _⟩
  | look =>
      simp only [Listener.step] at stepTo
      split at stepTo
      next connected stands =>
        cases stepTo
        refine ⟨halted, ?_⟩
        simp only [if_pos (show proxy.stop = true ∨ proxy.running = false from halted)]
        exact Nat.add_le_add_left (Nat.zero_le _) _
      next => cases stepTo
  | count =>
      obtain ⟨stands, ⟨⟩⟩ := Option.ite_none_right_eq_some.mp stepTo
      refine ⟨halted, Nat.add_le_add_left ?_ _⟩
      rw [stands]
      simp only
      generalize decide (proxy.active ≥ maxConnections) = full
      cases full
      · exact Nat.le_refl 1
      · exact Nat.zero_le 1
  | refuse =>
      obtain ⟨stands, ⟨⟩⟩ := Option.ite_none_right_eq_some.mp stepTo
      exact ⟨halted, Nat.add_le_add_left (Nat.zero_le _) _⟩
  | spawn spawned =>
      obtain ⟨stands, ⟨⟩⟩ := Option.ite_none_right_eq_some.mp stepTo
      cases spawned with
      | false => exact ⟨halted, Nat.add_le_add_left (Nat.zero_le _) _⟩
      | true =>
          refine ⟨halted, ?_⟩
          rw [stands]
          exact (List.length_append.trans rfl).le
  | countOut =>
      obtain ⟨stands, ⟨⟩⟩ := Option.ite_none_right_eq_some.mp stepTo
      exact ⟨halted, Nat.add_le_add_left (Nat.zero_le _) _⟩
  | wake =>
      obtain ⟨stands, ⟨⟩⟩ := Option.ite_none_right_eq_some.mp stepTo
      exact ⟨halted, Nat.add_le_add_left (Nat.zero_le _) _⟩
  | connection index move =>
      simp only [Listener.step] at stepTo
      split at stepTo
      next connection found =>
        obtain ⟨length, loop, stop, running⟩ := Connection.move_length stepTo
        rw [length, loop]
        refine ⟨?_, Nat.le_refl _⟩
        rw [Proxy.Halted, stop, running]
        exact halted
      next => cases stepTo
  | others op =>
      simp only [Listener.step] at stepTo
      split at stepTo
      next =>
        split at stepTo
        next tap steps =>
          cases stepTo
          exact ⟨halted, Nat.le_refl _⟩
        next => cases stepTo
      next => cases stepTo

/-- Once the proxy is dropped or the engine has stopped, no connection is taken in
but the one that had passed the flags, and the next look at them ends the listener. -/
theorem halted_listener_takes_no_more {start : Proxy} (halted : start.Halted) {acts : List Act}
    (run : Run (step relay) anyStep start acts proxy) :
    proxy.connections.length ≤ start.connections.length + start.loop.pending ∧
      ∀ next, step relay proxy .look = some next → next.loop = .ended := by
  have kept : proxy.Halted ∧ proxy.connections.length + proxy.loop.pending ≤
      start.connections.length + start.loop.pending := by
    induction run with
    | nil => exact ⟨halted, Nat.le_refl _⟩
    | snoc run allowed stepTo ih =>
        obtain ⟨still, fewer⟩ := ih.1.step stepTo
        exact ⟨still, fewer.trans ih.2⟩
  refine ⟨by omega, fun next looks => ?_⟩
  simp only [step] at looks
  split at looks
  · cases looks
    exact if_pos kept.1
  · cases looks

/-! ### A client with the token -/

private def exampleRelay : Served where
  addr := ⟨0xfd :: List.replicate 15 21, rfl⟩
  port := 7777
  path := "/nostr".toList
  token := "5eed".toList
  ourAddr := ⟨0xfd :: List.replicate 15 22, rfl⟩

private def exampleHead : Bytes := Utf8Text.encode "GET /5eed/nostr HTTP/1.1\r\n\r\n".toList

private def exampleFirst : Bytes := Utf8Text.encode "GET /nostr HTTP/1.1\r\n\r\n".toList

private def exampleFlow : FlowGuard := ⟨(exampleRelay.addr, 7777, 61000), 0⟩

private def exampleActs : List Act :=
  [.accept true, .look, .count, .spawn true, .connection 0 .begin,
    .connection 0 (.read (some exampleHead)), .connection 0 (.headRead true),
    .connection 0 (.openFlow 0)]

/-- The one client is counted, and its flow leads to the relay. -/
theorem client_with_token_is_carried : ∃ proxy,
    Run (step exampleRelay) anyStep (Proxy.started MeshHttp.initial) exampleActs proxy ∧
      proxy.connections = [.carrying exampleHead exampleFirst exampleFlow] ∧
      proxy.live = 1 ∧ proxy.active = 1 ∧ exampleFlow.key.1 = exampleRelay.addr := by
  obtain ⟨proxy, run, connections, loop⟩ : ∃ proxy,
      Run (step exampleRelay) anyStep (Proxy.started MeshHttp.initial) exampleActs proxy ∧
        proxy.connections = [.carrying exampleHead exampleFirst exampleFlow] ∧
        proxy.loop = .accepting :=
    exists_run_of_execute _ (by decide +kernel)
  obtain ⟨counted, -, -, carried⟩ :=
    connections_are_counted MeshHttp.Coherent.initial run
  have live : proxy.live = 1 := by
    rw [Proxy.live, connections]
    rfl
  rw [loop, live] at counted
  obtain ⟨-, -, ⟨-, addr, -⟩, -⟩ := carried 0 exampleHead exampleFirst exampleFlow
    (by rw [connections]; rfl)
  exact ⟨proxy, run, connections, live, counted, addr⟩

private def droppedWhileConnecting : Proxy :=
  { Proxy.started MeshHttp.initial with stop := true, loop := .connecting }

/-- A connection that had passed the flags is still spawned. -/
theorem last_connection_is_spawned : ∃ proxy,
    Run (step exampleRelay) anyStep droppedWhileConnecting [.count, .spawn true, .accept true]
        proxy ∧ proxy.connections = [.spawned] ∧ proxy.connections.length ≤ 0 + 1 ∧
      ∀ next, step exampleRelay proxy .look = some next → next.loop = .ended := by
  obtain ⟨proxy, run, connections⟩ : ∃ proxy,
      Run (step exampleRelay) anyStep droppedWhileConnecting [.count, .spawn true, .accept true]
        proxy ∧ proxy.connections = [.spawned] :=
    exists_run_of_execute _ (by decide +kernel)
  obtain ⟨bounded, ends⟩ := halted_listener_takes_no_more (.inl rfl) run
  exact ⟨proxy, run, connections, bounded, ends⟩

end Fips2Go.MeshRelay.Listener
