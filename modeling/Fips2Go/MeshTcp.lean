import Fips2Go.ByteStrings
import Fips2Go.GuardedRuns

/-!
# The pipe between a local socket and a relay on the mesh

`run` of `shim/src/meshtcp.rs`, one pass of its loop at a time.  The userspace
TCP stack is a parameter with what the pipe relies on of it; when packets
arrive, where a deque wraps around, what the local socket answers to each
write, and what the event channel yields are the input of a pass.  The pipe
records what was handed over and taken in each direction.
-/

namespace Fips2Go.MeshTcp

open GuardedRuns

structure FetchError where
  message : String
  unreachable : Bool
  restarted : Bool

def FetchError.other (message : String) : FetchError := ⟨message, false, false⟩

def FetchError.unreachableFor (message : String) : FetchError := ⟨message, true, false⟩

def FetchError.engineRestarted : FetchError :=
  ⟨"the node restarted during the request", false, true⟩

/-- The states of a connection that was opened from this side. -/
inductive TcpState where
  | closed
  | synSent
  | synReceived
  | established
  | finWait1
  | finWait2
  | closeWait
  | closing
  | lastAck
  | timeWait
  deriving DecidableEq

namespace TcpState

/-- `is_open`. -/
def isOpen (state : TcpState) : Bool := state ≠ .closed ∧ state ≠ .timeWait

/-- `is_active`, of a socket that does not listen. -/
def isActive (state : TcpState) : Bool := state ≠ .closed ∧ state ≠ .timeWait

/-- The states in which the relay may still send. -/
def receives (state : TcpState) : Bool :=
  state = .established ∨ state = .finWait1 ∨ state = .finWait2

end TcpState

/-- A TCP stack with one socket.  `poll` takes in the packets at that time, of
which `received` is what it adds to the received stream; `fin` and `reset` tell
that the relay's stream has ended in order, and that the connection was reset.
`abort` includes the poll that sends the reset. -/
structure TcpStack (Socket : Type) where
  state : Socket → TcpState
  unread : Socket → Bytes
  fin : Socket → Bool
  reset : Socket → Bool
  poll : Socket → List Bytes → Nat → Socket
  received : Socket → List Bytes → Nat → Bytes
  canSend : Socket → Bool
  sendSlice : Socket → Bytes → Nat × Socket
  recvSlice : Socket → Nat → Bytes × Socket
  close : Socket → Socket
  abort : Socket → Socket

def toLocalLimit : Nat := 64 * 1024
def bufSize : Nat := 16 * 1024

/-- `is_icmp_unreachable`. -/
def isIcmpUnreachable (p : Bytes) : Bool :=
  p.length > 40 ∧ p[6]? = some 58 ∧ p[40]? = some 1

inductive Event where
  | mesh (packet : Bytes)
  | «local» (bytes : Bytes)
  | localClosed
  deriving DecidableEq

/-- What one `write` to the local socket answers. -/
inductive LocalWrite where
  | accepted (size : Nat)
  | timedOut
  | failed
  deriving DecidableEq

/-- What the wait at the end of a pass yields. -/
inductive Wait where
  | timeout
  | disconnected
  | events (first : Event) (more : List Event)

/-- The outside of one pass.  `fronts` tell at each look at the bytes for the mesh
how many more than one its first slice has; where they run out, that is all.
`writes` are the answers of the local socket in turn, to the first slice of its
bytes; where they run out, writes time out.  `late` tells that the connect
deadline is past. -/
structure Pass where
  alive : Bool
  stop : Bool
  now : Nat
  failed : Option FetchError
  fronts : List Nat
  writes : List LocalWrite
  late : Bool
  wait : Wait

/-- The variables of the loop; of `read`, `handed`, `released`, `delivered` and
`written` the totals: bytes of the local client, bytes that the socket took,
backlog given back, stream taken from the relay, and bytes written to the local
socket. -/
structure Pipe (Socket : Type) where
  socket : Socket
  rx : List Bytes
  established : Bool
  unreachable : Nat
  firstLeft : Nat
  toMesh : Bytes
  toLocal : Bytes
  localClosed : Bool
  closeSent : Bool
  localShut : Bool
  read : Bytes
  handed : Bytes
  released : Nat
  delivered : Bytes
  written : Bytes

variable {Socket : Type}

/-- The variables before the first pass, the connection having been opened. -/
def Pipe.initial (socket : Socket) (first : Bytes) : Pipe Socket where
  socket := socket
  rx := []
  established := false
  unreachable := 0
  firstLeft := first.length
  toMesh := first
  toLocal := []
  localClosed := false
  closeSent := false
  localShut := false
  read := []
  handed := []
  released := 0
  delivered := []
  written := []

section Stack

variable (stack : TcpStack Socket)

def Pipe.polled (pipe : Pipe Socket) (now : Nat) : Pipe Socket :=
  let socket := stack.poll pipe.socket pipe.rx now
  { pipe with
    socket := socket
    rx := []
    delivered := pipe.delivered ++ stack.received pipe.socket pipe.rx now
    established := pipe.established ||
      ((stack.state socket).isActive && stack.state socket ≠ .synSent) }

/-- `as_slices().0`: a deque up to where it wraps around. -/
def frontSlice (deque : Bytes) : List Nat → Bytes
  | [] => deque
  | more :: _ => deque.take (more + 1)

/-- Local → mesh. -/
def Pipe.sendLoop : Nat → List Nat → Pipe Socket → Pipe Socket
  | 0, _, pipe => pipe
  | fuel + 1, fronts, pipe =>
      if pipe.toMesh = [] ∨ stack.canSend pipe.socket = false then pipe
      else
        let a := frontSlice pipe.toMesh fronts
        let (sent, socket) := stack.sendSlice pipe.socket a
        if sent = 0 then { pipe with socket }
        else
          let fromFirst := min sent pipe.firstLeft
          Pipe.sendLoop fuel fronts.tail
            { pipe with
              socket
              toMesh := pipe.toMesh.drop sent
              handed := pipe.handed ++ a.take sent
              firstLeft := pipe.firstLeft - fromFirst
              released := pipe.released + (sent - fromFirst) }

def Pipe.closeOnce (pipe : Pipe Socket) : Pipe Socket :=
  { pipe with socket := stack.close pipe.socket, closeSent := true }

/-- Mesh → local, off the socket. -/
def Pipe.recvLoop : Nat → Pipe Socket → Pipe Socket
  | 0, pipe => pipe
  | fuel + 1, pipe =>
      if pipe.toLocal.length < toLocalLimit ∧ stack.unread pipe.socket ≠ [] then
        let (bytes, socket) := stack.recvSlice pipe.socket bufSize
        if bytes = [] then { pipe with socket }
        else Pipe.recvLoop fuel { pipe with socket, toLocal := pipe.toLocal ++ bytes }
      else pipe

/-- Mesh → local, onto the local socket; whether a write failed. -/
def Pipe.writeLoop : List LocalWrite → Pipe Socket → Pipe Socket × Bool
  | [], pipe => (pipe, false)
  | answer :: answers, pipe =>
      if pipe.toLocal = [] then (pipe, false)
      else
        match answer with
        | .accepted 0 | .timedOut => (pipe, false)
        | .failed => (pipe, true)
        | .accepted (size + 1) =>
            Pipe.writeLoop answers
              { pipe with
                written := pipe.written ++ pipe.toLocal.take (size + 1)
                toLocal := pipe.toLocal.drop (size + 1) }

/-- `may_recv`. -/
def mayRecv (socket : Socket) : Bool :=
  (stack.state socket).receives || stack.unread socket ≠ []

/-- The relay finished sending and everything it sent is delivered. -/
def Pipe.shutLocal (pipe : Pipe Socket) : Pipe Socket :=
  if pipe.established ∧ mayRecv stack pipe.socket = false ∧ stack.unread pipe.socket = [] ∧
      pipe.toLocal = [] ∧ pipe.localShut = false then
    let pipe := { pipe with localShut := true }
    if pipe.closeSent = false ∧ pipe.toMesh = [] then pipe.closeOnce stack else pipe
  else pipe

def Pipe.handleEvent (pipe : Pipe Socket) : Event → Pipe Socket
  | .mesh packet =>
      if isIcmpUnreachable packet then { pipe with unreachable := pipe.unreachable + 1 }
      else { pipe with rx := pipe.rx ++ [packet] }
  | .«local» bytes => { pipe with toMesh := pipe.toMesh ++ bytes, read := pipe.read ++ bytes }
  | .localClosed => { pipe with localClosed := true }

/-- How a pass ends: the loop goes on, or `run` returns. -/
inductive Ending where
  | goesOn
  | returns (result : Except FetchError Unit)

/-- The transfers of a pass in both directions, on an established or opening
connection; whether a local write failed. -/
def Pipe.transfer (pipe : Pipe Socket) (fronts : List Nat) (writes : List LocalWrite) :
    Pipe Socket × Bool :=
  let pipe := pipe.sendLoop stack pipe.toMesh.length fronts
  let pipe :=
    if pipe.localClosed ∧ pipe.toMesh = [] ∧ pipe.closeSent = false then pipe.closeOnce stack
    else pipe
  let pipe := pipe.recvLoop stack (stack.unread pipe.socket).length
  pipe.writeLoop writes

/-- An attempt to connect is given up after three errors. -/
def Pipe.afterEvents (where_ : String) (pipe : Pipe Socket) : Pipe Socket × Ending :=
  if 3 ≤ pipe.unreachable ∧ pipe.established = false then
    (pipe, .returns (.error (.unreachableFor ("no route to " ++ where_ ++
      " over the mesh (the node does not know a path to it)"))))
  else (pipe, .goesOn)

def Pipe.await (where_ : String) (pipe : Pipe Socket) : Wait → Pipe Socket × Ending
  | .disconnected => (pipe, .returns (.ok ()))
  | .timeout => pipe.afterEvents where_
  | .events first more => ((first :: more).foldl Pipe.handleEvent pipe).afterEvents where_

def Pipe.aborted (pipe : Pipe Socket) : Pipe Socket :=
  { pipe with socket := stack.abort pipe.socket }

/-- What follows the transfers: the exits that look at the socket's state only,
the connect deadline, and the wait. -/
def Pipe.settle (where_ : String) (pipe : Pipe Socket) (input : Pass) :
    Pipe Socket × Ending :=
  if (stack.state pipe.socket).isOpen = false then
    (pipe, .returns (if pipe.established then .ok () else .error (.unreachableFor
      (where_ ++ " refused the connection (nothing listening on that port?)"))))
  else if pipe.established = false ∧ input.late then
    (pipe, .returns (.error (.unreachableFor
      (if pipe.unreachable > 0 then "no route to " ++ where_ ++ " over the mesh"
      else where_ ++ " did not answer (is the node online?)"))))
  else pipe.await where_ input.wait

/-- One pass of the loop of `run`. -/
def Pipe.pass (where_ : String) (pipe : Pipe Socket) (input : Pass) : Pipe Socket × Ending :=
  if input.alive = false ∨ input.stop = true then
    (pipe.aborted stack, .returns (if input.alive then .ok () else .error .engineRestarted))
  else
    let pipe := pipe.polled stack input.now
    match input.failed with
    | some error => (pipe, .returns (.error error))
    | none =>
        if pipe.localClosed ∧ pipe.established = false then
          (pipe.aborted stack, .returns (.ok ()))
        else
          match pipe.transfer stack input.fronts input.writes with
          | (pipe, true) => (pipe.aborted stack, .returns (.ok ()))
          | (pipe, false) => (pipe.shutLocal stack).settle stack where_ input

/-- A pass after which the loop goes on. -/
def step (where_ : String) (pipe : Pipe Socket) (input : Pass) : Option (Pipe Socket) :=
  match pipe.pass stack where_ input with
  | (pipe, .goesOn) => some pipe
  | (_, .returns _) => none

/-! ### What the pipe relies on -/

/-- Of a TCP stack: on an open connection what arrives is queued behind what is
unread, reading takes from the front, nothing else touches the queue or the
observed ends of the stream, a reset closes the connection, and the relay's end
of stream leaves a connection that was only opened from this side in
CLOSE-WAIT. -/
structure TcpStack.Correct : Prop where
  unread_poll : ∀ socket packets now, (stack.state socket).isOpen = true →
    stack.unread (stack.poll socket packets now) =
      stack.unread socket ++ stack.received socket packets now
  recvSlice_spec : ∀ socket size, (stack.recvSlice socket size).1 =
      (stack.unread socket).take size ∧
    stack.unread (stack.recvSlice socket size).2 = (stack.unread socket).drop size ∧
    stack.state (stack.recvSlice socket size).2 = stack.state socket ∧
    stack.fin (stack.recvSlice socket size).2 = stack.fin socket ∧
    stack.reset (stack.recvSlice socket size).2 = stack.reset socket
  sendSlice_spec : ∀ socket bytes,
    stack.unread (stack.sendSlice socket bytes).2 = stack.unread socket ∧
    stack.state (stack.sendSlice socket bytes).2 = stack.state socket ∧
    stack.fin (stack.sendSlice socket bytes).2 = stack.fin socket ∧
    stack.reset (stack.sendSlice socket bytes).2 = stack.reset socket
  close_spec : ∀ socket, stack.unread (stack.close socket) = stack.unread socket ∧
    stack.fin (stack.close socket) = stack.fin socket ∧
    stack.reset (stack.close socket) = stack.reset socket
  abort_fin : ∀ socket, stack.fin (stack.abort socket) = stack.fin socket ∧
    stack.reset (stack.abort socket) = stack.reset socket
  reset_closes : ∀ socket packets now, stack.reset (stack.poll socket packets now) = true →
    stack.state (stack.poll socket packets now) = .closed
  fin_waits : ∀ socket packets now, stack.state socket = .synSent → stack.fin socket = false →
    stack.fin (stack.poll socket packets now) = true →
    stack.reset (stack.poll socket packets now) = false →
    stack.state (stack.poll socket packets now) = .closeWait

end Stack

end Fips2Go.MeshTcp
