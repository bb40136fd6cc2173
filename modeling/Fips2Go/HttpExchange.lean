import Fips2Go.HttpCompletion
import Fips2Go.MeshTcpSending
import Fips2Go.MeshUdp

/-!
# One request and its response

`exchange` of `shim/src/meshhttp.rs`, one pass of its loop at a time, over the
same TCP stack as the relay pipe.  What becomes of the packets that the stack
transmits, when packets arrive and when the deadline passes are the input of a
pass.  The loop records what it handed to the socket, the stream that the stack
received, and the packets that the stack was fed.
-/

namespace Fips2Go.HttpExchange

open GuardedRuns Machine
open MeshHttp (Response isComplete parseResponse)
open MeshTcp (FetchError TcpStack bufSize isIcmpUnreachable mayRecv)
open MeshUdp (Endpoint TunPacketAction Wait egress noAnswer noRoute whereText)

def maxBody : Nat := 4 * 2 ^ 20
def unreachableLimit : Nat := 3

/-- The outside of one pass.  `transmitted` are the packets of the poll, `late`
tells that the deadline is past. -/
structure Pass where
  alive : Bool
  now : Nat
  transmitted : List TunPacketAction
  late : Bool
  wait : Wait

/-- The variables of the loop; `handed` is what the socket took of the request,
`arrived` the stream that the stack received, `fed` the packets it was given. -/
structure Exchange (Socket : Type) where
  socket : Socket
  rx : List Bytes
  sent : Nat
  established : Bool
  unreachable : Nat
  data : Bytes
  handed : Bytes
  arrived : Bytes
  fed : List Bytes

/-- How a pass ends: the loop goes on, or `exchange` returns. -/
inductive Ending where
  | goesOn
  | returns (result : Except FetchError Response)

def tooLarge : FetchError := .other "response too large"

def closedEarly (endpoint : Endpoint) : FetchError :=
  .other (whereText endpoint ++ " closed the connection early")

def refused (endpoint : Endpoint) : FetchError :=
  .unreachableFor (whereText endpoint ++
    " refused the connection (nothing listening on that port?)")

def unfinished (endpoint : Endpoint) : FetchError :=
  .unreachableFor (whereText endpoint ++ " did not finish answering in time")

def noRouteInTime (endpoint : Endpoint) : FetchError :=
  .unreachableFor ("no route to " ++ whereText endpoint ++ " over the mesh")

variable {Socket : Type}

/-- The variables before the first pass, where `connect` succeeds. -/
def Exchange.opened (connect : Except String Socket) : Except FetchError (Exchange Socket) :=
  match connect with
  | .error e => .error (.other ("connect: " ++ e))
  | .ok socket =>
      .ok {
        socket
        rx := []
        sent := 0
        established := false
        unreachable := 0
        data := []
        handed := []
        arrived := []
        fed := [] }

def Exchange.handlePacket (state : Exchange Socket) (packet : Bytes) : Exchange Socket :=
  if isIcmpUnreachable packet then { state with unreachable := state.unreachable + 1 }
  else { state with rx := state.rx ++ [packet] }

section Stack

variable (stack : TcpStack Socket) (endpoint : Endpoint) (request : Bytes)

def Exchange.polled (state : Exchange Socket) (now : Nat) : Exchange Socket :=
  let socket := stack.poll state.socket state.rx now
  { state with
    socket
    rx := []
    arrived := state.arrived ++ stack.received state.socket state.rx now
    fed := state.fed ++ state.rx
    established := state.established ||
      ((stack.state socket).isActive && stack.state socket ≠ .synSent) }

def Exchange.sendRequest (state : Exchange Socket) : Exchange Socket :=
  if state.sent < request.length ∧ stack.canSend state.socket = true then
    let (size, socket) := stack.sendSlice state.socket (request.drop state.sent)
    { state with
      socket
      sent := state.sent + size
      handed := state.handed ++ (request.drop state.sent).take size }
  else state

/-- The loop over what the socket has received; whether it is too large. -/
def Exchange.recvLoop : Nat → Exchange Socket → Exchange Socket × Bool
  | 0, state => (state, false)
  | fuel + 1, state =>
      if stack.unread state.socket = [] then (state, false)
      else
        let (bytes, socket) := stack.recvSlice state.socket bufSize
        if bytes = [] then ({ state with socket }, false)
        else
          let state := { state with socket, data := state.data ++ bytes }
          if state.data.length > maxBody then
            ({ state with socket := stack.abort state.socket }, true)
          else Exchange.recvLoop fuel state

/-- What follows the wait: an attempt to connect is given up after three errors. -/
def Exchange.afterPackets (state : Exchange Socket) : Exchange Socket × Ending :=
  if unreachableLimit ≤ state.unreachable ∧ state.established = false then
    (state, .returns (.error (noRoute endpoint)))
  else (state, .goesOn)

def Exchange.await (state : Exchange Socket) : Wait → Exchange Socket × Ending
  | .timeout => state.afterPackets endpoint
  | .disconnected => (state, .returns (.error .engineRestarted))
  | .packets first more =>
      ((first :: more).foldl Exchange.handlePacket state).afterPackets endpoint

def Exchange.lateError (state : Exchange Socket) : FetchError :=
  if state.established then unfinished endpoint
  else if state.unreachable > 0 then noRouteInTime endpoint
  else noAnswer endpoint

/-- A pass from where the response is not complete. -/
def Exchange.settle (state : Exchange Socket) (input : Pass) : Exchange Socket × Ending :=
  if (stack.state state.socket).isOpen = false then
    (state, .returns (.error (if state.established then closedEarly endpoint
      else refused endpoint)))
  else if input.late then (state, .returns (.error (state.lateError endpoint)))
  else state.await endpoint input.wait

section Machine

variable (target : Target)

/-- The server closed, or said how long its body is and all of it is here. -/
def Exchange.isDone (state : Exchange Socket) : Checked Bool :=
  if state.established then
    if mayRecv stack state.socket then isComplete target state.data else return true
  else return false

def Exchange.finish (state : Exchange Socket) : Checked Ending := do
  match ← parseResponse target state.data with
  | .ok response => return .returns (.ok response)
  | .error message => return .returns (.error (.other message))

/-- One pass of the loop of `exchange`. -/
def Exchange.pass (state : Exchange Socket) (input : Pass) :
    Checked (Exchange Socket × Ending) :=
  if input.alive = false then return (state, .returns (.error .engineRestarted))
  else
    let state := state.polled stack input.now
    match input.transmitted.findSome? (egress endpoint.addr) with
    | some error => return (state, .returns (.error error))
    | none =>
        let state := state.sendRequest stack request
        match state.recvLoop stack (stack.unread state.socket).length with
        | (state, true) => return (state, .returns (.error tooLarge))
        | (state, false) => do
            if ← state.isDone stack target then
              -- our FIN, best effort
              let closed := stack.poll (stack.close state.socket) [] input.now
              return ({ state with socket := closed }, ← state.finish target)
            else return state.settle stack endpoint input

/-- A pass after which the loop goes on. -/
def step (state : Exchange Socket) (input : Pass) : Option (Exchange Socket) :=
  match state.pass stack endpoint request target input with
  | .ok (state, .goesOn) => some state
  | .ok (_, .returns _) => none
  | .error _ => none

end Machine

end Stack

end Fips2Go.HttpExchange
