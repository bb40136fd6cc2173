import Fips2Go.DivertFlows
import Fips2Go.FilterCapacity
import Fips2Go.FilterRefinement
import Fips2Go.PacketReaders

/-!
# The traffic through the pump

The reader thread and the bridge thread of `shim/src/pump.rs` packet by packet:
`run_reader` sends what an app wrote to the TUN on its way, and the bridge takes
what the node received to an in-process flow, past the firewall and to the TUN.
What the node's own pipeline makes of a packet, clock readings and whether the
receiving end of a channel still is there are the input of a step.  The threads
record what they did with the packets.
-/

namespace Fips2Go.PumpTraffic

open Fips2Go.Filter (Call InboundFilter parse)
open MeshHttp (Tap)
open Pump (Way way)

/-- What the node's outbound pipeline makes of a packet: it can change it on the
way. -/
inductive Processed where
  | forward (packet : Bytes)
  | hairpin (packet : Bytes)
  | respond (response : Bytes)
  | drop

/-- A line of the drop log. -/
structure Line where
  proto : UInt8
  port : UInt16
  src : Filter.Addr
  deriving DecidableEq

theorem length_unspecified : (List.replicate 16 (0 : UInt8)).length = 16 :=
  List.length_replicate

/-- `InboundFilter::describe`. -/
def describe (packet : Bytes) : Line :=
  match parse packet with
  | some p => ⟨p.proto, p.dstPort, p.srcAddr⟩
  | none => ⟨packet[6]?.getD 0, 0, ⟨List.replicate 16 0, length_unspecified⟩⟩

/-- The bound on the ports in the drop log. -/
def maxLogged : Nat := 64

/-- The two threads and what they share.  Of the records, `history` are the calls
on the firewall, `forwarded` what the node's pipeline let into the mesh, `returned`
what the reader wrote back to the TUN, `passed` what the bridge wrote there and
`unsent` what it could not write. -/
structure Traffic where
  filter : Option InboundFilter
  tap : Tap
  reading : Bool
  bridging : Bool
  loggedPorts : List UInt16
  history : List Call
  asked : List Bytes
  clearnet : List Bytes
  forwarded : List (Nat × Bytes)
  returned : List Bytes
  delivered : List Bytes
  claimed : List Bytes
  denied : List Bytes
  passed : List (Nat × Bytes)
  unsent : List Bytes
  lines : List Line

inductive Act where
  | read (packet : Bytes) (processed : Processed)
      (order : FiniteTable.IterationOrder Filter.FlowKey Nat) (now : Nat) (taken : Bool)
  | deliver (packet : Bytes) (now : Nat) (taken : Bool)
  | stopReading
  | stopBridging
  | flows (op : MeshHttp.Op)

/-- `note_outbound`, where there is a firewall. -/
def Traffic.noteOutbound (state : Traffic) (order : FiniteTable.IterationOrder Filter.FlowKey Nat)
    (now : Nat) (packet : Bytes) : Traffic :=
  match state.filter with
  | none => state
  | some filter =>
      { state with
        filter := some (filter.noteOutbound order now packet)
        history := state.history ++ [Call.noteOutbound order now packet] }

/-- The reader writes a packet back. -/
def Traffic.writeBack (state : Traffic) (packet : Bytes) (taken : Bool) : Traffic :=
  if taken then { state with returned := state.returned ++ [packet] }
  else { state with reading := false }

/-- A mesh-bound packet behind the node's pipeline. -/
def Traffic.route (state : Traffic) (processed : Processed)
    (order : FiniteTable.IterationOrder Filter.FlowKey Nat) (now : Nat) (taken : Bool) : Traffic :=
  match processed with
  | .forward packet =>
      let state := state.noteOutbound order now packet
      { state with
        forwarded := state.forwarded ++ [(now, packet)]
        reading := state.reading && taken }
  | .hairpin packet => state.writeBack packet taken
  | .respond response => state.writeBack response taken
  | .drop => state

section Reader

variable (meshPrefix : UInt8) (dnsAddr : FixedBytes 16) (forwarder : Bool)

/-- The reader with one packet; `forwarder` tells whether clearnet packets go on. -/
def Traffic.readPacket (state : Traffic) (packet : Bytes) (processed : Processed)
    (order : FiniteTable.IterationOrder Filter.FlowKey Nat) (now : Nat) (taken : Bool) : Traffic :=
  match way meshPrefix dnsAddr packet with
  | .resolver => { state with asked := state.asked ++ [packet] }
  | .clearnet =>
      if forwarder then
        if taken then { state with clearnet := state.clearnet ++ [packet] }
        else { state with reading := false }
      else state
  | .mesh => state.route processed order now taken

end Reader

/-- A denied packet, logged where it is the first for its port. -/
def Traffic.deny (state : Traffic) (packet : Bytes) : Traffic :=
  let state := { state with denied := state.denied ++ [packet] }
  if state.loggedPorts.length < maxLogged ∧
      state.loggedPorts.contains (describe packet).port = false then
    { state with
      loggedPorts := (describe packet).port :: state.loggedPorts
      lines := state.lines ++ [describe packet] }
  else state

def Traffic.pass (state : Traffic) (packet : Bytes) (now : Nat) (taken : Bool) : Traffic :=
  if taken then { state with passed := state.passed ++ [(now, packet)] }
  else { state with unsent := state.unsent ++ [packet], bridging := false }

/-- A packet that is no reply to an in-process flow. -/
def Traffic.letThrough (state : Traffic) (packet : Bytes) (now : Nat) (taken : Bool) : Traffic :=
  match state.filter with
  | none => state.pass packet now taken
  | some filter =>
      let state := { state with
        filter := some (filter.allowInbound now packet).2
        history := state.history ++ [Call.allowInbound now packet] }
      if (filter.allowInbound now packet).1 then state.pass packet now taken
      else state.deny packet

/-- The bridge with one packet. -/
def Traffic.deliver (state : Traffic) (packet : Bytes) (now : Nat) (taken : Bool) : Traffic :=
  let state := { state with delivered := state.delivered ++ [packet] }
  match state.tap.claim packet with
  | (tap, none) => { state with tap, claimed := state.claimed ++ [packet] }
  | (tap, some packet) => { state with tap }.letThrough packet now taken

def step (meshPrefix : UInt8) (dnsAddr : FixedBytes 16) (forwarder : Bool) (state : Traffic) :
    Act → Option Traffic
  | .read packet processed order now taken =>
      if state.reading then
        some (state.readPacket meshPrefix dnsAddr forwarder packet processed order now taken)
      else none
  | .deliver packet now taken =>
      if state.bridging then some (state.deliver packet now taken) else none
  | .stopReading => some { state with reading := false }
  | .stopBridging => some { state with bridging := false }
  | .flows op =>
      match MeshHttp.step state.tap op with
      | some tap => some { state with tap }
      | none => none

/-- Two threads that have just been spawned, with the allowed ports if there is a
firewall. -/
def Traffic.started (allowedPorts : Option (List UInt16)) (tap : Tap) : Traffic where
  filter := allowedPorts.map InboundFilter.new
  tap := tap
  reading := true
  bridging := true
  loggedPorts := []
  history := []
  asked := []
  clearnet := []
  forwarded := []
  returned := []
  delivered := []
  claimed := []
  denied := []
  passed := []
  unsent := []
  lines := []

end Fips2Go.PumpTraffic
