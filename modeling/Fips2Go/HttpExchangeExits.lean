import Fips2Go.HttpExchangeAnswers

/-!
# How a request over the mesh can fail

An error is returned for what happened in the run: a stopped engine, a node that
could not be reached, or one that answered badly.  ICMPv6 errors count against an
attempt to connect and never reach the TCP stack.
-/

namespace Fips2Go.HttpExchange

open GuardedRuns Machine
open MeshTcp (FetchError TcpStack isIcmpUnreachable)
open MeshUdp (Endpoint TunPacketAction noRoute whereText)

variable {Socket : Type} {stack : TcpStack Socket} {endpoint : Endpoint} {request : Bytes}
  {target : Target} {taken : List Pass} {start state final : Exchange Socket} {input : Pass}
  {ending : Ending}

theorem noRoute_message (endpoint : Endpoint) :
    (noRoute endpoint).message.toList.head? = some 'n' := by
  simp [noRoute, FetchError.unreachableFor, String.toList_append]

theorem noRoute_ne_noRouteInTime (endpoint : Endpoint) :
    noRouteInTime endpoint ≠ noRoute endpoint := by
  intro equal
  have lengths := congrArg (fun error => error.message.toList.length) equal
  simp [noRouteInTime, noRoute, FetchError.unreachableFor, String.toList_append] at lengths

theorem ne_noRoute_of_place {rest : String} (endpoint : Endpoint) :
    FetchError.unreachableFor (whereText endpoint ++ rest) ≠ noRoute endpoint := by
  intro equal
  have first := noRoute_message endpoint
  rw [← equal] at first
  simp [whereText, FetchError.unreachableFor, String.toList_append] at first

theorem lateError_spec (endpoint : Endpoint) (state : Exchange Socket) :
    (state.lateError endpoint).unreachable = true ∧ (state.lateError endpoint).restarted = false ∧
      state.lateError endpoint ≠ noRoute endpoint := by
  unfold Exchange.lateError
  split
  · exact ⟨rfl, rfl, ne_noRoute_of_place endpoint⟩
  split
  · exact ⟨rfl, rfl, noRoute_ne_noRouteInTime endpoint⟩
  · exact ⟨rfl, rfl, MeshUdp.noAnswer_ne_noRoute endpoint⟩

/-- The unreachables that arrived in some passes. -/
def unreachables (passes : List Pass) : Nat :=
  (arrivals passes).countP fun packet => isIcmpUnreachable packet

/-- What an error of the pass `last` tells of the run. -/
structure ToldApart (stack : TcpStack Socket) (endpoint : Endpoint) (before : List Pass)
    (last : Pass) (final : Exchange Socket) (error : FetchError) : Prop where
  restarted : error.restarted = true → error.unreachable = false ∧
    (last.alive = false ∨ .forward false ∈ last.transmitted ∨ last.wait = .disconnected)
  unreachable : error.unreachable = true →
    .respond ∈ last.transmitted ∨ last.late = true ∨
      (final.established = false ∧ ((stack.state final.socket).isOpen = false ∨
        unreachableLimit ≤ unreachables (before ++ [last])))
  noRoute : error = noRoute endpoint →
    final.established = false ∧ unreachableLimit ≤ unreachables (before ++ [last])

namespace ToldApart

variable {before : List Pass} {last : Pass} {error : FetchError}

theorem other (message : String) : ToldApart stack endpoint before last final (.other message) where
  restarted := nofun
  unreachable := nofun
  noRoute equal := by
    have flags := congrArg (·.unreachable) equal
    cases flags

theorem engineRestarted
    (why : last.alive = false ∨ .forward false ∈ last.transmitted ∨ last.wait = .disconnected) :
    ToldApart stack endpoint before last final .engineRestarted where
  restarted _ := ⟨rfl, why⟩
  unreachable := nofun
  noRoute equal := absurd equal (MeshUdp.engineRestarted_ne_noRoute endpoint)

theorem egress {action : TunPacketAction} (member : action ∈ last.transmitted)
    (fails : MeshUdp.egress endpoint.addr action = some error) :
    ToldApart stack endpoint before last final error := by
  cases action with
  | forward taken =>
      cases taken with
      | true => cases fails
      | false =>
          cases fails
          exact .engineRestarted (.inr (.inl member))
  | hairpin =>
      cases fails
      exact .other _
  | respond =>
      have other := MeshUdp.egress_ne_noRoute fails endpoint
      cases fails
      exact ⟨nofun, fun _ => .inl member, fun equal => absurd equal other⟩
  | drop => cases fails

end ToldApart

theorem Settled.toldApart (kept : Settled stack request taken state) (correct : stack.Correct)
    (atMost : stack.TakesAtMost) {error : FetchError}
    (passed : state.pass stack endpoint request target input =
      .ok (final, .returns (.error error))) :
    ToldApart stack endpoint taken input final error := by
  rcases pass_cases passed with ⟨stopped, -, ends⟩ | ⟨_, member, _, fails, -, ends⟩ |
    ⟨moved, large, -, moves, ⟨-, -, ends⟩ | ⟨-, -, finished, -⟩ | ⟨rfl, -, settled⟩⟩
  · cases ends
    exact .engineRestarted (.inl stopped)
  · cases ends
    exact .egress member fails
  · cases ends
    exact .other _
  · rcases finish_cases finished with ⟨_, -, ends⟩ | ⟨_, ends⟩
    · cases ends
    · cases ends
      exact .other _
  obtain ⟨-, keeps, -⟩ := kept.transferred correct atMost moves
  rcases settle_cases settled with ⟨rfl, shut, ends⟩ | ⟨-, ⟨rfl, late, ends⟩ |
    ⟨-, -, gone, ends⟩ | ⟨-, -, rfl, ⟨many, opening, ends⟩ | ⟨-, ends⟩⟩⟩
  · by_cases established : final.established = true
    · rw [if_pos established] at ends
      cases ends
      exact .other _
    · rw [if_neg established] at ends
      cases ends
      exact ⟨nofun, fun _ => .inr (.inr ⟨by simpa using established, .inl shut⟩),
        fun equal => absurd equal (ne_noRoute_of_place endpoint)⟩
  · obtain ⟨-, notRestarted, notNoRoute⟩ := lateError_spec endpoint final
    cases ends
    refine ⟨fun restarted => ?_, fun _ => .inr (.inl late), fun equal => absurd equal notNoRoute⟩
    rw [notRestarted] at restarted
    cases restarted
  · cases ends
    exact .engineRestarted (.inr (.inr gone))
  · have total : (input.wait.arrived.foldl Exchange.handlePacket moved).unreachable =
        unreachables (taken ++ [input]) := by
      rw [foldl_handlePacket, unreachables, arrivals_append, List.countP_append, ← kept.counted]
      simp only [keeps.unreachable]
      rfl
    rw [total] at many
    cases ends
    exact ⟨nofun, fun _ => .inr (.inr ⟨opening, .inr many⟩), fun _ => ⟨opening, many⟩⟩
  · cases ends

theorem pass_of_stopped (stopped : input.alive = false)
    (passed : state.pass stack endpoint request target input = .ok (final, ending)) :
    final = state ∧ ending = .returns (.error .engineRestarted) := by
  rw [Exchange.pass, if_pos stopped] at passed
  cases passed
  exact ⟨rfl, rfl⟩

/-- What the stack was fed by the end of a pass: whatever is no unreachable, and
with a stopped engine the last of it still waits. -/
theorem Settled.fed_final (kept : Settled stack request taken state) (correct : stack.Correct)
    (atMost : stack.TakesAtMost)
    (passed : state.pass stack endpoint request target input = .ok (final, ending)) :
    (input.alive = true →
      final.fed = (arrivals taken).filter fun packet => !isIcmpUnreachable packet) ∧
    (input.alive = false →
      final.fed ++ final.rx =
        (arrivals taken).filter fun packet => !isIcmpUnreachable packet) := by
  by_cases stopped : input.alive = false
  · obtain ⟨rfl, -⟩ := pass_of_stopped stopped passed
    refine ⟨fun alive => ?_, fun _ => kept.fed⟩
    rw [stopped] at alive
    cases alive
  refine ⟨fun _ => ?_, fun gone => absurd gone stopped⟩
  have polled : (state.polled stack input.now).fed =
      (arrivals taken).filter fun packet => !isIcmpUnreachable packet := kept.fed
  rcases pass_cases passed with ⟨gone, -⟩ | ⟨_, -, _, -, rfl, -⟩ | ⟨moved, large, -, moves, ends⟩
  · exact absurd gone stopped
  · exact polled
  obtain ⟨-, keeps, -⟩ := kept.transferred correct atMost moves
  rw [← keeps.fed] at polled
  rcases ends with ⟨-, rfl, -⟩ | ⟨-, -, -, rfl⟩ | ⟨-, -, settled⟩
  · exact polled
  · exact polled
  · rcases settle_cases settled with ⟨rfl, -⟩ | ⟨-, ⟨rfl, -⟩ | ⟨rfl, -⟩ | ⟨-, -, rfl, -⟩⟩
    · exact polled
    · exact polled
    · exact polled
    · rw [foldl_handlePacket]
      exact polled

/-- A pass goes on only with a running engine, in time, and while an attempt to
connect has seen few unreachables; the next pass feeds what has arrived in this one. -/
theorem Settled.goesOn (kept : Settled stack request taken state) (correct : stack.Correct)
    (atMost : stack.TakesAtMost)
    (passed : state.pass stack endpoint request target input = .ok (final, .goesOn)) :
    input.alive = true ∧ input.late = false ∧
      (final.established = false → unreachables (taken ++ [input]) < unreachableLimit) ∧
      final.fed ++ final.rx =
        (arrivals (taken ++ [input])).filter fun packet => !isIcmpUnreachable packet := by
  have stepTo : HttpExchange.step stack endpoint request target state input = some final := by
    rw [HttpExchange.step, passed]
  have next := kept.step correct atMost stepTo
  rcases pass_cases passed with ⟨-, -, ends⟩ | ⟨_, -, _, -, -, ends⟩ |
    ⟨moved, large, alive, -, ⟨-, -, ends⟩ | ⟨-, -, finished, -⟩ | ⟨-, -, settled⟩⟩
  · cases ends
  · cases ends
  · cases ends
  · rcases finish_cases finished with ⟨_, -, ends⟩ | ⟨_, ends⟩ <;> cases ends
  · rcases settle_cases settled with ⟨-, -, ends⟩ | ⟨-, ⟨-, -, ends⟩ | ⟨-, -, -, ends⟩ |
      ⟨early, -⟩⟩
    · cases ends
    · cases ends
    · cases ends
    · refine ⟨alive, early, fun opening => ?_, next.fed⟩
      rw [unreachables, ← next.counted]
      exact next.patient opening

/-- In every run the stack is fed exactly the packets that are no unreachables, in
order, each by the pass after the one it arrived in; a pass goes on only with a
running engine, in time, and while an attempt to connect has seen few unreachables;
a stopped engine is told as such, and what an error says of the far node is what
happened. -/
theorem exits_are_told_apart (correct : stack.Correct) (atMost : stack.TakesAtMost)
    {socket : Socket} (isOpen : (stack.state socket).isOpen = true)
    (unread : stack.unread socket = []) (opens : Exchange.opened (.ok socket) = .ok start)
    {before : List Pass} (run : Run (step stack endpoint request target) anyStep start before state)
    {last : Pass} (passed : state.pass stack endpoint request target last = .ok (final, ending)) :
    (last.alive = true →
        final.fed = (arrivals before).filter fun packet => !isIcmpUnreachable packet) ∧
      (last.alive = false →
        final.fed ++ final.rx =
          (arrivals before).filter fun packet => !isIcmpUnreachable packet) ∧
      (ending = .goesOn → last.alive = true ∧ last.late = false ∧
        (final.established = false → unreachables (before ++ [last]) < unreachableLimit) ∧
        final.fed ++ final.rx =
          (arrivals (before ++ [last])).filter fun packet => !isIcmpUnreachable packet) ∧
      (last.alive = false → ending = .returns (.error .engineRestarted)) ∧
      ∀ error, ending = .returns (.error error) →
        ToldApart stack endpoint before last final error := by
  have kept := settled_of_run correct atMost isOpen unread opens run
  obtain ⟨polled, unpolled⟩ := kept.fed_final correct atMost passed
  refine ⟨polled, unpolled, ?_, ?_, ?_⟩
  · rintro rfl
    exact kept.goesOn correct atMost passed
  · intro stopped
    exact (pass_of_stopped stopped passed).2
  · rintro error rfl
    exact kept.toldApart correct atMost passed

/-! ### A node that nobody has a path to -/

private def lostEndpoint : Endpoint := ⟨⟨List.replicate 15 0xfd ++ [8], rfl⟩, 80⟩

private def unreachablePacket : Bytes :=
  List.replicate 6 0 ++ [58] ++ List.replicate 33 0 ++ [1, 0]

private def otherPacket : Bytes := List.replicate 6 0 ++ [6] ++ List.replicate 35 0

private def refusing (more : List Bytes) : Pass :=
  ⟨true, 0, [.forward true], false, .packets unreachablePacket more⟩

private def lostStart : Exchange MeshTcp.Connection :=
  ⟨MeshTcp.opened, [], 0, false, 0, [], [], [], []⟩

private def lostPass (state : Exchange MeshTcp.Connection) (input : Pass) :
    Checked (Exchange MeshTcp.Connection × Ending) :=
  state.pass MeshTcp.Connection.tcp lostEndpoint [71] ⟨.bits64, true⟩ input

/-- The attempt after two errors and a packet between them, and after the third. -/
private def lostAfter (seen : Nat) (fed rx : List Bytes) : Exchange MeshTcp.Connection :=
  { lostStart with unreachable := seen, fed, rx }

/-- Two errors leave the attempt going, the third ends it, and none of them has
reached the stack, which was fed the packet between them. -/
theorem third_error_ends_attempt :
    lostPass lostStart (refusing [otherPacket, unreachablePacket]) =
      .ok (lostAfter 2 [] [otherPacket], .goesOn) ∧
    lostPass (lostAfter 2 [] [otherPacket]) (refusing []) =
      .ok (lostAfter 3 [otherPacket] [], .returns (.error (noRoute lostEndpoint))) ∧
    (lostAfter 3 [otherPacket] []).fed =
      (arrivals [refusing [otherPacket, unreachablePacket]]).filter
        (fun packet => !isIcmpUnreachable packet) ∧
    unreachableLimit ≤
      unreachables ([refusing [otherPacket, unreachablePacket]] ++ [refusing []]) := by
  have first : lostPass lostStart (refusing [otherPacket, unreachablePacket]) =
      .ok (lostAfter 2 [] [otherPacket], .goesOn) := rfl
  have run : Run (step MeshTcp.Connection.tcp lostEndpoint [71] ⟨.bits64, true⟩) anyStep lostStart
      ([] ++ [refusing [otherPacket, unreachablePacket]]) (lostAfter 2 [] [otherPacket]) :=
    .snoc .nil trivial rfl
  have passed : lostPass (lostAfter 2 [] [otherPacket]) (refusing []) =
      .ok (lostAfter 3 [otherPacket] [], .returns (.error (noRoute lostEndpoint))) := rfl
  have opens : Exchange.opened (.ok MeshTcp.opened) = .ok lostStart := rfl
  obtain ⟨fed, -, -, -, told⟩ := exits_are_told_apart MeshTcp.Connection.correct
    (fun _ _ => Nat.le_refl _) rfl rfl opens run passed
  exact ⟨first, passed, fed rfl, ((told _ rfl).noRoute rfl).2⟩

end Fips2Go.HttpExchange
