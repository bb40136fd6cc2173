import Fips2Go.DnsServe

/-!
# Whose reply an exchange takes

`DnsProxy::forward` looks at the transaction id of what its socket receives and
not at the sender, and reads into a buffer of a fixed size.  Datagrams of others
are therefore without effect only if none of them carries the id ahead of the
server's reply and they leave that reply one of the three reads; and the reply
is the server's datagram only if that fits into the buffer.
-/

namespace Fips2Go.Dns

/-- A datagram with its sender. -/
abbrev Arrival := SocketAddr × Bytes

/-- The test of the receive loop. -/
def Matches (query : Bytes) (arrival : Arrival) : Prop :=
  let received := arrival.2.take maxResponse
  2 ≤ received.length ∧ 2 ≤ query.length ∧ received.take 2 = query.take 2

instance (query : Bytes) (arrival : Arrival) : Decidable (Matches query arrival) :=
  inferInstanceAs (Decidable (_ ∧ _ ∧ _))

/-- The datagram that the receive loop takes. -/
def accepted (query : Bytes) (arrivals : List Arrival) : Option Arrival :=
  (arrivals.take 3).find? fun arrival => decide (Matches query arrival)

theorem recvMatching_eq (query : Bytes) (reads : Nat) (arrivals : List Arrival) :
    recvMatching query reads arrivals =
      ((arrivals.take reads).find? fun arrival => decide (Matches query arrival)).map
        fun arrival => arrival.2.take maxResponse := by
  induction reads generalizing arrivals with
  | zero => simp [recvMatching]
  | succ reads ih =>
      cases arrivals with
      | nil => simp [recvMatching]
      | cons arrival arrivals =>
          by_cases same : Matches query arrival
          · have test := same
            unfold Matches at test
            simp only [recvMatching, if_pos test, List.take_succ_cons]
            rw [List.find?_cons_of_pos (by simpa using same)]
            rfl
          · have test := same
            unfold Matches at test
            simp only [recvMatching, if_neg test, List.take_succ_cons, ih]
            rw [List.find?_cons_of_neg (by simpa using same)]

/-- What arrives on the socket that `forward` opened, where it got as far as to
send its query. -/
def arrivals (network : Network) (server : SocketAddr) : List Arrival :=
  match network (bindAddr server) with
  | none => []
  | some socket => if socket.timeoutSet ∧ socket.sends then socket.arrivals else []

theorem forward_reply (proxy : DnsProxy) (network : Network) (query : Bytes)
    (server : SocketAddr) (protect : Bool) :
    (forward proxy network query server protect).1 =
      (accepted query (arrivals network server)).map fun arrival =>
        arrival.2.take maxResponse := by
  unfold forward arrivals
  cases network (bindAddr server) with
  | none => simp [accepted]
  | some socket =>
      cases timeoutSet : socket.timeoutSet
      · simp [timeoutSet, accepted]
      · cases sends : socket.sends
        · simp [timeoutSet, sends, accepted]
        · simp [timeoutSet, sends, accepted, recvMatching_eq]

/-- The network without the datagrams of others than the server. -/
def onlyFrom (server : SocketAddr) (network : Network) : Network := fun address =>
  (network address).map fun socket =>
    { socket with arrivals := socket.arrivals.filter fun arrival => arrival.1 = server }

theorem arrivals_onlyFrom (network : Network) (server : SocketAddr) :
    arrivals (onlyFrom server network) server =
      (arrivals network server).filter fun arrival => arrival.1 = server := by
  unfold arrivals onlyFrom
  cases network (bindAddr server) with
  | none => rfl
  | some socket =>
      by_cases reached : socket.timeoutSet ∧ socket.sends
      · simp [reached]
      · simp only [Option.map_some, if_neg reached, List.filter_nil]

/-- The reply is a datagram of the server, with the query's id, and it is the
same as if nobody else had sent anything. -/
structure FromServer (proxy : DnsProxy) (network : Network) (query : Bytes)
    (server : SocketAddr) (protect : Bool) : Prop where
  sender : ∀ reply, (forward proxy network query server protect).1 = some reply →
    ∃ datagram, accepted query (arrivals network server) = some (server, datagram) ∧
      reply = datagram ∧ reply.take 2 = query.take 2
  undisturbed : (forward proxy network query server protect).1 =
    (forward proxy (onlyFrom server network) query server protect).1

/-- What arrives before the server's first reply with the query's id. -/
def beforeReply (query : Bytes) (server : SocketAddr) (arrivals : List Arrival) :
    List Arrival :=
  arrivals.takeWhile fun arrival => decide ¬ (arrival.1 = server ∧ Matches query arrival)

/-- Of the three datagrams read, none ahead of the server's reply carries the
query's id, and others do not push that reply out of the three.  Where it is
read, it fits into the buffer. -/
structure Unforged (query : Bytes) (server : SocketAddr) (arrivals : List Arrival) : Prop where
  unmatched : ∀ arrival ∈ (beforeReply query server arrivals).take 3, ¬ Matches query arrival
  inTime : (∃ arrival ∈ arrivals, arrival.1 = server ∧ Matches query arrival) →
    ((beforeReply query server arrivals).filter fun arrival => arrival.1 = server).length < 3 →
    (beforeReply query server arrivals).length < 3
  whole : ∀ reply after, arrivals = beforeReply query server arrivals ++ reply :: after →
    (beforeReply query server arrivals).length < 3 → reply.2.length ≤ maxResponse

section Accepted

variable {query : Bytes} {server : SocketAddr}

theorem accepted_eq_none {arrivals : List Arrival}
    (unmatched : ∀ arrival ∈ arrivals.take 3, ¬ Matches query arrival) :
    accepted query arrivals = none := by
  rw [accepted, List.find?_eq_none]
  intro arrival member
  simpa using unmatched arrival member

/-- Behind datagrams that do not match, a match is taken if it is read. -/
theorem accepted_append {before : List Arrival} (after : List Arrival) {reply : Arrival}
    (unmatched : ∀ arrival ∈ before.take 3, ¬ Matches query arrival)
    (same : Matches query reply) :
    accepted query (before ++ reply :: after) =
      if before.length < 3 then some reply else none := by
  have none := accepted_eq_none unmatched
  unfold accepted at none ⊢
  rw [List.take_append, List.find?_append, none, Option.none_or]
  by_cases few : before.length < 3
  · obtain ⟨more, left⟩ := Nat.exists_eq_add_of_lt few
    rw [if_pos few, show 3 - before.length = more + 1 by omega, List.take_succ_cons,
      List.find?_cons_of_pos (by simpa using same)]
  · rw [if_neg few, Nat.sub_eq_zero_of_le (by omega)]
    rfl

/-- A match among the first three keeps everything behind it from being taken. -/
theorem accepted_of_before {before : List Arrival} (after : List Arrival) {arrival : Arrival}
    (read : arrival ∈ before.take 3) (same : Matches query arrival) :
    ∃ taken ∈ before, accepted query (before ++ after) = some taken ∧ Matches query taken := by
  obtain ⟨taken, found⟩ : ∃ taken,
      (before.take 3).find? (fun arrival => decide (Matches query arrival)) = some taken := by
    rw [← Option.isSome_iff_exists, List.find?_isSome]
    exact ⟨arrival, read, by simpa using same⟩
  refine ⟨taken, List.mem_of_mem_take (List.mem_of_find?_eq_some found), ?_,
    by simpa using List.find?_some found⟩
  rw [accepted, List.take_append, List.find?_append, found, Option.some_or]

theorem not_of_mem_beforeReply {arrivals : List Arrival} {arrival : Arrival}
    (earlier : arrival ∈ beforeReply query server arrivals) :
    ¬ (arrival.1 = server ∧ Matches query arrival) := by
  have kept := List.mem_takeWhile_imp earlier
  exact of_decide_eq_true kept

theorem beforeReply_split (query : Bytes) (server : SocketAddr) (arrivals : List Arrival) :
    (beforeReply query server arrivals = arrivals) ∨
      ∃ reply after, arrivals = beforeReply query server arrivals ++ reply :: after ∧
        reply.1 = server ∧ Matches query reply := by
  unfold beforeReply
  induction arrivals with
  | nil => exact .inl rfl
  | cons arrival arrivals ih =>
      by_cases own : arrival.1 = server ∧ Matches query arrival
      · exact .inr ⟨arrival, arrivals, by simp [own], own⟩
      · have kept : (arrival :: arrivals).takeWhile
            (fun arrival => decide ¬ (arrival.1 = server ∧ Matches query arrival)) =
            arrival :: arrivals.takeWhile
              (fun arrival => decide ¬ (arrival.1 = server ∧ Matches query arrival)) :=
          List.takeWhile_cons_of_pos (decide_eq_true own)
        rw [kept]
        rcases ih with all | ⟨reply, after, split, fromServer⟩
        · exact .inl (by rw [all])
        · exact .inr ⟨reply, after, by rw [List.cons_append, ← split], fromServer⟩

/-- What follows them is the reply. -/
theorem matches_of_split {arrivals after : List Arrival} {reply : Arrival}
    (split : arrivals = beforeReply query server arrivals ++ reply :: after) :
    Matches query reply := by
  rcases beforeReply_split query server arrivals with all | ⟨other, later, parts, -, same⟩
  · have length := congrArg List.length split
    rw [all, List.length_append, List.length_cons] at length
    omega
  · have tails := List.append_cancel_left (split.symm.trans parts)
    rw [(List.cons.inj tails).1]
    exact same

/-- The server's datagrams ahead of its reply do not match. -/
theorem unmatched_filter (query : Bytes) (server : SocketAddr) (arrivals : List Arrival) :
    ∀ arrival ∈ ((beforeReply query server arrivals).filter
      fun arrival => arrival.1 = server).take 3, ¬ Matches query arrival := by
  intro arrival member same
  obtain ⟨earlier, own⟩ := List.mem_filter.mp (List.mem_of_mem_take member)
  exact not_of_mem_beforeReply earlier ⟨by simpa using own, same⟩

theorem accepted_filter {arrivals after : List Arrival} {reply : Arrival}
    (split : arrivals = beforeReply query server arrivals ++ reply :: after)
    (own : reply.1 = server) (same : Matches query reply) :
    accepted query (arrivals.filter fun arrival => arrival.1 = server) =
      if ((beforeReply query server arrivals).filter
        fun arrival => arrival.1 = server).length < 3 then some reply else none := by
  have filtered := congrArg (List.filter fun arrival => decide (arrival.1 = server)) split
  rw [List.filter_append, List.filter_cons_of_pos (by simpa using own)] at filtered
  rw [filtered]
  exact accepted_append _ (unmatched_filter _ _ _) same

end Accepted

section Forward

variable {proxy : DnsProxy} {network : Network} {query : Bytes} {server : SocketAddr}
  {protect : Bool}

theorem fromServer_of_unforged (unforged : Unforged query server (arrivals network server)) :
    FromServer proxy network query server protect := by
  obtain ⟨received, listed⟩ : ∃ received, received = arrivals network server := ⟨_, rfl⟩
  rw [← listed] at unforged
  have same : accepted query received =
      accepted query (received.filter fun arrival => arrival.1 = server) ∧
      ∀ arrival, accepted query received = some arrival →
        arrival.1 = server ∧ arrival.2.length ≤ maxResponse := by
    rcases beforeReply_split query server received with all | ⟨reply, after, split, own, same⟩
    · have unmatched := unforged.unmatched
      rw [all] at unmatched
      have filtered := unmatched_filter query server received
      rw [all] at filtered
      rw [accepted_eq_none unmatched, accepted_eq_none filtered]
      exact ⟨rfl, by simp⟩
    · have taken := accepted_append after unforged.unmatched same
      rw [← split] at taken
      have counted : ((beforeReply query server received).filter
          fun arrival => arrival.1 = server).length < 3 ↔
          (beforeReply query server received).length < 3 := by
        constructor
        · exact unforged.inTime ⟨reply, by rw [split]; simp, own, same⟩
        · exact Nat.lt_of_le_of_lt (List.length_filter_le ..)
      rw [taken, accepted_filter split own same]
      simp only [counted, true_and]
      intro arrival found
      split at found
      next few =>
        rw [← Option.some.inj found]
        exact ⟨own, unforged.whole reply after split few⟩
      next => cases found
  constructor
  case sender =>
    intro reply replied
    rw [forward_reply, ← listed] at replied
    obtain ⟨⟨sender, datagram⟩, found, rfl⟩ := Option.map_eq_some_iff.mp replied
    obtain ⟨own, fits⟩ := same.2 _ found
    have whole : datagram.take maxResponse = datagram := List.take_of_length_le fits
    have sent : sender = server := own
    subst sent
    have matched : Matches query (sender, datagram) := by
      simpa using List.find?_some found
    exact ⟨datagram, by rw [← listed, found], whole, matched.2.2⟩
  case undisturbed =>
    rw [forward_reply, forward_reply, arrivals_onlyFrom, ← listed, same.1]

theorem unforged_of_fromServer (fromServer : FromServer proxy network query server protect) :
    Unforged query server (arrivals network server) := by
  obtain ⟨received, listed⟩ : ∃ received, received = arrivals network server := ⟨_, rfl⟩
  have sender := fromServer.sender
  have undisturbed := fromServer.undisturbed
  rw [forward_reply, forward_reply, arrivals_onlyFrom, ← listed] at undisturbed
  simp only [forward_reply, ← listed] at sender
  rw [← listed]
  have unmatched : ∀ arrival ∈ (beforeReply query server received).take 3,
      ¬ Matches query arrival := by
    intro arrival read same
    obtain ⟨rest, split⟩ : ∃ rest, beforeReply query server received ++ rest = received :=
      List.takeWhile_prefix _
    obtain ⟨taken, earlier, found, matched⟩ := accepted_of_before rest read same
    rw [split] at found
    obtain ⟨datagram, own, _⟩ := sender _ (by rw [found]; rfl)
    rw [found, Option.some.injEq] at own
    exact not_of_mem_beforeReply earlier ⟨by rw [own], matched⟩
  constructor
  case unmatched => exact unmatched
  case inTime =>
    rintro ⟨arrival, member, own⟩ few
    rcases beforeReply_split query server received with all | ⟨reply, after, split, own', same⟩
    · rw [← all] at member
      exact absurd own (not_of_mem_beforeReply member)
    · rw [accepted_filter split own' same, if_pos few] at undisturbed
      have taken := accepted_append after unmatched same
      rw [← split] at taken
      by_contra late
      rw [taken, if_neg late] at undisturbed
      cases undisturbed
  case whole =>
    intro reply after split few
    have taken := accepted_append after unmatched (matches_of_split split)
    rw [← split, if_pos few] at taken
    obtain ⟨datagram, own, cut, _⟩ := sender _ (by rw [taken]; rfl)
    rw [taken, Option.some.injEq] at own
    rw [own] at cut ⊢
    exact (List.take_eq_self_iff datagram).mp cut

/-- Whatever arrives, in whatever order: the reply is the server's, and others
had no part in it, exactly when none of them was read with the query's id
ahead of it, none took one of its reads, and it was read whole. -/
theorem forward_from_server_iff :
    FromServer proxy network query server protect ↔
      Unforged query server (arrivals network server) :=
  ⟨unforged_of_fromServer, fromServer_of_unforged⟩

end Forward

private def resolver : SocketAddr where
  ip := .v4 ⟨[9, 9, 9, 10], rfl⟩
  port := 53

private def stranger : SocketAddr where
  ip := .v4 ⟨[203, 0, 113, 7], rfl⟩
  port := 53

/-- A datagram with the query's id arrives ahead of the resolver's reply. -/
private def forgedNetwork : Network := fun _ => some
  { timeoutSet := true
    sends := true
    arrivals := [(stranger, [0xbe, 0xef, 0x81, 0x83]), (resolver, [0xbe, 0xef, 0x81, 0x80])] }

private def bareProxy : DnsProxy where
  localResponder := resolver
  upstreams := [resolver]
  protect := false
  hosts := none
  names := none

theorem forged_reply_is_taken :
    ¬ ∀ proxy network query server protect, FromServer proxy network query server protect := by
  intro fromServer
  obtain ⟨datagram, found, _⟩ :=
    (fromServer bareProxy forgedNetwork [0xbe, 0xef, 1, 0] resolver true).sender
      [0xbe, 0xef, 0x81, 0x83] (by decide)
  have taken : accepted [0xbe, 0xef, 1, 0] (arrivals forgedNetwork resolver) =
      some (stranger, [0xbe, 0xef, 0x81, 0x83]) := by decide
  rw [taken, Option.some.injEq, Prod.mk.injEq] at found
  exact absurd found.1 (by decide)

end Fips2Go.Dns
