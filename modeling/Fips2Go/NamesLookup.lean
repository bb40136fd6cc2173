import Fips2Go.DnsUpstreams
import Fips2Go.NamesOnline

/-!
# The lookup of a public name

`Names::lookup`, between the resolver and the DNS proxy.  What the resolver comes
to and when, whether and when an upstream denies the record, and when the waiting
thread looks, are an argument.  Times are milliseconds since the lookup became a
task of its own.

Composed with the proxy, it never makes a name unreachable that the resolver does
not answer, and an answer in time reaches the app as it is.
-/

namespace Fips2Go.NamesLookup

open Dns
open NamesOnline (Names txtTimeoutUnvalidated)
open Packet (Ipv6Udp parseIpv6Udp buildIpv6Udp)

/-- `BUDGET`. -/
def budget : Nat := 3500

inductive LookupResult where
  | answer (reply : Bytes)
  | passthrough
  | unavailable (retryIn : Nat)
  deriving DecidableEq, Repr

/-- What is taken from pubdom-core here. -/
structure PubdomNames extends PubdomCore where
  unavailableTtl : Nat → Nat

def probes (names : Names) : Bool :=
  txtTimeoutUnvalidated < names.txtTimeout

/-- One lookup.  `atOnce` is what the first poll gives, `ends` when the task ends
and with what (`none` where it panics), `deniedAt` when an upstream has denied the
record of every candidate domain.  The TXT source is read twice, `looks` are the
moments at which the `select!` is polled, and the wait of each ask of an early
release is over at its `deadlines`. -/
structure Lookup where
  running : Bool
  atOnce : Option LookupResult
  pinned : Bool
  before : Names
  after : Names
  ends : Option (Nat × Option LookupResult)
  deniedAt : Option Nat
  looks : List Nat
  deadlines : Nat → Nat

def decided (core : PubdomNames) : LookupResult → Decided
  | .answer reply => .answer reply
  | .passthrough => .legacy
  | .unavailable retryIn => .capped (core.unavailableTtl retryIn)

def settled (core : PubdomNames) (result : LookupResult) : Outcome :=
  match decided core result with
  | .answer reply => .answer reply
  | .legacy => .legacy
  | .capped cap => .capped cap

/-- What a task that ended comes to; a failed one is no reason to hold back the
legacy answer. -/
def joined (core : PubdomNames) : Option LookupResult → Decided
  | some result => decided core result
  | none => .legacy

namespace Lookup

/-- What the task has come to by a moment. -/
def endedBy (lookup : Lookup) (now : Nat) : Option (Option LookupResult) :=
  match lookup.ends with
  | some (finish, result) => if finish ≤ now then some result else none
  | none => none

def deniedBy (lookup : Lookup) (now : Nat) : Bool :=
  match lookup.deniedAt with
  | some moment => moment ≤ now
  | none => false

inductive Selected where
  | joined (result : Option LookupResult)
  | overran
  | denied
  deriving DecidableEq, Repr

/-- One poll of the `select!`, which is biased. -/
def poll (lookup : Lookup) (now : Nat) : Option Selected :=
  match lookup.endedBy now with
  | some result => some (.joined result)
  | none =>
      if budget ≤ now then some .overran
      else if probes lookup.after ∧ lookup.deniedBy now then some .denied
      else none

/-- One call of the closure: whether it keeps the task, and what it returns. -/
def ask (core : PubdomNames) (lookup : Lookup) (deadline : Nat) :
    Bool → Bool × Option Decided
  | false => (false, none)
  | true =>
      match lookup.endedBy deadline with
      | some result => (false, some (joined core result))
      | none => (true, none)

/-- Whether the closure still has its task when it is asked again. -/
def keepsTask (core : PubdomNames) (lookup : Lookup) : Nat → Bool
  | 0 => true
  | asked + 1 =>
      (lookup.ask core (lookup.deadlines asked) (lookup.keepsTask core asked)).1

def decisions (core : PubdomNames) (lookup : Lookup) (asked : Nat) : Option Decided :=
  (lookup.ask core (lookup.deadlines asked) (lookup.keepsTask core asked)).2

def pendingCalls (lookup : Lookup) : Nat :=
  if probes lookup.before ∧ lookup.pinned = false then 1 else 0

def outcome (core : PubdomNames) (lookup : Lookup) : Selected → Outcome
  | .joined (some result) => settled core result
  | .joined none => .legacy
  | .overran => .capped core.overrunTtlSecs
  | .denied => .early (lookup.decisions core)

/-- `Names::lookup`; `none` where the `select!` is never polled at its end. -/
def run (core : PubdomNames) (lookup : Lookup) : Option LookupRun :=
  if lookup.running then
    match lookup.atOnce with
    | some result => some ⟨0, settled core result⟩
    | none =>
        (lookup.looks.findSome? lookup.poll).map fun selected =>
          ⟨lookup.pendingCalls, lookup.outcome core selected⟩
  else some ⟨0, .legacy⟩

end Lookup

section Closure

variable (core : PubdomNames) (lookup : Lookup)

/-- The closure lets go of its task with its first decision. -/
theorem keepsTask_of_undecided {asked : Nat}
    (undecided : ∀ earlier < asked, lookup.decisions core earlier = none) :
    lookup.keepsTask core asked = true := by
  induction asked with
  | zero => rfl
  | succ asked ih =>
      have keeps := ih fun earlier before => undecided earlier (Nat.lt_succ_of_lt before)
      have empty := undecided asked (Nat.lt_succ_self asked)
      unfold Lookup.decisions at empty
      unfold Lookup.keepsTask
      rw [keeps] at empty ⊢
      unfold Lookup.ask at empty ⊢
      cases ended : lookup.endedBy (lookup.deadlines asked) with
      | none => rfl
      | some result =>
          rw [ended] at empty
          cases empty

/-- As long as it has none, the closure is asked for what the task has come to. -/
theorem decisions_of_undecided {asked : Nat}
    (undecided : ∀ earlier < asked, lookup.decisions core earlier = none) :
    lookup.decisions core asked =
      (lookup.endedBy (lookup.deadlines asked)).map (joined core) := by
  have keeps := keepsTask_of_undecided core lookup undecided
  unfold Lookup.decisions Lookup.ask
  rw [keeps]
  cases lookup.endedBy (lookup.deadlines asked) <;> rfl

end Closure

/-! ### What the proxy comes to see -/

/-- What the resolver gives in the end. -/
def Lookup.ComesTo (lookup : Lookup) (result : Option LookupResult) : Prop :=
  match lookup.atOnce with
  | some first => result = some first
  | none => ∃ finish, lookup.ends = some (finish, result)

theorem Lookup.comesTo_of_endedBy {lookup : Lookup} (unsettled : lookup.atOnce = none)
    {now : Nat} {result : Option LookupResult} (ended : lookup.endedBy now = some result) :
    lookup.ComesTo result := by
  unfold Lookup.endedBy at ended
  unfold Lookup.ComesTo
  rw [unsettled]
  cases ends : lookup.ends with
  | none =>
      rw [ends] at ended
      cases ended
  | some last =>
      rw [ends] at ended
      obtain ⟨-, same⟩ := Option.ite_none_right_eq_some.mp ended
      cases same
      exact ⟨last.1, rfl⟩

/-- What the lookup tells a proxy that asks `asked` times. -/
inductive Seen (core : PubdomNames) (lookup : Lookup) : Nat → Option Decided → Prop
  | stopped (off : lookup.running = false) : Seen core lookup 0 (some .legacy)
  | atOnce (result : LookupResult) (first : lookup.atOnce = some result) :
      Seen core lookup 0 (some (decided core result))
  | joined (now : Nat) (result : Option LookupResult) (unsettled : lookup.atOnce = none)
      (ended : lookup.endedBy now = some result) :
      Seen core lookup 0 (some (joined core result))
  | overran (now : Nat) (unsettled : lookup.atOnce = none) (late : budget ≤ now)
      (going : lookup.endedBy now = none) :
      Seen core lookup 0 (some (.capped core.overrunTtlSecs))
  | released (now last : Nat) (unsettled : lookup.atOnce = none)
      (going : lookup.endedBy now = none) (early : now < budget)
      (denied : probes lookup.after = true ∧ lookup.deniedBy now = true) :
      Seen core lookup (last + 1)
        ((lookup.endedBy (lookup.deadlines last)).map (NamesLookup.joined core))

/-- An outcome that says what it says at once. -/
theorem decidedAs_settled {core : PubdomNames} {result : LookupResult} {asked : Nat}
    {decision : Option Decided} (comes : DecidedAs (some (settled core result)) asked decision) :
    asked = 0 ∧ decision = some (decided core result) := by
  cases result with
  | answer reply => cases comes with | answer => exact ⟨rfl, rfl⟩
  | passthrough => cases comes with | legacy => exact ⟨rfl, rfl⟩
  | unavailable retryIn => cases comes with | capped => exact ⟨rfl, rfl⟩

theorem seen_of_selected {core : PubdomNames} {lookup : Lookup}
    (unsettled : lookup.atOnce = none) {now : Nat} {selected : Lookup.Selected}
    (polled : lookup.poll now = some selected) {asked : Nat} {decision : Option Decided}
    (comes : DecidedAs (some (lookup.outcome core selected)) asked decision) :
    Seen core lookup asked decision := by
  unfold Lookup.poll at polled
  cases ended : lookup.endedBy now with
  | some result =>
      rw [ended] at polled
      cases polled
      have said : Seen core lookup 0 (some (joined core result)) :=
        .joined now result unsettled ended
      cases result with
      | some result =>
          obtain ⟨rfl, rfl⟩ := decidedAs_settled comes
          exact said
      | none =>
          cases comes
          exact said
  | none =>
      simp only [ended] at polled
      by_cases late : budget ≤ now
      · rw [if_pos late] at polled
        cases polled
        cases comes
        exact .overran now unsettled late ended
      · rw [if_neg late] at polled
        obtain ⟨denied, same⟩ := Option.ite_none_right_eq_some.mp polled
        cases same
        cases comes with
        | early decisions last undecided =>
            rw [decisions_of_undecided core lookup undecided]
            exact .released now last unsettled ended (Nat.lt_of_not_le late) denied

theorem seen_of_run {core : PubdomNames} {lookup : Lookup} {run : LookupRun}
    (ran : lookup.run core = some run) {asked : Nat} {decision : Option Decided}
    (comes : DecidedAs (some run.outcome) asked decision) : Seen core lookup asked decision := by
  unfold Lookup.run at ran
  cases on : lookup.running with
  | false =>
      rw [on] at ran
      cases ran
      cases comes
      exact .stopped on
  | true =>
      rw [on, if_pos rfl] at ran
      cases first : lookup.atOnce with
      | some result =>
          rw [first] at ran
          cases ran
          obtain ⟨rfl, rfl⟩ := decidedAs_settled comes
          exact .atOnce result first
      | none =>
          rw [first] at ran
          obtain ⟨selected, found, rfl⟩ := Option.map_eq_some_iff.mp ran
          obtain ⟨now, -, polled⟩ := List.exists_of_findSome?_eq_some found
          exact seen_of_selected first polled comes

/-- What becomes of the upstreams' reply for a name the resolver does not answer.
It is shortened until the resolver's next attempt, or briefly where the resolver
was still at work once the budget was over or an upstream had denied the record. -/
inductive Shapes (core : PubdomNames) (lookup : Lookup) : (Bytes → Bytes) → Prop
  | stopped (off : lookup.running = false) : Shapes core lookup id
  | unchanged (passed : lookup.ComesTo (some .passthrough) ∨ lookup.ComesTo none) :
      Shapes core lookup id
  | untilRetry (retryIn : Nat) (away : lookup.ComesTo (some (.unavailable retryIn))) :
      Shapes core lookup fun reply =>
        (core.clampTtls reply (core.unavailableTtl retryIn)).getD reply
  | briefly (now : Nat) (going : lookup.endedBy now = none)
      (cause : budget ≤ now ∨ lookup.deniedAt.isSome = true) :
      Shapes core lookup fun reply => (core.clampTtls reply core.overrunTtlSecs).getD reply

/-- The resolver does not answer, now or later. -/
def Lookup.Unanswered (lookup : Lookup) : Prop :=
  ∀ reply, ¬ lookup.ComesTo (some (.answer reply))

theorem shapes_of_comesTo {core : PubdomNames} {lookup : Lookup}
    (unanswered : lookup.Unanswered) {result : Option LookupResult}
    (comes : lookup.ComesTo result) : ∃ shaped, Shapes core lookup shaped ∧
      ∀ upstream, expectedReply core.toPubdomCore upstream (some (joined core result)) =
        upstream.map shaped := by
  cases result with
  | none => exact ⟨id, .unchanged (.inr comes), fun upstream => Option.map_id_apply.symm⟩
  | some result =>
      cases result with
      | answer reply => exact absurd comes (unanswered reply)
      | passthrough => exact ⟨id, .unchanged (.inl comes), fun upstream => Option.map_id_apply.symm⟩
      | unavailable retryIn => exact ⟨_, .untilRetry retryIn comes, fun _ => rfl⟩

theorem Seen.shapes {core : PubdomNames} {lookup : Lookup} {asked : Nat}
    {decision : Option Decided} (seen : Seen core lookup asked decision)
    (unanswered : lookup.Unanswered) : ∃ shaped, Shapes core lookup shaped ∧
      ∀ upstream, expectedReply core.toPubdomCore upstream decision = upstream.map shaped := by
  cases seen with
  | stopped off => exact ⟨id, .stopped off, fun upstream => Option.map_id_apply.symm⟩
  | atOnce result first =>
      have comes : lookup.ComesTo (some result) := by
        unfold Lookup.ComesTo
        rw [first]
      exact shapes_of_comesTo unanswered comes
  | joined now result unsettled ended =>
      exact shapes_of_comesTo unanswered (Lookup.comesTo_of_endedBy unsettled ended)
  | overran now unsettled late going =>
      exact ⟨_, .briefly now going (.inl late), fun _ => rfl⟩
  | released now last unsettled going early denied =>
      cases ended : lookup.endedBy (lookup.deadlines last) with
      | some result =>
          exact shapes_of_comesTo unanswered (Lookup.comesTo_of_endedBy unsettled ended)
      | none =>
          refine ⟨_, .briefly _ ended (.inr ?_), fun _ => rfl⟩
          have moment := denied.2
          unfold Lookup.deniedBy at moment
          cases denial : lookup.deniedAt with
          | none =>
              rw [denial] at moment
              cases moment
          | some moment => rfl

/-- The answer is in by the last moment the proxy looks for it: within the budget,
or by the end of the last of its asks. -/
def Lookup.InTime (lookup : Lookup) (asked : Nat) : Prop :=
  lookup.atOnce = none → ∀ finish result, lookup.ends = some (finish, result) →
    match asked with
    | 0 => finish < budget
    | last + 1 => finish ≤ lookup.deadlines last

theorem Lookup.endedBy_of_ends {lookup : Lookup} {finish now : Nat}
    {result : Option LookupResult} (ends : lookup.ends = some (finish, result))
    (early : finish ≤ now) : lookup.endedBy now = some result := by
  unfold Lookup.endedBy
  rw [ends]
  exact if_pos early

theorem Lookup.eq_of_endedBy {lookup : Lookup} {finish now : Nat}
    {result other : Option LookupResult} (ends : lookup.ends = some (finish, result))
    (ended : lookup.endedBy now = some other) : other = result := by
  unfold Lookup.endedBy at ended
  rw [ends] at ended
  exact (Option.some.inj (Option.ite_none_right_eq_some.mp ended).2).symm

theorem Seen.answer {core : PubdomNames} {lookup : Lookup} {asked : Nat}
    {decision : Option Decided} (seen : Seen core lookup asked decision)
    (on : lookup.running = true) {reply : Bytes}
    (answers : lookup.ComesTo (some (.answer reply))) (inTime : lookup.InTime asked) :
    decision = some (.answer reply) := by
  unfold Lookup.ComesTo at answers
  cases seen with
  | stopped off =>
      rw [on] at off
      cases off
  | atOnce result first =>
      rw [first] at answers
      cases answers
      rfl
  | joined now result unsettled ended =>
      rw [unsettled] at answers
      obtain ⟨finish, ends⟩ := answers
      rw [Lookup.eq_of_endedBy ends ended]
      rfl
  | overran now unsettled late going =>
      rw [unsettled] at answers
      obtain ⟨finish, ends⟩ := answers
      have soon : finish < budget := inTime unsettled finish _ ends
      rw [Lookup.endedBy_of_ends ends (Nat.le_of_lt (Nat.lt_of_lt_of_le soon late))] at going
      cases going
  | released now last unsettled going early denied =>
      rw [unsettled] at answers
      obtain ⟨finish, ends⟩ := answers
      have soon : finish ≤ lookup.deadlines last := inTime unsettled finish _ ends
      rw [Lookup.endedBy_of_ends ends soon]
      rfl

/-- An upstream's denial comes too late for an early release, or is not waited for. -/
def Lookup.Undenied (lookup : Lookup) : Prop :=
  probes lookup.after = true → ∀ moment, lookup.deniedAt = some moment →
    ∃ finish result, lookup.ends = some (finish, result) ∧ finish ≤ moment

theorem Seen.unasked {core : PubdomNames} {lookup : Lookup} {asked : Nat}
    {decision : Option Decided} (seen : Seen core lookup asked decision)
    (undenied : lookup.Undenied) : asked = 0 := by
  cases seen with
  | stopped off => rfl
  | atOnce result first => rfl
  | joined now result unsettled ended => rfl
  | overran now unsettled late going => rfl
  | released now last unsettled going early denied =>
      obtain ⟨probed, denied⟩ := denied
      unfold Lookup.deniedBy at denied
      cases denial : lookup.deniedAt with
      | none =>
          rw [denial] at denied
          cases denied
      | some moment =>
          rw [denial] at denied
          obtain ⟨finish, result, ends, first⟩ := undenied probed moment denial
          have past : moment ≤ now := of_decide_eq_true denied
          rw [Lookup.endedBy_of_ends ends (Nat.le_trans first past)] at going
          cases going

/-- The upstreams are not asked ahead of the lookup. -/
def Lookup.Discreet (lookup : Lookup) : Prop :=
  lookup.atOnce ≠ none ∨ lookup.pinned = true ∨ probes lookup.before = false

theorem Lookup.Discreet.pendingCalls {core : PubdomNames} {lookup : Lookup}
    (discreet : lookup.Discreet) {run : LookupRun} (ran : lookup.run core = some run) :
    run.pendingCalls = 0 := by
  unfold Lookup.run at ran
  split at ran
  · cases first : lookup.atOnce with
    | some result =>
        rw [first] at ran
        cases ran
        rfl
    | none =>
        rw [first] at ran
        obtain ⟨selected, -, rfl⟩ := Option.map_eq_some_iff.mp ran
        apply if_neg
        rintro ⟨probed, unpinned⟩
        rcases discreet with settled | pinned | unprobed
        · exact settled first
        · rw [pinned] at unpinned
          cases unpinned
        · rw [probed] at unprobed
          cases unprobed
  · cases ran
    rfl

section Served

variable {core : PubdomNames} {proxy : DnsProxy} {world : World} {names : Bytes → LookupRun}
variable {lookup : Lookup} {packet : Bytes} {query : Ipv6Udp}

variable (core world) in
/-- What `serve` makes of a lookup. -/
theorem serve_lookup (parsed : parseIpv6Udp packet = some query)
    (notFips : isFips ((parseQname query.payload).getD []) = false)
    (on : proxy.names = some names) :
    ∃ reply trace decision,
      publicReply core.toPubdomCore proxy world query.payload = some (reply, trace) ∧
      serve core.toPubdomCore proxy world packet = some (respond query reply trace) ∧
      DecidedAs (some (names query.payload).outcome) (asks trace.serving) decision ∧
      emitted trace.serving = [] ∧
      reply = expectedReply core.toPubdomCore (upstreamReply proxy world query.payload)
        decision := by
  obtain ⟨reply, trace, asked, decision, replied, comes, counted, silent, expected⟩ :=
    publicReply_spec core.toPubdomCore proxy world query.payload
  rw [on] at comes
  apply Exists.intro reply
  apply Exists.intro trace
  apply Exists.intro decision
  refine ⟨replied, ?_, ?_, silent, expected⟩
  · simp [serve, parsed, notFips, replied]
  · rw [counted]
    exact comes

variable (core proxy world lookup) in
/-- A name that the resolver does not answer is never made unreachable: whatever
the upstreams' denials, the timing and the fate of a prefetch, the app is sent what
the upstreams reply, at most with its TTLs clamped, and SERVFAIL only where they
reply nothing.  Unchanged it goes out only where the resolver is done with it. -/
theorem unanswered_name_stays_reachable (parsed : parseIpv6Udp packet = some query)
    (notFips : isFips ((parseQname query.payload).getD []) = false)
    (on : proxy.names = some names) (ran : lookup.run core = some (names query.payload))
    (unanswered : lookup.Unanswered) :
    ∃ trace shaped, serve core.toPubdomCore proxy world packet = some trace ∧
      Shapes core lookup shaped ∧
      emitted trace.serving =
        ((((upstreamReply proxy world query.payload).map shaped).or
            (servfailFor query.payload)).map
          (buildIpv6Udp query.dst query.src 53 query.srcPort)).toList := by
  obtain ⟨reply, trace, decision, -, served, comes, silent, expected⟩ :=
    serve_lookup core world parsed notFips on
  obtain ⟨shaped, shapes, same⟩ := (seen_of_run ran comes).shapes unanswered
  refine ⟨_, shaped, served, shapes, ?_⟩
  rw [emitted_respond, silent, List.nil_append, expected, same]

theorem asksNothing_respond {reply : Option Bytes} {trace : Trace}
    (quiet : ∀ event ∈ trace.serving ++ trace.prefetching, ¬ AsksUpstream event) :
    ∀ event ∈ (respond query reply trace).serving ++ (respond query reply trace).prefetching,
      ¬ AsksUpstream event := by
  intro event member
  rw [(upstreamRuns_respond query reply trace).2] at member
  unfold respond at member
  split at member
  · exact quiet event member
  · rcases List.mem_append.mp member with served | ahead
    · rcases List.mem_append.mp served with earlier | last
      · exact quiet event (List.mem_append_left _ earlier)
      · rw [List.mem_singleton.mp last]
        exact id
    · exact quiet event (List.mem_append_right _ ahead)

/-- An answer that is there when it is first looked for, to a lookup that started no
prefetch. -/
theorem answersAtOnce_of_decidedAs (on : proxy.names = some names)
    (unprefetched : (names query.payload).pendingCalls = 0) {asked : Nat} {reply : Bytes}
    (comes : DecidedAs (some (names query.payload).outcome) asked (some (.answer reply)))
    (soon : asked ≤ 1) : AnswersAtOnce proxy query.payload := by
  apply Exists.intro names
  apply Exists.intro reply
  refine ⟨on, unprefetched, ?_⟩
  generalize (names query.payload).outcome = outcome at comes
  generalize decision : some (Decided.answer reply) = wanted at comes
  cases comes with
  | answer other =>
      cases decision
      exact .inl rfl
  | legacy => cases decision
  | capped cap => cases decision
  | early decisions last undecided =>
      have first : last = 0 := Nat.le_zero.mp (Nat.le_of_succ_le_succ soon)
      subst first
      exact .inr ⟨decisions, rfl, rfl⟩

variable (core proxy world lookup) in
/-- What the resolver answers in time reaches the app byte for byte, whatever the
upstreams do meanwhile.  No denial that comes after the answer releases the lookup
early; and where no prefetch is started, as for a pinned name, no upstream hears of
a name answered by the first ask. -/
theorem answer_in_time_arrives (parsed : parseIpv6Udp packet = some query)
    (notFips : isFips ((parseQname query.payload).getD []) = false)
    (on : proxy.names = some names) (ran : lookup.run core = some (names query.payload))
    (running : lookup.running = true) {reply : Bytes}
    (answers : lookup.ComesTo (some (.answer reply))) :
    ∃ trace, serve core.toPubdomCore proxy world packet = some trace ∧
      (lookup.Undenied → asks trace.serving = 0) ∧
      (lookup.InTime (asks trace.serving) →
        emitted trace.serving = [buildIpv6Udp query.dst query.src 53 query.srcPort reply] ∧
        (lookup.Discreet → asks trace.serving ≤ 1 →
          ∀ event ∈ trace.serving ++ trace.prefetching, ¬ AsksUpstream event)) := by
  obtain ⟨sent, trace, decision, replied, served, comes, silent, expected⟩ :=
    serve_lookup core world parsed notFips on
  have seen := seen_of_run ran comes
  refine ⟨_, served, ?_, ?_⟩
  · rw [asks_respond]
    exact seen.unasked
  · rw [asks_respond]
    intro inTime
    have same := seen.answer running answers inTime
    subst same
    constructor
    · rw [emitted_respond, silent, List.nil_append, expected]
      rfl
    · intro discreet soon
      apply asksNothing_respond
      have unprefetched := discreet.pendingCalls ran
      exact asksNothing_publicReply
        (answersAtOnce_of_decidedAs on unprefetched comes soon) replied

end Served

/-- The clamp of a reply with one address. -/
def plainCore : PubdomNames where
  toPubdomCore := lowerTtl
  unavailableTtl retryIn := retryIn

/-- A parked name: an upstream denies its record at once, and the resolver is at
work until after the budget. -/
def parkedLookup : Lookup where
  running := true
  atOnce := none
  pinned := false
  before := ⟨1500⟩
  after := ⟨1500⟩
  ends := some (4000, some .passthrough)
  deniedAt := some 20
  looks := [0, 21]
  deadlines asked := 26 + 5 * asked

theorem parked_name_stays_reachable :
    let proxy := { plainProxy with
      names := some fun _ => ⟨1, .early (parkedLookup.decisions plainCore)⟩ }
    let world := { silentWorld with
      prefetchNet := fun _ _ => some addressSocket
      prefetch := .delivered 7 }
    let query := queryOf (dnsQuery [homeLabel])
    upstreamReply proxy world query.payload = some (addressReply 240) ∧
      (plainCore.clampTtls (addressReply 240) plainCore.overrunTtlSecs).getD (addressReply 240) =
        addressReply 10 ∧
      ∃ trace shaped, serve lowerTtl proxy world (tunnelPacket query) = some trace ∧
        Shapes plainCore parkedLookup shaped ∧
        emitted trace.serving =
          ((((upstreamReply proxy world query.payload).map shaped).or
              (servfailFor query.payload)).map
            (buildIpv6Udp query.dst query.src 53 query.srcPort)).toList := by
  intro proxy world query
  have parsed : parseIpv6Udp (tunnelPacket query) = some query := by decide +kernel
  refine ⟨by decide +kernel, by decide +kernel, ?_⟩
  apply unanswered_name_stays_reachable plainCore proxy world parkedLookup parsed
    (by decide +kernel) rfl rfl
  rintro reply ⟨finish, ends⟩
  cases ends

/-- A pinned name, answered after 40 ms. -/
def pinnedLookup : Lookup :=
  { parkedLookup with
    pinned := true
    ends := some (40, some (.answer [0xbe, 0xef, 0x85, 0x80]))
    deniedAt := none
    looks := [0, 41] }

theorem pinned_name_is_answered :
    let proxy := { plainProxy with
      names := some fun _ => ⟨0, .answer [0xbe, 0xef, 0x85, 0x80]⟩ }
    let query := queryOf (dnsQuery [homeLabel])
    ∃ trace, serve lowerTtl proxy silentWorld (tunnelPacket query) = some trace ∧
      emitted trace.serving =
        [buildIpv6Udp query.dst query.src 53 query.srcPort [0xbe, 0xef, 0x85, 0x80]] ∧
      ∀ event ∈ trace.serving ++ trace.prefetching, ¬ AsksUpstream event := by
  intro proxy query
  have parsed : parseIpv6Udp (tunnelPacket query) = some query := by decide +kernel
  obtain ⟨trace, served, unasked, arrives⟩ :=
    answer_in_time_arrives plainCore proxy silentWorld pinnedLookup parsed (by decide +kernel)
      rfl rfl rfl ⟨40, rfl⟩
  have none : asks trace.serving = 0 := unasked fun _ _ denied => nomatch denied
  rw [none] at arrives
  have inTime : pinnedLookup.InTime 0 := by
    rintro - finish result ends
    cases ends
    decide
  obtain ⟨emitted, discreet⟩ := arrives inTime
  exact ⟨trace, served, emitted, discreet (.inr (.inl rfl)) (Nat.zero_le _)⟩

end Fips2Go.NamesLookup
