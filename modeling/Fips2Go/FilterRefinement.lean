import Fips2Go.FilterSoundness

/-!
# The bounded flow table against an unbounded one

A reference filter keeps every outbound flow and its last-seen time for ever.
As long as it never holds more than `maxFlows` unexpired flows, the real
filter gives the same verdicts: purging, removal on a failed lookup and
re-insertion of an expired flow are invisible, and no live flow is evicted.
Beyond that capacity the real filter only becomes stricter.
-/

namespace Fips2Go.Filter

/-- The firewall without a bound on its table. -/
structure ReferenceFilter where
  allowedPorts : List UInt16
  seen : FlowTable

namespace ReferenceFilter

def new (allowedPorts : List UInt16) : ReferenceFilter :=
  ⟨allowedPorts, FiniteTable.empty⟩

def noteOutbound (reference : ReferenceFilter) (now : Nat) (packet : Bytes) :
    ReferenceFilter :=
  match outboundKey packet with
  | none => reference
  | some key => { reference with seen := reference.seen.insert key now }

def allowInbound (reference : ReferenceFilter) (now : Nat) (packet : Bytes) :
    Bool × ReferenceFilter :=
  match parse packet with
  | none => (false, reference)
  | some p =>
      if p.proto = protoIcmpv6 then (true, reference)
      else if p.dstPort ∈ reference.allowedPorts then (true, reference)
      else
        match reference.seen.get? (inboundKey p) with
        | some last =>
            if unexpired now (inboundKey p) last then
              (true, { reference with seen := reference.seen.insert (inboundKey p) now })
            else (false, reference)
        | none => (false, reference)

def step (reference : ReferenceFilter) : Call → ReferenceFilter
  | .noteOutbound _ now packet => reference.noteOutbound now packet
  | .allowInbound now packet => (reference.allowInbound now packet).2

def after (reference : ReferenceFilter) (calls : List Call) : ReferenceFilter :=
  calls.foldl step reference

def verdicts (reference : ReferenceFilter) : List Call → List Bool
  | [] => []
  | .noteOutbound _ now packet :: calls =>
      (reference.noteOutbound now packet).verdicts calls
  | .allowInbound now packet :: calls =>
      (reference.allowInbound now packet).1 ::
        (reference.allowInbound now packet).2.verdicts calls

/-- The flows that would still admit traffic at `now`. -/
def liveFlows (reference : ReferenceFilter) (now : Nat) : List (FlowKey × Nat) :=
  (reference.seen.retain (unexpired now)).entries

theorem noteOutbound_untracked {reference : ReferenceFilter} {now : Nat}
    {packet : Bytes} (untracked : outboundKey packet = none) :
    reference.noteOutbound now packet = reference := by
  simp only [noteOutbound, untracked]

theorem noteOutbound_of_key {reference : ReferenceFilter} {now : Nat}
    {packet : Bytes} {key : FlowKey} (tracked : outboundKey packet = some key) :
    reference.noteOutbound now packet =
      { reference with seen := reference.seen.insert key now } := by
  simp only [noteOutbound, tracked]

end ReferenceFilter

/-- How the two filters meet one inbound packet: they give it the same fixed
verdict and stay as they are, or both look its flow up. -/
theorem allowInbound_cases (filter : InboundFilter) (reference : ReferenceFilter)
    (samePorts : ∀ port, port ∈ filter.allowedPorts ↔ port ∈ reference.allowedPorts)
    (now : Nat) (packet : Bytes) :
    (∃ verdict, filter.allowInbound now packet = (verdict, filter) ∧
        reference.allowInbound now packet = (verdict, reference)) ∨
      ∃ key,
        filter.allowInbound now packet =
          (match filter.flows.get? key with
          | some last =>
              if unexpired now key last then
                (true, { filter with flows := filter.flows.insert key now })
              else (false, { filter with flows := filter.flows.remove key })
          | none => (false, filter)) ∧
        reference.allowInbound now packet =
          (match reference.seen.get? key with
          | some last =>
              if unexpired now key last then
                (true, { reference with seen := reference.seen.insert key now })
              else (false, reference)
          | none => (false, reference)) := by
  unfold InboundFilter.allowInbound ReferenceFilter.allowInbound
  cases parsed : parse packet with
  | none => exact Or.inl ⟨false, rfl, rfl⟩
  | some p =>
      by_cases icmpv6 : p.proto = protoIcmpv6
      · left
        exact ⟨true, by simp [icmpv6], by simp [icmpv6]⟩
      by_cases listed : p.dstPort ∈ filter.allowedPorts
      · left
        have found := (filter.search_allowedPorts p.dstPort).mpr listed
        have listedThere := (samePorts p.dstPort).mp listed
        exact ⟨true, by simp [found], by simp [listedThere]⟩
      · right
        have notFound : ¬ (SortedSearch.binarySearch filter.allowedPorts p.dstPort).isSome :=
          fun found => listed ((filter.search_allowedPorts p.dstPort).mp found)
        have unlistedThere : p.dstPort ∉ reference.allowedPorts :=
          fun there => listed ((samePorts p.dstPort).mpr there)
        refine ⟨inboundKey p, ?_, ?_⟩
        · cases stored : filter.flows.get? (inboundKey p) with
          | none => simp only [if_neg icmpv6, if_neg notFound, stored]
          | some last => simp only [if_neg icmpv6, if_neg notFound, stored]
        · simp only [if_neg icmpv6, if_neg unlistedThere]

/-- Expiry is final: what has expired stays expired. -/
theorem unexpired_anti {earlier later : Nat} (order : earlier ≤ later) {key : FlowKey}
    {last : Nat} (live : unexpired later key last = true) :
    unexpired earlier key last = true := by
  simp only [unexpired, decide_eq_true_eq] at live ⊢
  omega

theorem unexpired_mono_seen {now : Nat} {key : FlowKey} {older newer : Nat}
    (order : older ≤ newer) (live : unexpired now key older = true) :
    unexpired now key newer = true := by
  simp only [unexpired, decide_eq_true_eq] at live ⊢
  omega

/-- Below capacity, at clock reading `now`: every entry of the bounded table
is the reference's, and every live entry of the reference is in the table. -/
structure Agrees (now : Nat) (filter : InboundFilter) (reference : ReferenceFilter) :
    Prop where
  ports : ∀ port, port ∈ filter.allowedPorts ↔ port ∈ reference.allowedPorts
  sound : ∀ key last, filter.flows.get? key = some last →
    reference.seen.get? key = some last
  complete : ∀ key last, reference.seen.get? key = some last →
    unexpired now key last = true → filter.flows.get? key = some last

namespace Agrees

variable {earlier now : Nat} {filter : InboundFilter} {reference : ReferenceFilter}

theorem initial (ports : List UInt16) (now : Nat) :
    Agrees now (InboundFilter.new ports) (ReferenceFilter.new ports) where
  ports := InboundFilter.mem_allowedPorts_new ports
  sound key last stored := by simp at stored
  complete key last stored := by simp [ReferenceFilter.new] at stored

theorem later (agrees : Agrees earlier filter reference) (order : earlier ≤ now) :
    Agrees now filter reference where
  ports := agrees.ports
  sound := agrees.sound
  complete key last stored live :=
    agrees.complete key last stored (unexpired_anti order live)

/-- Both filters refresh the same flow. -/
theorem insert (agrees : Agrees now filter reference) (key : FlowKey) :
    Agrees now { filter with flows := filter.flows.insert key now }
      { reference with seen := reference.seen.insert key now } where
  ports := agrees.ports
  sound other last stored := by
    rw [FiniteTable.get?_insert] at stored ⊢
    split at stored
    next same => rw [if_pos same, ← stored]
    next different =>
      rw [if_neg different]
      exact agrees.sound other last stored
  complete other last stored live := by
    rw [FiniteTable.get?_insert] at stored ⊢
    split at stored
    next same => rw [if_pos same, ← stored]
    next different =>
      rw [if_neg different]
      exact agrees.complete other last stored live

/-- Dropping expired entries loses nothing. -/
theorem narrow (agrees : Agrees now filter reference) {flows : FlowTable}
    (fewer : ∀ key last, flows.get? key = some last → filter.flows.get? key = some last)
    (keepsLive : ∀ key last, filter.flows.get? key = some last →
      unexpired now key last = true → flows.get? key = some last) :
    Agrees now { filter with flows := flows } reference where
  ports := agrees.ports
  sound key last stored := agrees.sound key last (fewer key last stored)
  complete key last stored live :=
    keepsLive key last (agrees.complete key last stored live) live

/-- A table full of live flows would put the reference over capacity. -/
theorem live_lt_maxFlows (agrees : Agrees now filter reference) {key : FlowKey}
    (absent : filter.flows.contains key = false)
    (capacity : (ReferenceFilter.liveFlows
      { reference with seen := reference.seen.insert key now } now).length ≤ maxFlows) :
    (filter.flows.retain (unexpired now)).size < maxFlows := by
  have notStored (entry : FlowKey × Nat)
      (member : entry ∈ (filter.flows.retain (unexpired now)).entries) : entry.1 ≠ key := by
    intro same
    have stored := ((FiniteTable.get?_retain_eq_some_iff _ _ _ _).mp
      ((FiniteTable.get?_eq_some_iff _ entry.1 entry.2).mpr member)).1
    rw [same] at stored
    have present := (FiniteTable.contains_iff _ _).mpr ⟨_, stored⟩
    simp [absent] at present
  have included : (key, now) :: (filter.flows.retain (unexpired now)).entries ⊆
      ReferenceFilter.liveFlows
        { reference with seen := reference.seen.insert key now } now := by
    intro entry member
    rw [ReferenceFilter.liveFlows, ← FiniteTable.get?_eq_some_iff _ entry.1 entry.2,
      FiniteTable.get?_retain_eq_some_iff, FiniteTable.get?_insert]
    rcases List.mem_cons.mp member with equal | kept
    · subst equal
      refine ⟨if_pos rfl, ?_⟩
      simp only [unexpired, Nat.sub_self, decide_eq_true_eq, idleLimit]
      split <;> decide
    · have live := (FiniteTable.get?_retain_eq_some_iff _ _ _ _).mp
        ((FiniteTable.get?_eq_some_iff _ entry.1 entry.2).mpr kept)
      rw [if_neg (notStored entry kept)]
      exact ⟨agrees.sound _ _ live.1, live.2⟩
  have distinct : ((key, now) :: (filter.flows.retain (unexpired now)).entries).Nodup := by
    refine List.nodup_cons.mpr ⟨?_, FiniteTable.nodup_entries _⟩
    intro member
    exact notStored _ member rfl
  have bound := (distinct.subperm included).length_le
  simp only [List.length_cons] at bound
  unfold FiniteTable.size
  omega

/-- An outbound packet never evicts a live flow below capacity. -/
theorem noteOutbound (agrees : Agrees now filter reference)
    (order : FiniteTable.IterationOrder FlowKey Nat) (packet : Bytes)
    (capacity : ((reference.noteOutbound now packet).liveFlows now).length ≤ maxFlows) :
    Agrees now (filter.noteOutbound order now packet)
      (reference.noteOutbound now packet) := by
  cases tracked : outboundKey packet with
  | none =>
      rw [InboundFilter.noteOutbound_untracked tracked,
        ReferenceFilter.noteOutbound_untracked tracked]
      exact agrees
  | some key =>
      rw [ReferenceFilter.noteOutbound_of_key tracked] at capacity ⊢
      simp only [InboundFilter.noteOutbound, tracked]
      split
      next full =>
        have absent : filter.flows.contains key = false := by simpa using full.2
        have room := agrees.live_lt_maxFlows absent capacity
        have purged : InboundFilter.makeRoom filter.flows order now =
            filter.flows.retain (unexpired now) := by
          unfold InboundFilter.makeRoom
          dsimp only
          rw [if_neg (by omega)]
        rw [purged]
        have narrowed : Agrees now
            { filter with flows := filter.flows.retain (unexpired now) } reference := by
          apply agrees.narrow
          · intro other last stored
            exact ((FiniteTable.get?_retain_eq_some_iff _ _ _ _).mp stored).1
          · intro other last stored live
            exact (FiniteTable.get?_retain_eq_some_iff _ _ _ _).mpr ⟨stored, live⟩
        exact narrowed.insert key
      next => exact agrees.insert key

/-- An inbound packet meets the same verdict. -/
theorem allowInbound (agrees : Agrees now filter reference) (packet : Bytes) :
    (filter.allowInbound now packet).1 = (reference.allowInbound now packet).1 ∧
      Agrees now (filter.allowInbound now packet).2
        (reference.allowInbound now packet).2 := by
  rcases allowInbound_cases filter reference agrees.ports now packet with
    ⟨verdict, filterEq, referenceEq⟩ | ⟨key, filterEq, referenceEq⟩
  · rw [filterEq, referenceEq]
    exact ⟨rfl, agrees⟩
  · rw [filterEq, referenceEq]
    cases found : filter.flows.get? key with
    | some last =>
        simp only [agrees.sound key last found]
        split
        next live => exact ⟨rfl, agrees.insert key⟩
        next expired =>
          refine ⟨rfl, agrees.narrow ?_ ?_⟩
          · intro other seen stored
            by_cases same : other = key
            · subst same
              simp at stored
            · rwa [FiniteTable.get?_remove_of_ne _ same] at stored
          · intro other seen stored live
            by_cases same : other = key
            · subst same
              rw [found, Option.some.injEq] at stored
              subst stored
              exact absurd live expired
            · rwa [FiniteTable.get?_remove_of_ne _ same]
    | none =>
        cases there : reference.seen.get? key with
        | none => exact ⟨rfl, agrees⟩
        | some last =>
            have expired : unexpired now key last = false := by
              by_contra live
              have kept := agrees.complete key last there (by simpa using live)
              simp [found] at kept
            simp only [expired]
            exact ⟨rfl, agrees⟩

end Agrees

/-- Above capacity the bounded table may forget flows or remember them as
older, never as fresher. -/
structure Covers (filter : InboundFilter) (reference : ReferenceFilter) : Prop where
  ports : ∀ port, port ∈ filter.allowedPorts ↔ port ∈ reference.allowedPorts
  older : ∀ key last, filter.flows.get? key = some last →
    ∃ newer, reference.seen.get? key = some newer ∧ last ≤ newer

namespace Covers

variable {now : Nat} {filter : InboundFilter} {reference : ReferenceFilter}

theorem initial (ports : List UInt16) :
    Covers (InboundFilter.new ports) (ReferenceFilter.new ports) where
  ports := InboundFilter.mem_allowedPorts_new ports
  older key last stored := by simp at stored

theorem insert (covers : Covers filter reference) (key : FlowKey) (now : Nat) :
    Covers { filter with flows := filter.flows.insert key now }
      { reference with seen := reference.seen.insert key now } where
  ports := covers.ports
  older other last stored := by
    rw [FiniteTable.get?_insert] at stored ⊢
    split at stored
    next same =>
      simp only [Option.some.injEq] at stored
      exact ⟨now, if_pos same, stored.ge⟩
    next different =>
      rw [if_neg different]
      exact covers.older other last stored

theorem narrow (covers : Covers filter reference) {flows : FlowTable}
    (fewer : ∀ key last, flows.get? key = some last → filter.flows.get? key = some last) :
    Covers { filter with flows := flows } reference where
  ports := covers.ports
  older key last stored := covers.older key last (fewer key last stored)

theorem noteOutbound (covers : Covers filter reference)
    (order : FiniteTable.IterationOrder FlowKey Nat) (now : Nat) (packet : Bytes) :
    Covers (filter.noteOutbound order now packet) (reference.noteOutbound now packet) := by
  cases tracked : outboundKey packet with
  | none =>
      rw [InboundFilter.noteOutbound_untracked tracked,
        ReferenceFilter.noteOutbound_untracked tracked]
      exact covers
  | some key =>
      rw [ReferenceFilter.noteOutbound_of_key tracked]
      simp only [InboundFilter.noteOutbound, tracked]
      split
      · exact (covers.narrow fun _ _ => InboundFilter.get?_makeRoom).insert key now
      · exact covers.insert key now

theorem allowInbound (covers : Covers filter reference) (now : Nat) (packet : Bytes) :
    ((filter.allowInbound now packet).1 = true →
        (reference.allowInbound now packet).1 = true) ∧
      Covers (filter.allowInbound now packet).2 (reference.allowInbound now packet).2 := by
  rcases allowInbound_cases filter reference covers.ports now packet with
    ⟨verdict, filterEq, referenceEq⟩ | ⟨key, filterEq, referenceEq⟩
  · rw [filterEq, referenceEq]
    exact ⟨id, covers⟩
  · rw [filterEq, referenceEq]
    have refreshed (last : Nat) (there : reference.seen.get? key = some last) :
        Covers filter { reference with seen := reference.seen.insert key now } ∨
          ∃ stored, filter.flows.get? key = some stored := by
      cases found : filter.flows.get? key with
      | some stored => exact Or.inr ⟨stored, rfl⟩
      | none =>
          left
          refine ⟨covers.ports, ?_⟩
          intro other stored held
          have different : other ≠ key := by
            rintro rfl
            simp [found] at held
          rw [FiniteTable.get?_insert_of_ne _ different]
          exact covers.older other stored held
    cases found : filter.flows.get? key with
    | some last =>
        obtain ⟨newer, there, order⟩ := covers.older key last found
        simp only [there]
        by_cases live : unexpired now key last = true
        · have liveThere := unexpired_mono_seen order live
          simp only [live, liveThere, if_true]
          exact ⟨id, covers.insert key now⟩
        · simp only [if_neg live]
          refine ⟨by simp, ?_⟩
          have narrowed : Covers { filter with flows := filter.flows.remove key }
              reference := by
            apply covers.narrow
            intro other seen stored
            by_cases same : other = key
            · subst same
              simp at stored
            · rwa [FiniteTable.get?_remove_of_ne _ same] at stored
          split
          · refine ⟨narrowed.ports, ?_⟩
            intro other stored held
            have different : other ≠ key := by
              rintro rfl
              simp at held
            rw [FiniteTable.get?_insert_of_ne _ different]
            exact narrowed.older other stored held
          · exact narrowed
    | none =>
        refine ⟨by simp, ?_⟩
        cases there : reference.seen.get? key with
        | none => exact covers
        | some last =>
            dsimp only
            split
            · rcases refreshed last there with covered | ⟨stored, held⟩
              · exact covered
              · simp [found] at held
            · exact covers

end Covers

/-- Clock readings never go back. -/
def Chronological (calls : List Call) : Prop :=
  (calls.map Call.now).Pairwise (· ≤ ·)

/-- After every call the reference holds at most `maxFlows` unexpired flows. -/
def WithinCapacity (reference : ReferenceFilter) (calls : List Call) : Prop :=
  ∀ before call later, calls = before ++ call :: later →
    ((reference.after (before ++ [call])).liveFlows call.now).length ≤ maxFlows

theorem withinCapacity_nil (reference : ReferenceFilter) :
    WithinCapacity reference [] := by
  intro before call later callsEq
  simp at callsEq

theorem withinCapacity_cons {reference : ReferenceFilter} {call : Call}
    {calls : List Call} :
    WithinCapacity reference (call :: calls) ↔
      ((reference.step call).liveFlows call.now).length ≤ maxFlows ∧
        WithinCapacity (reference.step call) calls := by
  constructor
  · intro capacity
    constructor
    · exact capacity [] call calls rfl
    · intro before next later callsEq
      have := capacity (call :: before) next later (by simp [callsEq])
      simpa [ReferenceFilter.after] using this
  · rintro ⟨fits, capacity⟩ before next later callsEq
    cases before with
    | nil =>
        obtain ⟨rfl, rfl⟩ : call = next ∧ calls = later := by
          simpa using callsEq
        simpa [ReferenceFilter.after] using fits
    | cons first before =>
        obtain ⟨rfl, rfl⟩ : call = first ∧ calls = before ++ next :: later := by
          simpa using callsEq
        simpa [ReferenceFilter.after] using capacity before next later rfl

theorem verdicts_eq_of_agrees {now : Nat} {filter : InboundFilter}
    {reference : ReferenceFilter} (agrees : Agrees now filter reference)
    (calls : List Call) (notBefore : ∀ call ∈ calls, now ≤ call.now)
    (chronological : Chronological calls)
    (capacity : WithinCapacity reference calls) :
    filter.verdicts calls = reference.verdicts calls := by
  induction calls generalizing now filter reference with
  | nil => rfl
  | cons call calls ih =>
      have agreesNow := agrees.later (notBefore call (by simp))
      obtain ⟨upcoming, chronologicalTail⟩ := List.pairwise_cons.mp chronological
      have notBeforeTail : ∀ next ∈ calls, call.now ≤ next.now := by
        intro next member
        exact upcoming next.now (List.mem_map_of_mem member)
      obtain ⟨fits, capacityTail⟩ := withinCapacity_cons.mp capacity
      cases call with
      | noteOutbound order time packet =>
          have agreesAfter := agreesNow.noteOutbound order packet fits
          exact ih agreesAfter notBeforeTail chronologicalTail capacityTail
      | allowInbound time packet =>
          obtain ⟨sameVerdict, agreesAfter⟩ := agreesNow.allowInbound packet
          simp only [InboundFilter.verdicts, ReferenceFilter.verdicts]
          exact congrArg₂ _ sameVerdict
            (ih agreesAfter notBeforeTail chronologicalTail capacityTail)

theorem verdicts_le_of_covers {filter : InboundFilter} {reference : ReferenceFilter}
    (covers : Covers filter reference) (calls : List Call) :
    List.Forall₂ (fun bounded unbounded => bounded = true → unbounded = true)
      (filter.verdicts calls) (reference.verdicts calls) := by
  induction calls generalizing filter reference with
  | nil => exact .nil
  | cons call calls ih =>
      cases call with
      | noteOutbound order time packet => exact ih (covers.noteOutbound order time packet)
      | allowInbound time packet =>
          obtain ⟨admits, coversAfter⟩ := covers.allowInbound time packet
          exact .cons admits (ih coversAfter)

/-- The firewall refines the unbounded reference: same verdicts while the
reference stays within capacity, and never a verdict more permissive. -/
theorem filter_refines_reference (ports : List UInt16) (calls : List Call) :
    (Chronological calls → WithinCapacity (ReferenceFilter.new ports) calls →
        (InboundFilter.new ports).verdicts calls =
          (ReferenceFilter.new ports).verdicts calls) ∧
      List.Forall₂ (fun bounded unbounded => bounded = true → unbounded = true)
        ((InboundFilter.new ports).verdicts calls)
        ((ReferenceFilter.new ports).verdicts calls) := by
  constructor
  · intro chronological capacity
    exact verdicts_eq_of_agrees (Agrees.initial ports 0) calls
      (fun _ _ => Nat.zero_le _) chronological capacity
  · exact verdicts_le_of_covers (Covers.initial ports) calls

/-- A flow and its reply just inside the idle limit, then just past it. -/
theorem refinement_of_one_exchange :
    let calls : List Call :=
      [.noteOutbound .asKept 0 (pkt protoUdp (addr 1) 5000 (addr 2) 53),
        .allowInbound (seconds 179) (pkt protoUdp (addr 2) 53 (addr 1) 5000),
        .allowInbound (seconds 400) (pkt protoUdp (addr 2) 53 (addr 1) 5000)]
    (InboundFilter.new []).verdicts calls = [true, false] ∧
      (InboundFilter.new []).verdicts calls =
        (ReferenceFilter.new []).verdicts calls := by
  refine ⟨by decide, (filter_refines_reference [] _).1 (by unfold Chronological; decide) ?_⟩
  apply withinCapacity_cons.mpr
  refine ⟨by decide, withinCapacity_cons.mpr ⟨by decide, ?_⟩⟩
  exact withinCapacity_cons.mpr ⟨by decide, withinCapacity_nil _⟩

end Fips2Go.Filter
