import Fips2Go.FilterSoundness

/-!
# The capacity of the flow table

The table never outgrows `maxFlows`, only outbound packets add to it, and a
flow that has not expired leaves it only to make room: for a new outbound
flow, when every place is taken by a live one, and then it is the stalest.
-/

namespace Fips2Go.Filter

/-- Every place of the table is taken by a flow that has not expired. -/
def FullOfLive (flows : FlowTable) (now : Nat) : Prop :=
  flows.size = maxFlows ∧
    ∀ key seen, flows.get? key = some seen → unexpired now key seen = true

/-- The outbound flow that a call brings and the table does not hold yet. -/
def Call.opened (flows : FlowTable) : Call → Option FlowKey
  | .noteOutbound _ _ packet => (outboundKey packet).filter fun key => !flows.contains key
  | .allowInbound .. => none

namespace InboundFilter

/-- Purging a table within its bound either frees a place, or finds every
place live and then frees the stalest one. -/
theorem makeRoom_cases {flows : FlowTable} (bounded : flows.size ≤ maxFlows)
    (order : FiniteTable.IterationOrder FlowKey Nat) (now : Nat) :
    ((flows.retain (unexpired now)).size < maxFlows ∧
        makeRoom flows order now = flows.retain (unexpired now)) ∨
      (FullOfLive flows now ∧ ∃ oldest, flows.minByValue order = some oldest ∧
        makeRoom flows order now = flows.remove oldest.1) := by
  by_cases full : maxFlows ≤ (flows.retain (unexpired now)).size
  · right
    have unchanged : flows.retain (unexpired now) = flows :=
      FiniteTable.retain_eq_self (bounded.trans full)
    have live : FullOfLive flows now := by
      refine ⟨le_antisymm bounded (unchanged ▸ full), ?_⟩
      intro key seen stored
      rw [← unchanged] at stored
      exact ((flows.get?_retain_eq_some_iff _ _ _).mp stored).2
    have nonempty : 0 < flows.size := by
      rw [live.1]
      decide
    obtain ⟨oldest, least⟩ := FiniteTable.minByValue_isSome order nonempty
    refine ⟨live, oldest, least, ?_⟩
    simp only [makeRoom, if_pos full]
    rw [unchanged, least]
  · left
    exact ⟨not_le.mp full, by simp only [makeRoom, if_neg full]⟩

theorem size_makeRoom_lt {flows : FlowTable} (bounded : flows.size ≤ maxFlows)
    (order : FiniteTable.IterationOrder FlowKey Nat) (now : Nat) :
    (makeRoom flows order now).size < maxFlows := by
  rcases makeRoom_cases bounded order now with ⟨room, equal⟩ | ⟨live, oldest, least, equal⟩
  · rw [equal]
    exact room
  · have present := (flows.contains_iff oldest.1).mpr ⟨_, FiniteTable.minByValue_mem least⟩
    have freed := flows.size_remove_of_contains present
    rw [equal]
    have := live.1
    omega

/-- What one inbound packet can do to the table. -/
theorem flows_allowInbound_cases (filter : InboundFilter) (now : Nat) (packet : Bytes) :
    (filter.allowInbound now packet).2.flows = filter.flows ∨
      ∃ key seen, filter.flows.get? key = some seen ∧
        ((filter.allowInbound now packet).2.flows = filter.flows.insert key now ∨
          (unexpired now key seen = false ∧
            (filter.allowInbound now packet).2.flows = filter.flows.remove key)) := by
  cases tracked : replyKey packet with
  | none => exact Or.inl (by rw [flows_allowInbound_untracked tracked])
  | some key =>
      by_cases listed : key.localPort ∈ filter.allowedPorts
      · exact Or.inl (by rw [allowInbound_listed tracked listed])
      · rw [allowInbound_of_key tracked listed]
        cases stored : filter.flows.get? key with
        | none => exact Or.inl rfl
        | some seen =>
            right
            refine ⟨key, seen, stored, ?_⟩
            cases live : unexpired now key seen with
            | true => exact Or.inl (by simp [live])
            | false => exact Or.inr ⟨rfl, by simp [live]⟩

/-- What one outbound packet can do to the table: nothing, a refresh, or a
new flow, for which room is made when there is none. -/
theorem flows_noteOutbound_cases (filter : InboundFilter)
    (order : FiniteTable.IterationOrder FlowKey Nat) (now : Nat) (packet : Bytes) :
    (outboundKey packet = none ∧ (filter.noteOutbound order now packet).flows = filter.flows) ∨
      ∃ key, outboundKey packet = some key ∧
        ((filter.flows.contains key = true ∧
            (filter.noteOutbound order now packet).flows = filter.flows.insert key now) ∨
          (filter.flows.contains key = false ∧ filter.flows.size < maxFlows ∧
            (filter.noteOutbound order now packet).flows = filter.flows.insert key now) ∨
          (filter.flows.contains key = false ∧ maxFlows ≤ filter.flows.size ∧
            (filter.noteOutbound order now packet).flows =
              (makeRoom filter.flows order now).insert key now)) := by
  cases tracked : outboundKey packet with
  | none => exact Or.inl ⟨rfl, by rw [noteOutbound_untracked tracked]⟩
  | some key =>
      right
      refine ⟨key, rfl, ?_⟩
      rw [flows_noteOutbound_of_key tracked]
      cases held : filter.flows.contains key with
      | true =>
          left
          exact ⟨rfl, by rw [if_neg (by simp)]⟩
      | false =>
          right
          by_cases full : maxFlows ≤ filter.flows.size
          · right
            exact ⟨rfl, full, by rw [if_pos ⟨full, by simp⟩]⟩
          · left
            exact ⟨rfl, not_le.mp full, by rw [if_neg (fun both => full both.1)]⟩

/-- One call keeps the table within its bound. -/
theorem size_step_le {filter : InboundFilter} (bounded : filter.flows.size ≤ maxFlows)
    (call : Call) : (filter.step call).flows.size ≤ maxFlows := by
  cases call with
  | noteOutbound order now packet =>
      simp only [step]
      rcases filter.flows_noteOutbound_cases order now packet with
        ⟨-, equal⟩ | ⟨key, -, ⟨held, equal⟩ | ⟨-, room, equal⟩ | ⟨-, -, equal⟩⟩
      · exact equal ▸ bounded
      · rw [equal, FiniteTable.size_insert_of_contains _ held]
        exact bounded
      · rw [equal]
        exact (filter.flows.size_insert_le key now).trans room
      · rw [equal]
        exact (FiniteTable.size_insert_le _ key now).trans (size_makeRoom_lt bounded order now)
  | allowInbound now packet =>
      simp only [step]
      rcases filter.flows_allowInbound_cases now packet with
        equal | ⟨key, seen, stored, equal | ⟨-, equal⟩⟩
      · exact equal ▸ bounded
      · have held := (filter.flows.contains_iff key).mpr ⟨seen, stored⟩
        rw [equal, FiniteTable.size_insert_of_contains _ held]
        exact bounded
      · rw [equal]
        exact (FiniteTable.size_retain_le _ _).trans bounded

theorem size_after_le {filter : InboundFilter} (bounded : filter.flows.size ≤ maxFlows)
    (calls : List Call) : (filter.after calls).flows.size ≤ maxFlows := by
  induction calls generalizing filter with
  | nil => exact bounded
  | cons call calls ih => exact ih (size_step_le bounded call)

/-- Inbound packets never add an entry. -/
theorem contains_of_allowInbound {filter : InboundFilter} {now : Nat} {packet : Bytes}
    {key : FlowKey} (held : (filter.allowInbound now packet).2.flows.contains key = true) :
    filter.flows.contains key = true := by
  rcases filter.flows_allowInbound_cases now packet with
    equal | ⟨other, seen, stored, equal | ⟨-, equal⟩⟩
  · exact equal ▸ held
  · rw [equal, FiniteTable.contains_iff, FiniteTable.get?_insert] at held
    by_cases same : key = other
    · exact (filter.flows.contains_iff key).mpr ⟨seen, same ▸ stored⟩
    · rw [if_neg same] at held
      exact (filter.flows.contains_iff key).mpr held
  · rw [equal, FiniteTable.contains_iff] at held
    obtain ⟨value, kept⟩ := held
    exact (filter.flows.contains_iff key).mpr
      ⟨value, ((filter.flows.get?_retain_eq_some_iff _ _ _).mp kept).1⟩

/-- An entry that is stored under a key survives the insertion of any other
entry. -/
private theorem contains_insert {flows : FlowTable} {key : FlowKey} {seen : Nat}
    (stored : flows.get? key = some seen) (other : FlowKey) (now : Nat) :
    (flows.insert other now).contains key = true := by
  rw [FiniteTable.contains_iff, FiniteTable.get?_insert]
  by_cases same : key = other
  · exact ⟨now, if_pos same⟩
  · exact ⟨seen, by rw [if_neg same, stored]⟩

/-- A live entry leaves the table only for a new outbound flow, when every
place is taken by a live entry. -/
theorem fullOfLive_of_leaves {filter : InboundFilter} (bounded : filter.flows.size ≤ maxFlows)
    {call : Call} {key : FlowKey} {seen : Nat} (stored : filter.flows.get? key = some seen)
    (live : unexpired call.now key seen = true)
    (left : (filter.step call).flows.contains key = false) :
    (call.opened filter.flows).isSome = true ∧ FullOfLive filter.flows call.now := by
  have held := (filter.flows.contains_iff key).mpr ⟨seen, stored⟩
  cases call with
  | noteOutbound order now packet =>
      simp only [step] at left
      simp only [Call.now] at live ⊢
      rcases filter.flows_noteOutbound_cases order now packet with
        ⟨-, equal⟩ | ⟨opened, tracked, ⟨-, equal⟩ | ⟨-, -, equal⟩ | ⟨absent, -, equal⟩⟩
      · rw [equal, held] at left
        simp at left
      · rw [equal, contains_insert stored] at left
        simp at left
      · rw [equal, contains_insert stored] at left
        simp at left
      · refine ⟨by simp [Call.opened, tracked, absent], ?_⟩
        rcases makeRoom_cases bounded order now with ⟨-, purged⟩ | ⟨full, -⟩
        · have kept : (filter.flows.retain (unexpired now)).get? key = some seen :=
            (filter.flows.get?_retain_eq_some_iff _ _ _).mpr ⟨stored, live⟩
          rw [equal, purged, contains_insert kept] at left
          simp at left
        · exact full
  | allowInbound now packet =>
      simp only [step] at left
      simp only [Call.now] at live
      rcases filter.flows_allowInbound_cases now packet with
        equal | ⟨other, last, found, equal | ⟨expired, equal⟩⟩
      · rw [equal, held] at left
        simp at left
      · rw [equal, contains_insert stored] at left
        simp at left
      · have different : key ≠ other := by
          intro same
          rw [same, found, Option.some.injEq] at stored
          rw [same, ← stored, expired] at live
          simp at live
        have kept := (filter.flows.get?_remove_of_ne different).trans stored
        rw [equal, (FiniteTable.contains_iff _ key).mpr ⟨seen, kept⟩] at left
        simp at left

/-- A new outbound flow that finds every place live takes the place of
exactly one entry, and none that stays was last seen before it. -/
theorem evicts_stalest {filter : InboundFilter} {call : Call} {opened : FlowKey}
    (opens : call.opened filter.flows = some opened)
    (full : FullOfLive filter.flows call.now) :
    ∃ gone seen, filter.flows.get? gone = some seen ∧
      (∀ key, (filter.flows.contains key = true ∧
        (filter.step call).flows.contains key = false) ↔ key = gone) ∧
      ∀ key last, (filter.step call).flows.get? key = some last → key ≠ opened →
        seen ≤ last := by
  cases call with
  | allowInbound now packet => simp [Call.opened] at opens
  | noteOutbound order now packet =>
      simp only [Call.opened, Option.filter_eq_some_iff, Bool.not_eq_true'] at opens
      simp only [Call.now] at full
      obtain ⟨tracked, absent⟩ := opens
      have room : ¬ (filter.flows.retain (unexpired now)).size < maxFlows := by
        have : filter.flows.retain (unexpired now) = filter.flows :=
          FiniteTable.retain_eq_self_of_forall full.2
        rw [this, full.1]
        exact lt_irrefl _
      obtain ⟨short, -⟩ | ⟨-, oldest, least, made⟩ :=
        makeRoom_cases full.1.le order now
      · exact absurd short room
      have stored := FiniteTable.minByValue_mem least
      have notOpened : oldest.1 ≠ opened := by
        intro same
        rw [(filter.flows.contains_iff opened).mpr ⟨_, same ▸ stored⟩] at absent
        simp at absent
      have flows : (filter.noteOutbound order now packet).flows =
          (filter.flows.remove oldest.1).insert opened now := by
        rw [flows_noteOutbound_of_key tracked, if_pos ⟨full.1.ge, by simp [absent]⟩, made]
      have found (key : FlowKey) (different : key ≠ opened) :
          (filter.noteOutbound order now packet).flows.get? key =
            (filter.flows.remove oldest.1).get? key := by
        rw [flows, FiniteTable.get?_insert_of_ne _ different]
      refine ⟨oldest.1, oldest.2, stored, ?_, ?_⟩
      · intro key
        simp only [step]
        constructor
        · rintro ⟨held, left⟩
          by_contra different
          have notNew : key ≠ opened := by
            intro same
            rw [same, absent] at held
            simp at held
          obtain ⟨last, storedHere⟩ := (filter.flows.contains_iff key).mp held
          have kept : (filter.noteOutbound order now packet).flows.get? key = some last := by
            rw [found key notNew, FiniteTable.get?_remove_of_ne _ different, storedHere]
          rw [(FiniteTable.contains_iff _ key).mpr ⟨last, kept⟩] at left
          simp at left
        · intro same
          subst same
          refine ⟨(filter.flows.contains_iff _).mpr ⟨_, stored⟩, ?_⟩
          simp [FiniteTable.contains, found _ notOpened]
      · intro key last kept different
        simp only [step] at kept
        rw [found key different, FiniteTable.remove,
          FiniteTable.get?_retain_eq_some_iff] at kept
        exact FiniteTable.minByValue_le least kept.1

/-- After any calls the table is within its bound; the next call adds no entry
if it is inbound, and takes a live entry out exactly when it brings a new
outbound flow and every place is live: one entry then, and the stalest.  The
clock readings of the calls are arbitrary. -/
theorem flow_table_bounded (ports : List UInt16) (calls : List Call) (call : Call) :
    ((new ports).after calls).flows.size ≤ maxFlows ∧
    (call.isInbound = true → ∀ key,
      (((new ports).after calls).step call).flows.contains key = true →
        ((new ports).after calls).flows.contains key = true) ∧
    (∀ key seen, ((new ports).after calls).flows.get? key = some seen →
      unexpired call.now key seen = true →
      (((new ports).after calls).step call).flows.contains key = false →
        (call.opened ((new ports).after calls).flows).isSome = true ∧
          FullOfLive ((new ports).after calls).flows call.now) ∧
    (∀ opened, call.opened ((new ports).after calls).flows = some opened →
      FullOfLive ((new ports).after calls).flows call.now →
        ∃ gone seen, ((new ports).after calls).flows.get? gone = some seen ∧
          (∀ key, (((new ports).after calls).flows.contains key = true ∧
            (((new ports).after calls).step call).flows.contains key = false) ↔ key = gone) ∧
          ∀ key last, (((new ports).after calls).step call).flows.get? key = some last →
            key ≠ opened → seen ≤ last) := by
  have bounded : ((new ports).after calls).flows.size ≤ maxFlows :=
    size_after_le (Nat.zero_le _) calls
  refine ⟨bounded, ?_, ?_, ?_⟩
  · intro inbound key held
    cases call with
    | noteOutbound order now packet => simp [Call.isInbound] at inbound
    | allowInbound now packet => exact contains_of_allowInbound held
  · intro key seen stored live left
    exact fullOfLive_of_leaves bounded stored live left
  · intro opened opens full
    exact evicts_stalest opens full

end InboundFilter

end Fips2Go.Filter
