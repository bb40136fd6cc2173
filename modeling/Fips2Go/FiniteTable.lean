import Mathlib.Data.List.Basic
import Mathlib.Data.List.MinMax
import Mathlib.Data.List.Nodup
import Mathlib.Data.List.Perm.Subperm

/-!
# Finite tables with distinct keys

A finite map from keys to values, kept as a list of entries whose keys are
distinct.  The list order carries no meaning: whatever iterates over a table
does so in an order of its own, given as a rearrangement of the entries.
-/

/-- A finite map; the distinctness of its keys is part of the value. -/
structure FiniteTable (Key Value : Type*) where
  entries : List (Key × Value)
  nodupKeys : (entries.map Prod.fst).Nodup

namespace FiniteTable

variable {Key Value : Type*}

def empty : FiniteTable Key Value := ⟨[], List.nodup_nil⟩

/-- Number of entries. -/
def size (table : FiniteTable Key Value) : Nat := table.entries.length

/-- Drop every entry that fails the test. -/
def retain (table : FiniteTable Key Value) (keep : Key → Value → Bool) :
    FiniteTable Key Value where
  entries := table.entries.filter fun entry => keep entry.1 entry.2
  nodupKeys := table.nodupKeys.sublist (List.filter_sublist.map _)

/-- One order in which the entries of a table are visited. -/
structure IterationOrder (Key Value : Type*) where
  arrange : List (Key × Value) → List (Key × Value)
  perm : ∀ entries, (arrange entries).Perm entries

/-- Visiting the entries in the order they are kept. -/
def IterationOrder.asKept : IterationOrder Key Value := ⟨id, fun _ => .refl _⟩

/-- The first entry of least value, in the given iteration order. -/
def minByValue [LinearOrder Value] (table : FiniteTable Key Value)
    (order : IterationOrder Key Value) : Option (Key × Value) :=
  (order.arrange table.entries).argmin Prod.snd

theorem nodup_entries (table : FiniteTable Key Value) : table.entries.Nodup :=
  List.Nodup.of_map _ table.nodupKeys

theorem size_retain_le (table : FiniteTable Key Value) (keep : Key → Value → Bool) :
    (table.retain keep).size ≤ table.size :=
  List.length_filter_le _ _

/-- A test that every entry passes drops nothing. -/
theorem retain_eq_self_of_entries {table : FiniteTable Key Value}
    {keep : Key → Value → Bool}
    (kept : ∀ entry ∈ table.entries, keep entry.1 entry.2 = true) :
    table.retain keep = table := by
  rcases table with ⟨entries, nodupKeys⟩
  have equal : entries.filter (fun entry => keep entry.1 entry.2) = entries :=
    List.filter_eq_self.mpr kept
  simp only [retain, equal]

/-- A table that loses no place loses no entry. -/
theorem retain_eq_self {table : FiniteTable Key Value} {keep : Key → Value → Bool}
    (large : table.size ≤ (table.retain keep).size) : table.retain keep = table := by
  have whole : table.entries.filter (fun entry => keep entry.1 entry.2) = table.entries :=
    List.filter_sublist.eq_of_length_le large
  exact retain_eq_self_of_entries (List.filter_eq_self.mp whole)

/-- A nonempty table has a least entry. -/
theorem minByValue_isSome [LinearOrder Value] {table : FiniteTable Key Value}
    (order : IterationOrder Key Value) (nonempty : 0 < table.size) :
    ∃ entry, table.minByValue order = some entry := by
  refine Option.isSome_iff_exists.mp (Option.isSome_iff_ne_none.mpr fun none => ?_)
  have empty : order.arrange table.entries = [] := List.argmin_eq_none.mp none
  have := (order.perm table.entries).length_eq
  rw [empty] at this
  simp only [size] at nonempty
  simp at this
  omega

variable [DecidableEq Key]

/-- The value stored under a key. -/
def get? (table : FiniteTable Key Value) (key : Key) : Option Value :=
  (table.entries.find? fun entry => entry.1 = key).map Prod.snd

def contains (table : FiniteTable Key Value) (key : Key) : Bool :=
  (table.get? key).isSome

def remove (table : FiniteTable Key Value) (key : Key) : FiniteTable Key Value :=
  table.retain fun other _ => other ≠ key

/-- Store a value under a key, replacing what was there. -/
def insert (table : FiniteTable Key Value) (key : Key) (value : Value) :
    FiniteTable Key Value where
  entries := (key, value) :: (table.remove key).entries
  nodupKeys := by
    refine List.nodup_cons.mpr ⟨?_, (table.remove key).nodupKeys⟩
    simp [remove, retain]

theorem get?_eq_some_iff (table : FiniteTable Key Value) (key : Key) (value : Value) :
    table.get? key = some value ↔ (key, value) ∈ table.entries := by
  rcases table with ⟨entries, nodupKeys⟩
  simp only [get?]
  induction entries with
  | nil => simp
  | cons entry entries ih =>
      obtain ⟨fresh, nodupRest⟩ := List.nodup_cons.mp nodupKeys
      by_cases same : entry.1 = key
      · have notLater : (key, value) ∉ entries := fun member =>
          fresh (by rw [same]; exact List.mem_map_of_mem member)
        rw [List.find?_cons_of_pos (by simpa using same)]
        constructor
        · intro equal
          simp only [Option.map_some, Option.some.injEq] at equal
          simp [← same, ← equal]
        · intro member
          rcases List.mem_cons.mp member with equal | later
          · simp [← equal]
          · exact absurd later notLater
      · rw [List.find?_cons_of_neg (by simpa using same), ih nodupRest]
        constructor
        · exact List.mem_cons_of_mem _
        · intro member
          rcases List.mem_cons.mp member with equal | later
          · exact absurd (by rw [← equal]) same
          · exact later

@[simp] theorem get?_empty (key : Key) :
    (empty : FiniteTable Key Value).get? key = none := rfl

theorem contains_iff (table : FiniteTable Key Value) (key : Key) :
    table.contains key = true ↔ ∃ value, table.get? key = some value := by
  simp [contains, Option.isSome_iff_exists]

theorem get?_retain_eq_some_iff (table : FiniteTable Key Value)
    (keep : Key → Value → Bool) (key : Key) (value : Value) :
    (table.retain keep).get? key = some value ↔
      table.get? key = some value ∧ keep key value = true := by
  simp [get?_eq_some_iff, retain]

theorem retain_eq_self_of_forall {table : FiniteTable Key Value}
    {keep : Key → Value → Bool}
    (kept : ∀ key value, table.get? key = some value → keep key value = true) :
    table.retain keep = table :=
  retain_eq_self_of_entries fun entry member =>
    kept entry.1 entry.2 ((table.get?_eq_some_iff _ _).mpr member)

@[simp] theorem get?_remove_self (table : FiniteTable Key Value) (key : Key) :
    (table.remove key).get? key = none := by
  refine Option.eq_none_iff_forall_ne_some.mpr fun value equal => ?_
  rw [remove, get?_retain_eq_some_iff] at equal
  simp at equal

theorem get?_remove_of_ne (table : FiniteTable Key Value) {key other : Key}
    (different : other ≠ key) : (table.remove key).get? other = table.get? other := by
  refine Option.ext fun value => ?_
  simp [remove, get?_retain_eq_some_iff, different]

@[simp] theorem get?_insert_self (table : FiniteTable Key Value)
    (key : Key) (value : Value) : (table.insert key value).get? key = some value := by
  simp [get?_eq_some_iff, insert]

theorem get?_insert_of_ne (table : FiniteTable Key Value) {key other : Key}
    (different : other ≠ key) (value : Value) :
    (table.insert key value).get? other = table.get? other := by
  refine Option.ext fun found => ?_
  rw [← get?_remove_of_ne table different]
  simp [get?_eq_some_iff, insert, different]

theorem get?_insert (table : FiniteTable Key Value) (key other : Key) (value : Value) :
    (table.insert key value).get? other =
      if other = key then some value else table.get? other := by
  split
  next same => rw [same, get?_insert_self]
  next different => exact get?_insert_of_ne table different value

/-- Removing a key that is present frees exactly one place. -/
theorem size_remove_of_contains (table : FiniteTable Key Value) {key : Key}
    (present : table.contains key = true) :
    (table.remove key).size + 1 = table.size := by
  obtain ⟨value, stored⟩ := (table.contains_iff key).mp present
  clear present
  rcases table with ⟨entries, nodupKeys⟩
  rw [get?_eq_some_iff] at stored
  simp only [size, remove, retain] at stored ⊢
  induction entries with
  | nil => simp at stored
  | cons entry entries ih =>
      obtain ⟨fresh, nodupRest⟩ := List.nodup_cons.mp nodupKeys
      by_cases same : entry.1 = key
      · have untouched : entries.filter (fun other => decide (other.1 ≠ key)) = entries := by
          refine List.filter_eq_self.mpr fun other member => ?_
          have : other.1 ≠ entry.1 := fun equal =>
            fresh (equal ▸ List.mem_map_of_mem member)
          simpa [same] using this
        rw [List.filter_cons_of_neg (by simpa using same), untouched]
        rfl
      · have later : (key, value) ∈ entries := by
          rcases List.mem_cons.mp stored with equal | later
          · exact absurd (by rw [← equal]) same
          · exact later
        rw [List.filter_cons_of_pos (by simpa using same)]
        simpa using ih nodupRest later

theorem size_insert_of_contains (table : FiniteTable Key Value) {key : Key}
    (present : table.contains key = true) (value : Value) :
    (table.insert key value).size = table.size :=
  table.size_remove_of_contains present

/-- A key that is absent takes one more place. -/
theorem size_insert_of_absent (table : FiniteTable Key Value) {key : Key}
    (absent : table.contains key = false) (value : Value) :
    (table.insert key value).size = table.size + 1 := by
  have untouched : (table.remove key).entries = table.entries := by
    refine List.filter_eq_self.mpr fun entry member => ?_
    have : entry.1 ≠ key := fun same => by
      have : table.contains key = true := by
        rw [contains_iff]
        exact ⟨entry.2, by rw [get?_eq_some_iff, ← same]; exact member⟩
      simp [absent] at this
    simpa using this
  simp [size, insert, untouched]

theorem size_insert_le (table : FiniteTable Key Value) (key : Key) (value : Value) :
    (table.insert key value).size ≤ table.size + 1 := by
  cases held : table.contains key with
  | true => exact (table.size_insert_of_contains held value).le.trans (Nat.le_succ _)
  | false => exact (table.size_insert_of_absent held value).le

theorem minByValue_mem [LinearOrder Value] {table : FiniteTable Key Value}
    {order : IterationOrder Key Value} {entry : Key × Value}
    (least : table.minByValue order = some entry) :
    table.get? entry.1 = some entry.2 := by
  rw [get?_eq_some_iff]
  exact (order.perm table.entries).subset (List.argmin_mem least)

theorem minByValue_le [LinearOrder Value] {table : FiniteTable Key Value}
    {order : IterationOrder Key Value} {entry : Key × Value}
    (least : table.minByValue order = some entry) {key : Key} {value : Value}
    (stored : table.get? key = some value) : entry.2 ≤ value := by
  rw [get?_eq_some_iff] at stored
  exact List.le_of_mem_argmin ((order.perm table.entries).mem_iff.mpr stored) least

end FiniteTable
