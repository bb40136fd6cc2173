import Fips2Go.ByteStrings
import Mathlib.Data.List.Infix

/-!
# Searching byte strings

The first place of a pattern in a byte string, found with a window that moves
over it, and slices that are only taken where the string has them.
-/

namespace Bytes

/-- `windows(n).position(..)` for a pattern of `n` octets. -/
def windowPosition (pattern : Bytes) : Bytes → Option Nat
  | [] => none
  | octet :: rest =>
      if pattern.isPrefixOf (octet :: rest) then some 0
      else (windowPosition pattern rest).map (· + 1)

/-- `get(..size)`. -/
def getTo (bytes : Bytes) (size : Nat) : Option Bytes :=
  if size ≤ bytes.length then some (bytes.take size) else none

/-- `get(start..)`. -/
def getFrom (bytes : Bytes) (start : Nat) : Option Bytes :=
  if start ≤ bytes.length then some (bytes.drop start) else none

variable {pattern bytes : Bytes}

/-- What is found is the pattern, and there is none of it before. -/
theorem windowPosition_spec {index : Nat} (found : windowPosition pattern bytes = some index) :
    ∃ before after, bytes = before ++ pattern ++ after ∧ before.length = index ∧
      (pattern ≠ [] → ¬ pattern <:+: before) := by
  induction bytes generalizing index with
  | nil => simp [windowPosition] at found
  | cons octet rest ih =>
      unfold windowPosition at found
      by_cases here : pattern.isPrefixOf (octet :: rest)
      · rw [if_pos here, Option.some.injEq] at found
        obtain ⟨after, whole⟩ := List.isPrefixOf_iff_prefix.mp here
        refine ⟨[], after, by simp [whole], found, ?_⟩
        intro nonempty inside
        exact nonempty (List.infix_nil.mp inside)
      · rw [if_neg here, Option.map_eq_some_iff] at found
        obtain ⟨later, found, rfl⟩ := found
        obtain ⟨before, after, whole, size, first⟩ := ih found
        refine ⟨octet :: before, after, by simp [whole], by simp [size], ?_⟩
        intro nonempty inside
        rcases List.infix_cons_iff.mp inside with front | inside
        · apply here
          rw [List.isPrefixOf_iff_prefix, whole]
          exact front.trans (by simp)
        · exact first nonempty inside

theorem windowPosition_eq_none_iff (nonempty : pattern ≠ []) :
    windowPosition pattern bytes = none ↔ ¬ pattern <:+: bytes := by
  induction bytes with
  | nil => simp [windowPosition, nonempty]
  | cons octet rest ih =>
      rw [windowPosition, List.infix_cons_iff, ← List.isPrefixOf_iff_prefix]
      split
      next here => simp [here]
      next absent => simp [absent, ih]

theorem exists_windowPosition (inside : pattern <:+: bytes) (nonempty : pattern ≠ []) :
    ∃ index, windowPosition pattern bytes = some index := by
  rw [← Option.ne_none_iff_exists']
  intro none
  exact (windowPosition_eq_none_iff nonempty).mp none inside

/-- A pattern is found at the same place when more octets follow. -/
theorem windowPosition_append {index : Nat} (found : windowPosition pattern bytes = some index)
    (more : Bytes) : windowPosition pattern (bytes ++ more) = some index := by
  induction bytes generalizing index with
  | nil => simp [windowPosition] at found
  | cons octet rest ih =>
      unfold windowPosition at found
      rw [List.cons_append, windowPosition, ← List.cons_append]
      by_cases here : pattern.isPrefixOf (octet :: rest)
      · rw [if_pos here] at found
        have front := (List.isPrefixOf_iff_prefix.mp here).trans
          (List.prefix_append (octet :: rest) more)
        rw [if_pos (List.isPrefixOf_iff_prefix.mpr front), found]
      · rw [if_neg here, Option.map_eq_some_iff] at found
        obtain ⟨later, found, rfl⟩ := found
        have absent : ¬ pattern.isPrefixOf (octet :: rest ++ more) := by
          intro front
          obtain ⟨before, after, whole, -, -⟩ := windowPosition_spec found
          have short : pattern.length ≤ (octet :: rest).length := by
            rw [whole]
            simp only [List.length_cons, List.length_append]
            omega
          exact here (List.isPrefixOf_iff_prefix.mpr (List.prefix_of_prefix_length_le
            (List.isPrefixOf_iff_prefix.mp front) (List.prefix_append _ _) short))
        rw [if_neg absent, ih found]
        rfl

/-- A pattern is not found in octets that do not have its first one. -/
theorem windowPosition_skip {first : UInt8} {line : Bytes} (absent : first ∉ line)
    (rest : Bytes) :
    windowPosition (first :: pattern) (line ++ rest) =
      (windowPosition (first :: pattern) rest).map (· + line.length) := by
  induction line with
  | nil => simp
  | cons octet line ih =>
      have notHere : ¬ (first :: pattern).isPrefixOf (octet :: (line ++ rest)) := by
        rw [List.isPrefixOf_iff_prefix, List.cons_prefix_cons]
        rintro ⟨rfl, -⟩
        exact absent List.mem_cons_self
      rw [List.cons_append, windowPosition, if_neg notHere,
        ih fun later => absent (List.mem_cons_of_mem octet later), Option.map_map]
      rfl

/-- A pattern of two different octets is found behind what does not have it. -/
theorem windowPosition_pair {first second : UInt8} (different : first ≠ second) {line : Bytes}
    (clean : ¬ [first, second] <:+: line) (rest : Bytes) :
    windowPosition [first, second] (line ++ first :: second :: rest) = some line.length := by
  induction line with
  | nil => simp [windowPosition]
  | cons octet line ih =>
      rw [List.infix_cons_iff, not_or] at clean
      have absent : ¬ [first, second].isPrefixOf (octet :: (line ++ first :: second :: rest)) := by
        rw [List.isPrefixOf_iff_prefix, List.cons_prefix_cons]
        rintro ⟨rfl, front⟩
        cases line with
        | nil =>
            rw [List.nil_append, List.cons_prefix_cons] at front
            exact different front.1.symm
        | cons next line =>
            rw [List.cons_append, List.cons_prefix_cons] at front
            apply clean.1
            simp [front.1]
      rw [List.cons_append, windowPosition, if_neg absent, ih clean.2]
      rfl

/-! ### Single octets -/

/-- The first place of an octet parts a byte string. -/
theorem parts_of_findIdx {octet : UInt8} {index : Nat}
    (found : bytes.findIdx? (· = octet) = some index) :
    bytes = bytes.take index ++ octet :: bytes.drop (index + 1) ∧ octet ∉ bytes.take index := by
  obtain ⟨within, here, before⟩ := List.findIdx?_eq_some_iff_getElem.mp found
  have same : bytes[index] = octet := by simpa using here
  refine ⟨?_, ?_⟩
  · rw [← same, ← List.drop_eq_getElem_cons within, List.take_append_drop]
  · intro member
    obtain ⟨earlier, bound, at_⟩ := List.mem_iff_getElem.mp member
    rw [List.getElem_take] at at_
    have absent := before earlier (by simp at bound; omega)
    simp [at_] at absent

theorem findIdx_of_parts {octet : UInt8} {before : Bytes} (absent : octet ∉ before)
    (after : Bytes) :
    (before ++ octet :: after).findIdx? (· = octet) = some before.length := by
  have none : before.findIdx? (· = octet) = none := by
    rw [List.findIdx?_eq_none_iff]
    intro other member
    rw [decide_eq_false_iff_not]
    rintro rfl
    exact absent member
  simp [List.findIdx?_append, none, List.findIdx?_cons]

/-! ### Slices -/

theorem getTo_of_le {size : Nat} (within : size ≤ bytes.length) :
    getTo bytes size = some (bytes.take size) := if_pos within

theorem getFrom_of_le {start : Nat} (within : start ≤ bytes.length) :
    getFrom bytes start = some (bytes.drop start) := if_pos within

theorem getTo_of_lt {size : Nat} (beyond : bytes.length < size) : getTo bytes size = none :=
  if_neg (Nat.not_le_of_lt beyond)

theorem getFrom_of_lt {start : Nat} (beyond : bytes.length < start) :
    getFrom bytes start = none :=
  if_neg (Nat.not_le_of_lt beyond)

end Bytes
