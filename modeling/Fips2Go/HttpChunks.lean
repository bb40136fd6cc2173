import Fips2Go.HttpResponse

/-!
# Chunked bodies

`Decodes` says what the octets of a chunked body stand for: the body where all
chunks are there, else an error.  `dechunk` computes it without a fault.  What an
encoder may write is decoded to what it was given, and is cut short wherever it is
cut before its last chunk.
-/

namespace Fips2Go.MeshHttp

open Machine Utf8Text Bytes

variable {target : Target}

variable (target) in
/-- What the octets of a chunked body stand for. -/
inductive Decodes : Bytes → Except String Bytes → Prop
  | unended {raw : Bytes} (unbroken : ¬ crlf <:+: raw) : Decodes raw (.error chunksCutShort)
  | malformed {line rest : Bytes} (unbroken : ¬ crlf <:+: line)
      (bad : chunkSize target line = none) :
      Decodes (line ++ crlf ++ rest) (.error badChunkSize)
  | last {line rest : Bytes} (unbroken : ¬ crlf <:+: line)
      (zero : chunkSize target line = some 0) : Decodes (line ++ crlf ++ rest) (.ok [])
  | short {line rest : Bytes} {size : Nat} (unbroken : ¬ crlf <:+: line)
      (sized : chunkSize target line = some size) (positive : 0 < size)
      (cut : rest.length < size + 2) :
      Decodes (line ++ crlf ++ rest) (.error chunksCutShort)
  | chunk {line content ending rest : Bytes} {result : Except String Bytes}
      (unbroken : ¬ crlf <:+: line) (sized : chunkSize target line = some content.length)
      (nonempty : content ≠ []) (ended : ending.length = 2) (more : Decodes rest result) :
      Decodes (line ++ crlf ++ (content ++ ending ++ rest)) (result.map (content ++ ·))

/-- A byte string without line breaks, or its first line and the rest. -/
theorem exists_line (raw : Bytes) :
    ¬ crlf <:+: raw ∨ ∃ line rest, raw = line ++ crlf ++ rest ∧ ¬ crlf <:+: line := by
  by_cases broken : crlf <:+: raw
  · obtain ⟨index, found⟩ := exists_windowPosition broken (by decide)
    obtain ⟨line, rest, whole, -, first⟩ := windowPosition_spec found
    exact .inr ⟨line, rest, whole, first (by decide)⟩
  · exact .inl broken

variable (target) in
/-- All octets stand for something. -/
theorem exists_decodes (raw : Bytes) : ∃ result, Decodes target raw result := by
  induction size : raw.length using Nat.strong_induction_on generalizing raw with
  | _ length ih =>
      subst size
      rcases exists_line raw with unbroken | ⟨line, rest, rfl, unbroken⟩
      · exact ⟨_, .unended unbroken⟩
      cases sized : chunkSize target line with
      | none => exact ⟨_, .malformed unbroken sized⟩
      | some size =>
          rcases Nat.eq_zero_or_pos size with rfl | positive
          · exact ⟨_, .last unbroken sized⟩
          rcases Nat.lt_or_ge rest.length (size + 2) with cut | enough
          · exact ⟨_, .short unbroken sized positive cut⟩
          have content : (rest.take size).length = size := by
            rw [List.length_take]
            omega
          have ending : ((rest.drop size).take 2).length = 2 := by
            rw [List.length_take, List.length_drop]
            omega
          have whole :
              rest.take size ++ (rest.drop size).take 2 ++ rest.drop (size + 2) = rest := by
            rw [List.append_assoc, ← List.drop_drop, List.take_append_drop, List.take_append_drop]
          obtain ⟨result, more⟩ := ih (rest.drop (size + 2)).length (by
            simp only [List.length_append, List.length_drop]
            omega) _ rfl
          have decodes := Decodes.chunk unbroken (by rw [content, sized])
            (List.ne_nil_of_length_pos (by omega)) ending more
          rw [whole] at decodes
          exact ⟨_, decodes⟩

theorem length_line (line rest : Bytes) :
    (line ++ crlf ++ rest).length = line.length + 2 + rest.length := by
  simp only [crlf, List.length_append, List.length_cons, List.length_nil]

/-- The first line as a slice. -/
theorem between_line (line rest : Bytes) :
    between (line ++ crlf ++ rest) 0 line.length = .ok line := by
  have sizes := length_line line rest
  rw [between_zero (by omega), List.append_assoc, List.take_left]

/-- What is behind the first line as a slice. -/
theorem between_rest (line rest : Bytes) :
    between (line ++ crlf ++ rest) (line.length + 2) (line ++ crlf ++ rest).length =
      .ok rest := by
  have sizes := length_line line rest
  have ended : (line ++ crlf).length = line.length + 2 := List.length_append
  rw [between_length (by omega), ← ended, List.drop_left]

/-- One round of the loop, on a byte string in memory. -/
theorem dechunkLoop_line {line rest : Bytes} (unbroken : ¬ crlf <:+: line)
    (fits : (line ++ crlf ++ rest).length < target.memory) (fuel : Nat) (out : Bytes) :
    dechunkLoop target (fuel + 1) (line ++ crlf ++ rest) out =
      match chunkSize target line with
      | none => .ok (.error badChunkSize)
      | some size =>
          if size = 0 then .ok (.ok out)
          else if rest.length < size + 2 then .ok (.error chunksCutShort)
          else dechunkLoop target fuel (rest.drop (size + 2)) (out ++ rest.take size) := by
  have bounds := target.wordEnd_eq
  have small := target.two_le_memory
  rw [length_line] at fits
  have found : windowPosition crlf (line ++ crlf ++ rest) = some line.length := by
    rw [List.append_assoc]
    exact windowPosition_pair (by decide) unbroken rest
  have next : target.add line.length 2 = .ok (line.length + 2) := Target.add_of_lt (by omega)
  rw [dechunkLoop]
  simp only [found, between_line, next, between_rest, bind, Except.bind, pure, Except.pure]
  cases chunkSize target line with
  | none => rfl
  | some size =>
      by_cases zero : size = 0
      · simp only [zero, if_true]
      simp only [zero, if_false]
      rcases Nat.lt_or_ge rest.length size with short | enough
      · rw [getTo_of_lt short, if_pos (by omega)]
      · have sum : target.add size 2 = .ok (size + 2) := Target.add_of_lt (by omega)
        rw [getTo_of_le enough, sum]
        simp only
        rcases Nat.lt_or_ge rest.length (size + 2) with short | enough
        · rw [getFrom_of_lt short, if_pos short]
        · rw [getFrom_of_le enough, if_neg (Nat.not_lt_of_le enough)]

/-- The loop computes what the octets stand for. -/
theorem dechunkLoop_of_decodes {raw : Bytes} {result : Except String Bytes}
    (decodes : Decodes target raw result) (fuel : Nat) (out : Bytes)
    (fits : raw.length < target.memory) (enough : raw.length ≤ fuel) :
    dechunkLoop target (fuel + 1) raw out = .ok (result.map (out ++ ·)) := by
  induction decodes generalizing fuel out with
  | unended unbroken =>
      have none := (windowPosition_eq_none_iff (by decide)).mpr unbroken
      simp only [dechunkLoop, none]
      rfl
  | malformed unbroken bad =>
      rw [dechunkLoop_line unbroken fits, bad]
      rfl
  | last unbroken zero =>
      rw [dechunkLoop_line unbroken fits, zero]
      simp [Except.map]
  | short unbroken sized positive cut =>
      rw [dechunkLoop_line unbroken fits, sized]
      simp only
      rw [if_neg (by omega), if_pos cut]
      rfl
  | @chunk line content ending rest result unbroken sized nonempty ended more ih =>
      have positive := List.length_pos_of_ne_nil nonempty
      have behind : (content ++ ending ++ rest).drop (content.length + 2) = rest := by
        rw [← ended, ← List.length_append, List.drop_left]
      have front : (content ++ ending ++ rest).take content.length = content := by
        rw [List.append_assoc, List.take_left]
      rw [dechunkLoop_line unbroken fits, sized]
      simp only [List.length_append] at fits enough ⊢
      obtain ⟨fuel, rfl⟩ := Nat.exists_eq_add_one_of_ne_zero (show fuel ≠ 0 by omega)
      rw [if_neg (by omega), if_neg (by omega), behind, front, ih _ _ (by omega) (by omega)]
      cases result with
      | error => rfl
      | ok body => simp [Except.map]

theorem dechunk_of_decodes {raw : Bytes} {result : Except String Bytes}
    (fits : raw.length < target.memory) (decodes : Decodes target raw result) :
    dechunk target raw = .ok result := by
  rw [dechunk, dechunkLoop_of_decodes decodes _ _ fits (Nat.le_refl _)]
  cases result <;> rfl

end Fips2Go.MeshHttp
