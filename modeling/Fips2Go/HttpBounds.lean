import Fips2Go.HttpChunks

/-!
# Hostile responses

What the far node sends decides all lengths and positions.  Parsing a response
that is in memory never leaves it and never overflows a word, and its loop ends.
The one sum without a bound is in `is_complete`: the header length and the
declared content length.
-/

namespace Fips2Go.MeshHttp

open Machine Utf8Text Bytes

variable {target : Target} {data : Bytes}

/-- The length of the header block, if it is there. -/
def headerLength (data : Bytes) : Option Nat := (windowPosition blankLine data).map (· + 4)

/-- What a header block of that length is read as. -/
def headText (data : Bytes) (last : Nat) : Text := fromUtf8Lossy (data.take last)

theorem headerLength_le {last : Nat} (found : headerLength data = some last) :
    4 ≤ last ∧ last ≤ data.length := by
  obtain ⟨index, located, rfl⟩ := Option.map_eq_some_iff.mp found
  obtain ⟨before, after, rfl, size, -⟩ := windowPosition_spec located
  subst size
  simp [blankLine]

theorem headerEnd_eq (fits : data.length < target.memory) :
    headerEnd target data = .ok (headerLength data) := by
  unfold headerEnd
  cases found : windowPosition blankLine data with
  | none =>
      rw [headerLength, found]
      rfl
  | some index =>
      have length : headerLength data = some (index + 4) := by simp [headerLength, found]
      have bounds := headerLength_le length
      have sum : target.add index 4 = .ok (index + 4) := by
        apply Target.add_of_lt
        rw [target.wordEnd_eq]
        omega
      simp only [sum, length]
      rfl

/-- The header block as a slice. -/
theorem between_header {last : Nat} (found : headerLength data = some last) :
    between data 0 last = .ok (data.take last) :=
  between_zero (headerLength_le found).2

/-- What is behind the header block as a slice. -/
theorem between_body {last : Nat} (found : headerLength data = some last) :
    between data last data.length = .ok (data.drop last) :=
  between_length (headerLength_le found).2

theorem parseResponse_of_none (fits : data.length < target.memory)
    (absent : headerLength data = none) : parseResponse target data = .ok (.error noHeaders) := by
  rw [parseResponse, headerEnd_eq fits, absent]
  rfl

/-- Parsing behind a header block, whose slices are in range. -/
theorem parseResponse_of_some (fits : data.length < target.memory) {last : Nat}
    (found : headerLength data = some last) :
    parseResponse target data =
      match statusOf (headText data last) with
      | none => .ok (.error notHttp)
      | some status =>
          (bodyOf target (headText data last) (data.drop last)).map fun body =>
            body.map (⟨status, ·⟩) := by
  rw [parseResponse, headerEnd_eq fits, found]
  simp only [between_header found, between_body found, bind, Except.bind, headText]
  cases statusOf (fromUtf8Lossy (data.take last)) with
  | none => rfl
  | some status =>
      simp only
      cases bodyOf target (fromUtf8Lossy (data.take last)) (data.drop last) <;> rfl

theorem isComplete_of_none (fits : data.length < target.memory)
    (absent : headerLength data = none) : isComplete target data = .ok false := by
  rw [isComplete, headerEnd_eq fits, absent]
  rfl

theorem isComplete_of_some (fits : data.length < target.memory) {last : Nat}
    (found : headerLength data = some last) :
    isComplete target data =
      match contentLength target (headText data last) with
      | none => .ok false
      | some size => (target.add last size).map fun sum => decide (sum ≤ data.length) := by
  rw [isComplete, headerEnd_eq fits, found]
  simp only [between_header found, bind, Except.bind, headText]
  cases contentLength target (fromUtf8Lossy (data.take last)) with
  | none => rfl
  | some size =>
      simp only
      cases target.add last size <;> rfl

/-- A body is read or refused without a fault. -/
theorem exists_bodyOf (head : Text) {raw : Bytes} (fits : raw.length < target.memory) :
    ∃ body, bodyOf target head raw = .ok body := by
  unfold bodyOf
  split
  · obtain ⟨body, decodes⟩ := exists_decodes target raw
    exact ⟨body, dechunk_of_decodes fits decodes⟩
  split
  · split <;> exact ⟨_, rfl⟩
  · exact ⟨_, rfl⟩

theorem exists_parseResponse (fits : data.length < target.memory) :
    ∃ response, parseResponse target data = .ok response := by
  cases found : headerLength data with
  | none => exact ⟨_, parseResponse_of_none fits found⟩
  | some last =>
      rw [parseResponse_of_some fits found]
      cases statusOf (headText data last) with
      | none => exact ⟨_, rfl⟩
      | some status =>
          obtain ⟨body, read⟩ := exists_bodyOf (headText data last)
            ((List.length_drop.trans_le (Nat.sub_le _ _)).trans_lt fits)
          exact ⟨_, by rw [read]; rfl⟩

variable (target data) in
/-- No slice is out of range, no sum overflows, and the loop ends. -/
structure ParsesSafely : Prop where
  headerEnd : ∃ found, headerEnd target data = .ok found
  isComplete : ∃ complete, isComplete target data = .ok complete
  parseResponse : ∃ response, parseResponse target data = .ok response
  dechunk : ∃ body, dechunk target data = .ok body

variable (target data) in
/-- A declared content length and the header length have a sum in a word. -/
def LengthFits : Prop := ∀ last size, headerLength data = some last →
  contentLength target (headText data last) = some size → last + size < target.wordEnd

theorem lengthFits_iff {last : Nat} (found : headerLength data = some last) :
    LengthFits target data ↔ ∀ size, contentLength target (headText data last) = some size →
      last + size < target.wordEnd := by
  constructor
  · exact fun lengthFits size => lengthFits last size found
  · intro inWord other size same
    rw [found, Option.some.injEq] at same
    exact same ▸ inWord size

theorem isComplete_iff (checked : target.overflowChecks = true)
    (fits : data.length < target.memory) :
    (∃ complete, isComplete target data = .ok complete) ↔ LengthFits target data := by
  cases found : headerLength data with
  | none => simp [isComplete_of_none fits found, LengthFits, found]
  | some last =>
      rw [isComplete_of_some fits found, lengthFits_iff found]
      cases contentLength target (headText data last) with
      | none => simp
      | some size =>
          by_cases inWord : last + size < target.wordEnd
          · simp [Target.add_of_lt inWord, Except.map, inWord]
          · simp [Target.add, checked, inWord, Except.map]

/-- Parsing is safe on every response in memory whose declared length fits into a
word together with its header. -/
theorem parses_safely_iff_length_fits (wordSize : WordSize) (data : Slice ⟨wordSize, true⟩) :
    ParsesSafely ⟨wordSize, true⟩ data.val ↔ LengthFits ⟨wordSize, true⟩ data.val := by
  obtain ⟨data, fits⟩ := data
  constructor
  · exact fun safe => (isComplete_iff rfl fits).mp safe.isComplete
  · intro lengthFits
    obtain ⟨body, decodes⟩ := exists_decodes ⟨wordSize, true⟩ data
    exact ⟨⟨_, headerEnd_eq fits⟩, (isComplete_iff rfl fits).mpr lengthFits,
      exists_parseResponse fits, ⟨body, dechunk_of_decodes fits decodes⟩⟩

/-- A response that declares a length. -/
def declaring (length : String) : Bytes :=
  encode ("HTTP/1.1 200 OK\r\nContent-Length: ".toList ++ length.toList ++ "\r\n\r\n".toList)

/-- The largest word as a declared length overflows, or, where nothing checks, makes
a response complete whose body has not arrived. -/
theorem largest_length_overflows :
    isComplete ⟨.bits32, true⟩ (declaring "4294967295") = .error .overflow ∧
      isComplete ⟨.bits64, true⟩ (declaring "18446744073709551615") = .error .overflow ∧
      isComplete ⟨.bits64, false⟩ (declaring "18446744073709551615") = .ok true := by
  refine ⟨?_, ?_, ?_⟩ <;> rfl

end Fips2Go.MeshHttp
