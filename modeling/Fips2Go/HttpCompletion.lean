import Fips2Go.HttpBounds

/-!
# Stopping to read a response early

`is_complete` goes by the content length alone, while `parse_response` reads the
chunks of a chunked response whatever length it declares.  What is read after a
response is complete changes its meaning exactly if it completes chunks.
-/

namespace Fips2Go.MeshHttp

open Machine Utf8Text Bytes

variable {target : Target} {data : Bytes}

variable (target) in
/-- The octets settle what the chunks are: they reach a last chunk or a size that
is none. -/
inductive Framed : Bytes → Prop
  | malformed {line rest : Bytes} (unbroken : ¬ crlf <:+: line)
      (bad : chunkSize target line = none) : Framed (line ++ crlf ++ rest)
  | last {line rest : Bytes} (unbroken : ¬ crlf <:+: line)
      (zero : chunkSize target line = some 0) : Framed (line ++ crlf ++ rest)
  | chunk {line content ending rest : Bytes} (unbroken : ¬ crlf <:+: line)
      (sized : chunkSize target line = some content.length) (nonempty : content ≠ [])
      (ended : ending.length = 2) (more : Framed rest) :
      Framed (line ++ crlf ++ (content ++ ending ++ rest))

theorem framed_of_decodes {raw : Bytes} {result : Except String Bytes}
    (decodes : Decodes target raw result) (whole : result ≠ .error chunksCutShort) :
    Framed target raw := by
  induction decodes with
  | unended => exact absurd rfl whole
  | malformed unbroken bad => exact .malformed unbroken bad
  | last unbroken zero => exact .last unbroken zero
  | short => exact absurd rfl whole
  | chunk unbroken sized nonempty ended more ih =>
      refine .chunk unbroken sized nonempty ended (ih ?_)
      rintro rfl
      exact whole rfl

/-- Settled chunks are the same whatever follows. -/
theorem Framed.exists_decodes {raw : Bytes} (framed : Framed target raw) :
    ∃ result, result ≠ .error chunksCutShort ∧ ∀ more, Decodes target (raw ++ more) result := by
  induction framed with
  | malformed unbroken bad =>
      refine ⟨.error badChunkSize, by decide, fun more => ?_⟩
      rw [List.append_assoc]
      exact .malformed unbroken bad
  | last unbroken zero =>
      refine ⟨.ok [], by simp, fun more => ?_⟩
      rw [List.append_assoc]
      exact .last unbroken zero
  | @chunk line content ending rest unbroken sized nonempty ended framed ih =>
      obtain ⟨result, whole, decodes⟩ := ih
      refine ⟨result.map (content ++ ·), ?_, fun more => ?_⟩
      · cases result with
        | error message => exact whole
        | ok body => simp [Except.map]
      · rw [List.append_assoc, List.append_assoc (content ++ ending)]
        exact .chunk unbroken sized nonempty ended (decodes more)

/-- Chunks that are not settled are cut short. -/
theorem dechunk_of_not_framed {raw : Bytes} (fits : raw.length < target.memory)
    (unsettled : ¬ Framed target raw) : dechunk target raw = .ok (.error chunksCutShort) := by
  obtain ⟨result, decodes⟩ := exists_decodes target raw
  have cut : result = .error chunksCutShort := by
    by_contra whole
    exact unsettled (framed_of_decodes decodes whole)
  exact dechunk_of_decodes fits (cut ▸ decodes)

theorem dechunk_ne_cutShort_of_framed {raw : Bytes} (fits : raw.length < target.memory)
    (framed : Framed target raw) : dechunk target raw ≠ .ok (.error chunksCutShort) := by
  obtain ⟨result, whole, decodes⟩ := framed.exists_decodes
  have alone := decodes []
  rw [List.append_nil] at alone
  rw [dechunk_of_decodes fits alone]
  exact fun same => whole (Except.ok.inj same)

/-- More octets change what is decoded exactly if they settle the chunks. -/
theorem dechunk_append_iff {raw more : Bytes} (fits : (raw ++ more).length < target.memory) :
    dechunk target (raw ++ more) = dechunk target raw ↔
      (Framed target (raw ++ more) → Framed target raw) := by
  have rawFits : raw.length < target.memory := by
    rw [List.length_append] at fits
    omega
  by_cases framed : Framed target raw
  · obtain ⟨result, -, decodes⟩ := framed.exists_decodes
    have alone := decodes []
    rw [List.append_nil] at alone
    rw [dechunk_of_decodes fits (decodes more), dechunk_of_decodes rawFits alone]
    exact ⟨fun _ _ => framed, fun _ => rfl⟩
  · rw [dechunk_of_not_framed rawFits framed]
    constructor
    · intro same later
      exact absurd same (dechunk_ne_cutShort_of_framed fits later)
    · intro settles
      exact dechunk_of_not_framed fits fun later => framed (settles later)

/-! ### Completed responses -/

/-- What follows the header block. -/
def bodyOctets (data : Bytes) : Bytes := data.drop ((headerLength data).getD 0)

/-- A response whose body `parse_response` reads as chunks. -/
def ReadsChunks (data : Bytes) : Prop :=
  ∃ last, headerLength data = some last ∧ (statusOf (headText data last)).isSome ∧
    isChunked (headText data last)

theorem headerLength_append {last : Nat} (found : headerLength data = some last) (more : Bytes) :
    headerLength (data ++ more) = some last := by
  obtain ⟨index, located, rfl⟩ := Option.map_eq_some_iff.mp found
  rw [headerLength, windowPosition_append located]
  rfl

/-- A complete response has a header block that declares a length, and as many
octets, or its length leaves the memory. -/
theorem length_of_complete (fits : data.length < target.memory)
    (complete : isComplete target data = .ok true) :
    ∃ last size, headerLength data = some last ∧
      contentLength target (headText data last) = some size ∧
      (size ≤ (data.drop last).length ∨ target.memory ≤ size) := by
  cases found : headerLength data with
  | none =>
      rw [isComplete_of_none fits found] at complete
      cases complete
  | some last =>
      rw [isComplete_of_some fits found] at complete
      cases declared : contentLength target (headText data last) with
      | none =>
          rw [declared] at complete
          cases complete
      | some size =>
          refine ⟨last, size, rfl, declared, ?_⟩
          have bounds := headerLength_le found
          have words := target.wordEnd_eq
          simp only [declared] at complete
          by_cases inWord : last + size < target.wordEnd
          · rw [Target.add_of_lt inWord] at complete
            have arrived : last + size ≤ data.length := by simpa [Except.map] using complete
            rw [List.length_drop]
            omega
          · omega

/-- Two parsings behind one header block. -/
theorem parseResponse_congr {other : Bytes} (fits : data.length < target.memory)
    (otherFits : other.length < target.memory) {last : Nat}
    (found : headerLength data = some last) (otherFound : headerLength other = some last)
    (same : headText other last = headText data last) :
    parseResponse target other = parseResponse target data ↔
      ((statusOf (headText data last)).isSome →
        bodyOf target (headText data last) (other.drop last) =
          bodyOf target (headText data last) (data.drop last)) := by
  rw [parseResponse_of_some fits found, parseResponse_of_some otherFits otherFound, same]
  cases statusOf (headText data last) with
  | none => simp
  | some status =>
      have rawFits : (data.drop last).length < target.memory := by
        rw [List.length_drop]
        omega
      have otherRawFits : (other.drop last).length < target.memory := by
        rw [List.length_drop]
        omega
      obtain ⟨body, read⟩ := exists_bodyOf (headText data last) rawFits
      obtain ⟨otherBody, otherRead⟩ := exists_bodyOf (headText data last) otherRawFits
      simp only [read, otherRead, Except.map, Option.isSome_some, forall_const, Except.ok.injEq]
      cases body <;> cases otherBody <;> simp

/-- A body of declared length is the same whatever follows it. -/
theorem getTo_append {raw more : Bytes} {size : Nat}
    (arrived : size ≤ raw.length ∨ (raw ++ more).length < size) :
    getTo (raw ++ more) size = getTo raw size := by
  have longer : (raw ++ more).length = raw.length + more.length := List.length_append
  rcases arrived with within | beyond
  · rw [getTo_of_le within, getTo_of_le (by omega), List.take_append_of_le_length within]
  · rw [getTo_of_lt beyond, getTo_of_lt (by omega)]

/-- What is read after a response is complete changes its parsing exactly if it is
read in chunks and these are settled by it. -/
theorem early_completion_agrees_iff (target : Target) {data more : Bytes}
    (fits : (data ++ more).length < target.memory)
    (complete : isComplete target data = .ok true) :
    parseResponse target (data ++ more) = parseResponse target data ↔
      (ReadsChunks data → Framed target (bodyOctets (data ++ more)) →
        Framed target (bodyOctets data)) := by
  have dataFits : data.length < target.memory := by
    rw [List.length_append] at fits
    omega
  obtain ⟨last, size, found, declared, arrived⟩ := length_of_complete dataFits complete
  have bounds := headerLength_le found
  have otherFound := headerLength_append found more
  have head : headText (data ++ more) last = headText data last := by
    rw [headText, headText, List.take_append_of_le_length bounds.2]
  have behind : (data ++ more).drop last = data.drop last ++ more :=
    List.drop_append_of_le_length bounds.2
  have rawFits : (data.drop last ++ more).length < target.memory := by
    rw [← behind, List.length_drop]
    omega
  have body : bodyOctets data = data.drop last := by rw [bodyOctets, found, Option.getD_some]
  have otherBody : bodyOctets (data ++ more) = data.drop last ++ more := by
    rw [bodyOctets, otherFound, Option.getD_some, behind]
  have reads : ReadsChunks data ↔ (statusOf (headText data last)).isSome ∧
      isChunked (headText data last) := by
    simp [ReadsChunks, found]
  rw [parseResponse_congr dataFits fits found otherFound head, behind, body, otherBody, reads]
  unfold bodyOf
  by_cases chunked : isChunked (headText data last) = true
  · simp only [chunked, if_true, and_true, dechunk_append_iff rawFits]
  · have same := getTo_append (arrived.imp_right rawFits.trans_le)
    simp [chunked, declared, same]

private def okResponse (fields : String) : Bytes :=
  encode ("HTTP/1.1 200 OK\r\n".toList ++ fields.toList ++ "\r\n\r\n".toList)

theorem declared_length_is_the_body :
    parseResponse ⟨.bits32, true⟩ (okResponse "Content-Length: 2" ++ [111, 107] ++ [1, 2, 3]) =
      parseResponse ⟨.bits32, true⟩ (okResponse "Content-Length: 2" ++ [111, 107]) := by
  refine (early_completion_agrees_iff ⟨.bits32, true⟩ (by decide +kernel) (by rfl)).mpr ?_
  rintro ⟨last, found, -, chunked⟩
  have length : headerLength (okResponse "Content-Length: 2" ++ [111, 107]) = some 38 := by rfl
  rw [length, Option.some.injEq] at found
  subst found
  exact absurd chunked (by decide +kernel)

/-- A response with both framing headers is complete while its first chunk is still
to come. -/
theorem chunks_outlast_declared_length :
    let data := okResponse "Content-Length: 3\r\nTransfer-Encoding: chunked" ++ [51, 13, 10]
    let more := [97, 98, 99, 13, 10, 48, 13, 10, 13, 10]
    isComplete ⟨.bits64, true⟩ data = .ok true ∧
      parseResponse ⟨.bits64, true⟩ data = .ok (.error chunksCutShort) ∧
      parseResponse ⟨.bits64, true⟩ (data ++ more) = .ok (.ok ⟨200, [97, 98, 99]⟩) := by
  refine ⟨?_, ?_, ?_⟩ <;> rfl

end Fips2Go.MeshHttp
