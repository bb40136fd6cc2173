import Fips2Go.DnsMessage
import Fips2Go.Machine

/-!
# Re-issuing a reply, step by step

`answer_as_asked` and `question_end` of `shim/src/dns.rs` with every index,
slice and sum as the program does them.  On any two byte strings in memory
nothing is out of range, no sum overflows and all loops end, and what is
returned is laid out as a message: the query's id and question, and as many
address records as are counted.
-/

namespace Fips2Go.Dns

open Machine (Target Slice Checked octetAt between)

/-- `bytes[first..last].copy_from_slice(source)`. -/
def copyFromSlice (bytes : Bytes) (first last : Nat) (source : Bytes) : Checked Bytes :=
  if first ≤ last ∧ last ≤ bytes.length ∧ source.length = last - first then
    .ok (bytes.take first ++ source ++ bytes.drop last)
  else .error .outOfRange

/-- `get(first..last)`. -/
def getRange (bytes : Bytes) (first last : Nat) : Option Bytes :=
  if first ≤ last ∧ last ≤ bytes.length then some ((bytes.drop first).take (last - first))
  else none

section Program

variable (target : Target)

/-- The name loop of `question_end`, given a bound on its rounds. -/
def readQuestionName (message : Bytes) : Nat → Nat → Checked (Option Nat)
  | 0, _ => .error .unending
  | rounds + 1, pos =>
      match message[pos]? with
      | none => .ok none
      | some len =>
          if len = 0 then .ok (some pos)
          else if len &&& 0xc0 = 0 then do
            let step ← target.add 1 len.toNat
            let pos ← target.add pos step
            readQuestionName message rounds pos
          else .ok none

def readQuestionEnd (message : Bytes) : Checked (Option Nat) := do
  match ← readQuestionName target message (message.length + 1) 12 with
  | none => return none
  | some pos =>
      let last ← target.add pos 5
      return if message.length ≥ last then some last else none

/-- The owner-name loop of `answer_as_asked`, given a bound on its rounds. -/
def readOwner (reply : Bytes) : Nat → Nat → Checked (Option Nat)
  | 0, _ => .error .unending
  | rounds + 1, pos =>
      match reply[pos]? with
      | none => .ok none
      | some len =>
          if len = 0 then do return some (← target.add pos 1)
          else if len &&& 0xc0 = 0xc0 then do return some (← target.add pos 2)
          else do
            let step ← target.add 1 len.toNat
            let pos ← target.add pos step
            readOwner reply rounds pos

/-- `answers += 1`, on 16 bits. -/
def countAnswer (answers : Nat) : Checked Nat :=
  if answers + 1 < 2 ^ 16 then .ok (answers + 1)
  else if target.overflowChecks then .error .overflow
  else .ok ((answers + 1) % 2 ^ 16)

/-- The record loop of `answer_as_asked`, with the octets put out so far. -/
def readRecords (reply : Bytes) : Nat → Nat → Bytes → Nat → Checked (Option (Bytes × Nat))
  | 0, _, out, answers => .ok (some (out, answers))
  | count + 1, pos, out, answers => do
      match ← readOwner target reply (reply.length + 1) pos with
      | none => return none
      | some pos =>
          let start ← target.add pos 10
          match getRange reply pos start with
          | none => return none
          | some fixed =>
              let rdlen := (Bytes.be16 (← octetAt fixed 8) (← octetAt fixed 9)).toNat
              let last ← target.add start rdlen
              match getRange reply start last with
              | none => return none
              | some rdata =>
                  let type := Bytes.be16 (← octetAt fixed 0) (← octetAt fixed 1)
                  let step ← target.add 10 rdlen
                  let next ← target.add pos step
                  if type = typeAaaa ∧ rdlen = 16 then
                    let answers ← countAnswer target answers
                    readRecords reply count next (out ++ [0xc0, 0x0c] ++ fixed ++ rdata) answers
                  else readRecords reply count next out answers

def readAnswerAsAsked (query reply : Bytes) : Checked (Option Bytes) := do
  match ← readQuestionEnd target query with
  | none => return none
  | some qend =>
      let out ← between query 0 qend
      match getRange reply 2 4 with
      | none => return none
      | some flags =>
          let out ← copyFromSlice out 2 4 flags
          let out ← copyFromSlice out 4 12 [0, 1, 0, 0, 0, 0, 0, 0]
          match ← readQuestionEnd target reply with
          | none => return none
          | some pos =>
              let count := (Bytes.be16 (← octetAt reply 6) (← octetAt reply 7)).toNat
              match ← readRecords target reply count pos out 0 with
              | none => return none
              | some (out, answers) =>
                  return some (← copyFromSlice out 6 8 (Bytes.toBe16 (UInt16.ofNat answers)))

end Program

/-! ### Nothing faults -/

section Bounds

variable {target : Target} {message reply : Bytes}

theorem getRange_add (bytes : Bytes) (first size : Nat) :
    getRange bytes first (first + size) = bytes.slice? first size := by
  simp [getRange, Bytes.slice?]

theorem copyFromSlice_append {before old after source : Bytes} {first last : Nat}
    (starts : before.length = first) (ends : first + old.length = last)
    (sized : source.length = old.length) :
    copyFromSlice (before ++ old ++ after) first last source = .ok (before ++ source ++ after) := by
  have fits : first ≤ last ∧ last ≤ (before ++ old ++ after).length ∧
      source.length = last - first := by
    simp only [List.length_append]
    omega
  have front : (before ++ old ++ after).take first = before := by
    rw [List.append_assoc]
    exact List.take_left' starts
  have back : (before ++ old ++ after).drop last = after :=
    List.drop_left' (by rw [List.length_append, starts, ends])
  rw [copyFromSlice, if_pos fits, front, back]

/-- A sum that stays below memory and a little more does not overflow. -/
theorem add_of_le (fits : message.length < target.memory) (first second : Nat)
    (small : first ≤ message.length + 65536) (little : second ≤ 65545) :
    target.add first second = .ok (first + second) := by
  apply Machine.Target.add_of_lt
  have := target.wordEnd_eq
  have := target.memory_large
  omega

theorem readQuestionName_eq (fits : message.length < target.memory) (rounds fuel pos : Nat)
    (enough : message.length ≤ rounds + pos) (pureEnough : message.length ≤ fuel + pos) :
    readQuestionName target message (rounds + 1) pos = .ok (questionNameEnd message fuel pos) := by
  induction rounds generalizing fuel pos with
  | zero =>
      have beyond : message[pos]? = none := List.getElem?_eq_none (by omega)
      have none : questionNameEnd message fuel pos = none := by
        cases fuel with
        | zero => rfl
        | succ fuel => simp only [questionNameEnd, beyond]
      simp only [readQuestionName, beyond, none]
  | succ rounds ih =>
      cases octet : message[pos]? with
      | none =>
          have none : questionNameEnd message fuel pos = none := by
            cases fuel with
            | zero => rfl
            | succ fuel => simp only [questionNameEnd, octet]
          simp only [readQuestionName, octet, none]
      | some len =>
          have within := (List.getElem?_eq_some_iff.mp octet).1
          have small := len.toNat_lt
          obtain ⟨fuel, rfl⟩ : ∃ more, fuel = more + 1 := ⟨fuel - 1, by omega⟩
          have step := add_of_le fits 1 len.toNat (by omega) (by omega)
          have moved := add_of_le fits pos (1 + len.toNat) (by omega) (by omega)
          have next := ih fuel (pos + (1 + len.toNat)) (by omega) (by omega)
          rw [readQuestionName, questionNameEnd]
          simp only [octet, step, moved, bind, Except.bind, next, Nat.add_assoc pos 1]
          split
          · rfl
          · split <;> rfl

theorem readQuestionEnd_eq (fits : message.length < target.memory) :
    readQuestionEnd target message = .ok (questionEnd message) := by
  have name := readQuestionName_eq fits message.length message.length 12 (by omega) (by omega)
  rw [readQuestionEnd, questionEnd, name]
  cases ended : questionNameEnd message message.length 12 with
  | none => rfl
  | some pos =>
      have inside := questionNameEnd_lt ended
      have last := add_of_le fits pos 5 (by omega) (by omega)
      simp only [bind, Except.bind, last]
      rfl

theorem readOwner_eq (fits : reply.length < target.memory) (rounds fuel pos : Nat)
    (enough : reply.length ≤ rounds + pos) (pureEnough : reply.length ≤ fuel + pos) :
    readOwner target reply (rounds + 1) pos = .ok (ownerEnd reply fuel pos) := by
  induction rounds generalizing fuel pos with
  | zero =>
      have beyond : reply[pos]? = none := List.getElem?_eq_none (by omega)
      have none : ownerEnd reply fuel pos = none := by
        cases fuel with
        | zero => rfl
        | succ fuel => simp only [ownerEnd, beyond]
      simp only [readOwner, beyond, none]
  | succ rounds ih =>
      cases octet : reply[pos]? with
      | none =>
          have none : ownerEnd reply fuel pos = none := by
            cases fuel with
            | zero => rfl
            | succ fuel => simp only [ownerEnd, octet]
          simp only [readOwner, octet, none]
      | some len =>
          have within := (List.getElem?_eq_some_iff.mp octet).1
          have small := len.toNat_lt
          obtain ⟨fuel, rfl⟩ : ∃ more, fuel = more + 1 := ⟨fuel - 1, by omega⟩
          have one := add_of_le fits pos 1 (by omega) (by omega)
          have two := add_of_le fits pos 2 (by omega) (by omega)
          have step := add_of_le fits 1 len.toNat (by omega) (by omega)
          have moved := add_of_le fits pos (1 + len.toNat) (by omega) (by omega)
          have next := ih fuel (pos + (1 + len.toNat)) (by omega) (by omega)
          rw [readOwner, ownerEnd]
          simp only [octet, one, two, step, moved, bind, Except.bind, next, Nat.add_assoc pos 1]
          split
          · rfl
          · split <;> rfl

/-- The header of a message, and the octets that are written over in it. -/
theorem exists_header {octets : Bytes} (long : 12 ≤ octets.length) : ∃ flags counts,
    flags.length = 2 ∧ counts.length = 8 ∧
      octets = octets.take 2 ++ flags ++ (counts ++ octets.drop 12) := by
  refine ⟨(octets.drop 2).take 2, (octets.drop 4).take 8, ?_, ?_, ?_⟩
  · rw [List.length_take, List.length_drop]
    omega
  · rw [List.length_take, List.length_drop]
    omega
  · have counts := List.take_append_drop 8 (octets.drop 4)
    have flags := List.take_append_drop 2 (octets.drop 2)
    rw [List.drop_drop] at counts flags
    rw [counts, List.append_assoc, flags, List.take_append_drop]

/-- Ten octets, one by one. -/
theorem exists_ten : ∀ {octets : Bytes}, octets.length = 10 →
    ∃ t0 t1 c0 c1 l0 l1 l2 l3 r0 r1, octets = [t0, t1, c0, c1, l0, l1, l2, l3, r0, r1]
  | [t0, t1, c0, c1, l0, l1, l2, l3, r0, r1], _ =>
      ⟨t0, t1, c0, c1, l0, l1, l2, l3, r0, r1, rfl⟩

theorem countAnswer_of_lt {answers : Nat} (few : answers + 1 < 2 ^ 16) :
    countAnswer target answers = .ok (answers + 1) :=
  if_pos few

/-- The record loop puts out the records of the plain one behind what is there. -/
theorem readRecords_eq (fits : reply.length < target.memory) (count : Nat) {pos : Nat}
    (answers : Nat)
    (inside : pos ≤ reply.length) (few : answers + count < 2 ^ 16) (out records : Bytes) :
    readRecords target reply count pos (out ++ records) answers =
      .ok ((answerRecords reply count pos records answers).map
        fun (records, answers) => (out ++ records, answers)) := by
  induction count generalizing pos records answers with
  | zero => rfl
  | succ count ih =>
      have owner := readOwner_eq fits reply.length reply.length pos (by omega) (by omega)
      rw [readRecords, answerRecords, owner]
      cases ended : ownerEnd reply reply.length pos with
      | none => rfl
      | some pos =>
          have close := ownerEnd_le ended
          have start := add_of_le fits pos 10 (by omega) (by omega)
          simp only [bind, Except.bind, start, getRange_add]
          cases sliced : reply.slice? pos 10 with
          | none => rfl
          | some fixed =>
              obtain ⟨within, ten⟩ := Bytes.slice?_bounds sliced
              obtain ⟨t0, t1, c0, c1, l0, l1, l2, l3, r0, r1, rfl⟩ := exists_ten ten
              have small := (Bytes.be16 r0 r1).toNat_lt
              have last := add_of_le fits (pos + 10) (Bytes.be16 r0 r1).toNat (by omega) (by omega)
              have step := add_of_le fits 10 ((Bytes.be16 r0 r1).toNat) (by omega) (by omega)
              have next := add_of_le fits pos (10 + (Bytes.be16 r0 r1).toNat) (by omega) (by omega)
              simp only [octetAt, List.getElem?_cons_succ, List.getElem?_cons_zero, last, step,
                next, getRange_add]
              cases carried : reply.slice? (pos + 10) (Bytes.be16 r0 r1).toNat with
              | none => rfl
              | some rdata =>
                  have within := (Bytes.slice?_bounds carried).1
                  have counted : countAnswer target answers = .ok (answers + 1) :=
                    countAnswer_of_lt (by omega)
                  simp only [Nat.add_assoc pos 10]
                  split
                  · simp only [counted]
                    rw [← ih (answers + 1) (by omega) (by omega)]
                    simp only [List.append_assoc]
                  · exact ih answers (by omega) (by omega) records

/-- The program computes what the plain function does. -/
theorem readAnswerAsAsked_eq {query : Bytes} (queryFits : query.length < target.memory)
    (fits : reply.length < target.memory) :
    readAnswerAsAsked target query reply = .ok (answerAsAsked query reply) := by
  rw [readAnswerAsAsked, readQuestionEnd_eq queryFits, answerAsAsked]
  cases asked : questionEnd query with
  | none => rfl
  | some qend =>
      obtain ⟨long, within⟩ := questionEnd_bounds asked
      have whole : between query 0 qend = .ok (query.take qend) := Machine.between_zero within
      have range : getRange reply 2 4 = reply.slice? 2 2 := getRange_add reply 2 2
      simp only [bind, Except.bind, whole, range]
      cases read : reply.slice? 2 2 with
      | none => rfl
      | some flags =>
          have flagsSized := (Bytes.slice?_bounds read).2
          have idSized : (query.take 2).length = 2 := List.length_take_of_le (by omega)
          obtain ⟨oldFlags, oldCounts, twoFlags, eightCounts, layout⟩ :=
            exists_header (show 12 ≤ (query.take qend).length by rw [List.length_take]; omega)
          rw [List.take_take, Nat.min_eq_left (by omega)] at layout
          obtain ⟨question, asks⟩ : ∃ question, (query.take qend).drop 12 = question := ⟨_, rfl⟩
          rw [asks] at layout
          have first : copyFromSlice (query.take qend) 2 4 flags =
              .ok (query.take 2 ++ flags ++ (oldCounts ++ question)) := by
            rw [layout]
            exact copyFromSlice_append idSized (by rw [twoFlags]) (by rw [twoFlags, flagsSized])
          have second : copyFromSlice (query.take 2 ++ flags ++ (oldCounts ++ question))
              4 12 [0, 1, 0, 0, 0, 0, 0, 0] =
                .ok (query.take 2 ++ flags ++ [0, 1, 0, 0, 0, 0, 0, 0] ++ question) := by
            rw [← List.append_assoc]
            exact copyFromSlice_append (by rw [List.length_append, idSized, flagsSized])
              (by rw [eightCounts]) (by rw [eightCounts]; rfl)
          simp only [first, second, readQuestionEnd_eq fits]
          cases ended : questionEnd reply with
          | none => rfl
          | some pos =>
              obtain ⟨behind, inside⟩ := questionEnd_bounds ended
              have sixth : reply[6]? = some reply[6] := List.getElem?_eq_getElem (by omega)
              have seventh : reply[7]? = some reply[7] := List.getElem?_eq_getElem (by omega)
              have counts : reply.slice? 6 2 = some [reply[6], reply[7]] :=
                Bytes.slice?_two (by omega)
              have small := (Bytes.be16 reply[6] reply[7]).toNat_lt
              have records := readRecords_eq fits (Bytes.be16 reply[6] reply[7]).toNat 0 inside
                (by omega) (query.take 2 ++ flags ++ [0, 1, 0, 0, 0, 0, 0, 0] ++ question) []
              rw [List.append_nil] at records
              simp only [octetAt, sixth, seventh, records, counts]
              cases read : answerRecords reply (Bytes.be16 reply[6] reply[7]).toNat pos [] 0 with
              | none => rfl
              | some found =>
                  obtain ⟨records, answers⟩ := found
                  have split : query.take 2 ++ flags ++ [0, 1, 0, 0, 0, 0, 0, 0] ++ question ++
                      records = (query.take 2 ++ flags ++ [0, 1]) ++ [0, 0] ++
                        ([0, 0, 0, 0] ++ question ++ records) := by simp
                  have third : copyFromSlice (query.take 2 ++ flags ++ [0, 1, 0, 0, 0, 0, 0, 0] ++
                      question ++ records) 6 8 (Bytes.toBe16 (UInt16.ofNat answers)) =
                        .ok ((query.take 2 ++ flags ++ [0, 1]) ++
                          Bytes.toBe16 (UInt16.ofNat answers) ++
                            ([0, 0, 0, 0] ++ question ++ records)) := by
                    rw [split]
                    refine copyFromSlice_append ?_ rfl rfl
                    simp [idSized, flagsSized]
                  simp only [Option.map_some, third, pure, Except.pure, asks]
                  simp

end Bounds

/-! ### What is returned -/

/-- An address record as it is re-issued: its owner is the name at offset 12. -/
structure AddressRecord where
  cls : FixedBytes 2
  ttl : FixedBytes 4
  rdata : FixedBytes 16

def AddressRecord.bytes (record : AddressRecord) : Bytes :=
  [0xc0, 0x0c] ++ Bytes.toBe16 typeAaaa ++ record.cls.1 ++ record.ttl.1 ++ Bytes.toBe16 16 ++
    record.rdata.1

/-- The query's id and question with the counts of a reply to it, and the
records counted. -/
structure Reissued (query out : Bytes) (qend : Nat) (records : List AddressRecord) : Prop where
  asked : questionEnd query = some qend
  few : records.length < 2 ^ 16
  layout : ∃ flags : FixedBytes 2,
    out = query.take 2 ++ flags.1 ++
      (Bytes.toBe16 1 ++ Bytes.toBe16 (UInt16.ofNat records.length) ++ Bytes.toBe16 0 ++
        Bytes.toBe16 0) ++
      (query.take qend).drop 12 ++ records.flatMap AddressRecord.bytes

theorem AddressRecord.length_bytes (record : AddressRecord) : record.bytes.length = 28 := by
  simp [bytes, record.cls.2, record.ttl.2, record.rdata.2]

theorem length_flatMap_bytes (records : List AddressRecord) :
    (records.flatMap AddressRecord.bytes).length = 28 * records.length := by
  induction records with
  | nil => rfl
  | cons record records ih =>
      rw [List.flatMap_cons, List.length_append, ih, record.length_bytes, List.length_cons]
      omega

/-- What the record loop puts out is address records, and it counts them. -/
theorem answerRecords_layout {reply : Bytes} {count pos answers total : Nat} {out all : Bytes}
    (read : answerRecords reply count pos out answers = some (all, total)) :
    ∃ records : List AddressRecord, all = out ++ records.flatMap AddressRecord.bytes ∧
      total = answers + records.length ∧ records.length ≤ count := by
  induction count generalizing pos out answers with
  | zero =>
      rw [answerRecords, Option.some.injEq, Prod.mk.injEq] at read
      exact ⟨[], by simp [read.1], by simp [read.2], le_refl _⟩
  | succ count ih =>
      unfold answerRecords at read
      split at read
      · cases read
      next pos owner =>
        split at read
        next t0 t1 c0 c1 l0 l1 l2 l3 r0 r1 fixed =>
          dsimp only at read
          split at read
          · cases read
          next rdata carried =>
            split at read
            next address =>
              obtain ⟨type, sized⟩ := address
              obtain ⟨records, whole, sum, few⟩ := ih read
              have sixteen := (Bytes.slice?_bounds carried).2
              rw [sized] at sixteen
              let record : AddressRecord :=
                { cls := ⟨[c0, c1], rfl⟩, ttl := ⟨[l0, l1, l2, l3], rfl⟩
                  rdata := ⟨rdata, sixteen⟩ }
              have typeOctets := Bytes.toBe16_be16 t0 t1
              rw [type] at typeOctets
              have lengthWord : Bytes.be16 r0 r1 = 16 := UInt16.toNat_inj.mp sized
              have lengthOctets := Bytes.toBe16_be16 r0 r1
              rw [lengthWord] at lengthOctets
              refine ⟨record :: records, ?_, ?_, ?_⟩
              · rw [whole]
                simp [AddressRecord.bytes, typeOctets, lengthOctets, record]
              · rw [sum, List.length_cons]
                omega
              · rw [List.length_cons]
                omega
            next other =>
              obtain ⟨records, whole, sum, few⟩ := ih read
              exact ⟨records, whole, sum, few.trans (Nat.le_succ count)⟩
        · cases read

theorem reissued_of_answerAsAsked {query reply out : Bytes}
    (answered : answerAsAsked query reply = some out) :
    ∃ qend records, Reissued query out qend records := by
  unfold answerAsAsked at answered
  split at answered
  next qend flags pos asked read ended =>
    split at answered
    next high low counts =>
      split at answered
      · cases answered
      next records answers found =>
        obtain ⟨list, whole, sum, few⟩ := answerRecords_layout found
        have small := (Bytes.be16 high low).toNat_lt
        refine ⟨qend, list, asked, by omega, ⟨flags, (Bytes.slice?_bounds read).2⟩, ?_⟩
        rw [← Option.some.inj answered, whole, sum]
        simp [Bytes.toBe16]
    · cases answered
  · cases answered

/-- On any two byte strings in memory `answer_as_asked` ends without a fault,
and what it returns is the query's id and question, the counts of one question
and so many answers, and these answers to the last octet. -/
theorem answer_as_asked_is_safe (target : Target) (query reply : Slice target) :
    ∃ result, readAnswerAsAsked target query.1 reply.1 = .ok result ∧
      ∀ out, result = some out → ∃ qend records, Reissued query.1 out qend records ∧
        out.length = qend + 28 * records.length := by
  refine ⟨_, readAnswerAsAsked_eq query.2 reply.2, ?_⟩
  intro out answered
  obtain ⟨qend, records, reissued⟩ := reissued_of_answerAsAsked answered
  refine ⟨qend, records, reissued, ?_⟩
  obtain ⟨flags, layout⟩ := reissued.layout
  obtain ⟨long, within⟩ := questionEnd_bounds reissued.asked
  have question : ((query.1.take qend).drop 12).length = qend - 12 := by
    rw [List.length_drop, List.length_take, Nat.min_eq_left within]
  have id : (query.1.take 2).length = 2 := List.length_take_of_le (by omega)
  rw [layout]
  simp only [List.length_append, length_flatMap_bytes, question, id, flags.2,
    Bytes.length_toBe16]
  omega

end Fips2Go.Dns
