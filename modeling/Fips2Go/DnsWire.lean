import Fips2Go.ByteStrings
import Mathlib.Data.List.Infix
import Mathlib.Tactic.IntervalCases

/-!
# The wire format of DNS messages

Names, questions and records as a message holds them.  A name in a message is
read by a relation, which follows compression pointers backwards only, so that
a name is at most one list of labels.
-/

namespace Fips2Go.Dns

/-- A name on the wire, uncompressed. -/
def wireLabels (labels : List Bytes) : Bytes :=
  labels.flatMap fun label => UInt8.ofNat label.length :: label

def wireName (labels : List Bytes) : Bytes :=
  wireLabels labels ++ [0]

theorem toNat_ofNat_length {label : Bytes} (atMost : label.length ≤ 63) :
    (UInt8.ofNat label.length).toNat = label.length := by
  rw [UInt8.toNat_ofNat']
  omega

theorem plain_length {label : Bytes} (atLeast : 1 ≤ label.length)
    (atMost : label.length ≤ 63) :
    UInt8.ofNat label.length ≠ 0 ∧ UInt8.ofNat label.length &&& 0xc0 = 0 := by
  revert atLeast atMost
  generalize label.length = size
  intro atLeast atMost
  interval_cases size <;> decide

theorem length_le_wireLabels (labels : List Bytes) :
    labels.length ≤ (wireLabels labels).length := by
  induction labels with
  | nil => exact Nat.le_refl _
  | cons label labels ih =>
      simp only [wireLabels, List.flatMap_cons, List.length_append, List.length_cons] at ih ⊢
      omega

/-! ### Names in a message -/

/-- `NameAt message pos labels`: the name at `pos`, labels and then either its
end or a pointer to an earlier name, is `labels`. -/
inductive NameAt (message : Bytes) : Nat → List Bytes → Prop
  | root {pos : Nat} (length : message[pos]? = some 0) : NameAt message pos []
  | label {pos : Nat} {label : Bytes} {labels : List Bytes}
      (sizes : 1 ≤ label.length ∧ label.length ≤ 63)
      (length : message[pos]? = some (UInt8.ofNat label.length))
      (octets : message.slice? (pos + 1) label.length = some label)
      (rest : NameAt message (pos + 1 + label.length) labels) :
      NameAt message pos (label :: labels)
  | pointer {pos : Nat} {high low : UInt8} {labels : List Bytes}
      (length : message[pos]? = some high) (tagged : high &&& 0xc0 = 0xc0)
      (second : message[pos + 1]? = some low)
      (backwards : (high &&& 0x3f).toNat * 256 + low.toNat < pos)
      (rest : NameAt message ((high &&& 0x3f).toNat * 256 + low.toNat) labels) :
      NameAt message pos labels

theorem not_tagged {label : Bytes} (sizes : 1 ≤ label.length ∧ label.length ≤ 63) :
    UInt8.ofNat label.length &&& 0xc0 ≠ 0xc0 := by
  rw [(plain_length sizes.1 sizes.2).2]
  decide

namespace NameAt

variable {message : Bytes} {pos : Nat} {labels others : List Bytes}

/-- A position holds one name at most. -/
theorem unique (name : NameAt message pos labels) (other : NameAt message pos others) :
    labels = others := by
  induction name generalizing others with
  | root length =>
      cases other with
      | root => rfl
      | label sizes length' =>
          rw [length] at length'
          exact absurd (Option.some.inj length').symm (plain_length sizes.1 sizes.2).1
      | pointer length' tagged =>
          rw [length] at length'
          rw [← Option.some.inj length'] at tagged
          exact absurd tagged (by decide)
  | label sizes length octets rest ih =>
      cases other with
      | root length' =>
          rw [length] at length'
          exact absurd (Option.some.inj length') (plain_length sizes.1 sizes.2).1
      | label sizes' length' octets' rest' =>
          rw [length, Option.some.injEq] at length'
          have same := congrArg UInt8.toNat length'
          rw [toNat_ofNat_length sizes.2, toNat_ofNat_length sizes'.2] at same
          rw [← same, octets, Option.some.injEq] at octets'
          subst octets'
          rw [ih rest']
      | pointer length' tagged =>
          rw [length] at length'
          rw [← Option.some.inj length'] at tagged
          exact absurd tagged (not_tagged sizes)
  | pointer length tagged second backwards rest ih =>
      cases other with
      | root length' =>
          rw [length] at length'
          rw [Option.some.inj length'] at tagged
          exact absurd tagged (by decide)
      | label sizes length' =>
          rw [length] at length'
          rw [Option.some.inj length'] at tagged
          exact absurd tagged (not_tagged sizes)
      | pointer length' tagged' second' backwards' rest' =>
          rw [length, Option.some.injEq] at length'
          rw [second, Option.some.injEq] at second'
          subst length' second'
          exact ih rest'

end NameAt

/-- An uncompressed name is read as its labels. -/
theorem nameAt_wireName (before : Bytes) (labels : List Bytes) (after : Bytes)
    (sizes : ∀ label ∈ labels, 1 ≤ label.length ∧ label.length ≤ 63) :
    NameAt (before ++ (wireName labels ++ after)) before.length labels := by
  induction labels generalizing before with
  | nil => exact .root (by simp [wireName, wireLabels])
  | cons label labels ih =>
      have split : before ++ (wireName (label :: labels) ++ after) =
          (before ++ [UInt8.ofNat label.length]) ++ label ++ (wireName labels ++ after) := by
        simp [wireName, wireLabels]
      have position : (before ++ [UInt8.ofNat label.length] ++ label).length =
          before.length + 1 + label.length := by
        simp only [List.length_append, List.length_singleton]
      have rest := ih (before ++ [UInt8.ofNat label.length] ++ label)
        fun other member => sizes other (by simp [member])
      rw [position, ← split] at rest
      refine .label (sizes label (by simp)) (by simp [wireName, wireLabels]) ?_ rest
      have sliced := Bytes.slice?_append (before ++ [UInt8.ofNat label.length]) label
        (wireName labels ++ after)
      rw [split]
      simpa using sliced

/-! ### Questions and records -/

structure Question where
  labels : List Bytes
  qtype : UInt16
  qclass : UInt16
  sizes : ∀ label ∈ labels, 1 ≤ label.length ∧ label.length ≤ 63

def Question.bytes (question : Question) : Bytes :=
  wireName question.labels ++ (Bytes.toBe16 question.qtype ++ Bytes.toBe16 question.qclass)

/-- A record's owner: labels, then their end or a pointer to an offset below
2 ^ 14. -/
structure Owner where
  labels : List Bytes
  pointer : Option (Fin (2 ^ 14))
  sizes : ∀ label ∈ labels, 1 ≤ label.length ∧ label.length ≤ 63

def pointerBytes (target : Fin (2 ^ 14)) : Bytes :=
  [UInt8.ofNat (0xc0 + target.val / 256), UInt8.ofNat (target.val % 256)]

theorem pointerBytes_tagged (target : Fin (2 ^ 14)) :
    UInt8.ofNat (0xc0 + target.val / 256) ≠ 0 ∧
      UInt8.ofNat (0xc0 + target.val / 256) &&& 0xc0 = 0xc0 := by
  have bound : target.val / 256 < 64 := by omega
  revert bound
  generalize target.val / 256 = high
  intro bound
  interval_cases high <;> decide

def Owner.bytes (owner : Owner) : Bytes :=
  wireLabels owner.labels ++
    match owner.pointer with
    | none => [0]
    | some target => pointerBytes target

structure Record where
  owner : Owner
  type : UInt16
  cls : UInt16
  ttl : FixedBytes 4
  rdata : Bytes
  fits : rdata.length < 2 ^ 16

/-- TYPE, CLASS, TTL and RDLENGTH. -/
def Record.fixed (record : Record) : Bytes :=
  Bytes.toBe16 record.type ++ Bytes.toBe16 record.cls ++ record.ttl.val ++
    Bytes.toBe16 (UInt16.ofNat record.rdata.length)

def Record.bytes (record : Record) : Bytes :=
  record.owner.bytes ++ (record.fixed ++ record.rdata)

/-- A message that asks one question first; what follows the question is up to
the counts. -/
structure Query where
  id : UInt16
  flags : UInt16
  counts : FixedBytes 8
  question : Question
  rest : Bytes

def Query.bytes (query : Query) : Bytes :=
  Bytes.toBe16 query.id ++ Bytes.toBe16 query.flags ++ query.counts.val ++
    (query.question.bytes ++ query.rest)

/-- A message with one question, its answers, and after them the records that
the other two counts tell of. -/
structure Reply where
  id : UInt16
  flags : UInt16
  nscount : UInt16
  arcount : UInt16
  question : Question
  answers : List Record
  rest : Bytes
  counted : answers.length < 2 ^ 16

/-- The header of a message with one question. -/
def headerBytes (id flags ancount nscount arcount : UInt16) : Bytes :=
  Bytes.toBe16 id ++ Bytes.toBe16 flags ++ [0, 1] ++ Bytes.toBe16 ancount ++
    Bytes.toBe16 nscount ++ Bytes.toBe16 arcount

@[simp]
theorem length_headerBytes (id flags ancount nscount arcount : UInt16) :
    (headerBytes id flags ancount nscount arcount).length = 12 := rfl

def Reply.bytes (reply : Reply) : Bytes :=
  headerBytes reply.id reply.flags (UInt16.ofNat reply.answers.length) reply.nscount
    reply.arcount ++
    (reply.question.bytes ++ (reply.answers.flatMap Record.bytes ++ reply.rest))

/-- Where the answer at `index` begins. -/
def Reply.answerOffset (reply : Reply) (index : Nat) : Nat :=
  12 + reply.question.bytes.length + ((reply.answers.take index).flatMap Record.bytes).length

/-- The question's name is read at offset 12. -/
theorem Query.nameAt (query : Query) : NameAt query.bytes 12 query.question.labels := by
  have name := nameAt_wireName
    (Bytes.toBe16 query.id ++ Bytes.toBe16 query.flags ++ query.counts.val)
    query.question.labels
    (Bytes.toBe16 query.question.qtype ++ Bytes.toBe16 query.question.qclass ++ query.rest)
    query.question.sizes
  simpa [Query.bytes, Question.bytes, query.counts.property] using name

theorem Reply.nameAt (reply : Reply) : NameAt reply.bytes 12 reply.question.labels := by
  have name := nameAt_wireName
    (headerBytes reply.id reply.flags (UInt16.ofNat reply.answers.length) reply.nscount
      reply.arcount) reply.question.labels
    (Bytes.toBe16 reply.question.qtype ++ Bytes.toBe16 reply.question.qclass ++
      (reply.answers.flatMap Record.bytes ++ reply.rest)) reply.question.sizes
  simpa [Reply.bytes, Question.bytes, headerBytes] using name

theorem Reply.bytes_split (reply : Reply) {index : Nat} {record : Record}
    (answer : reply.answers[index]? = some record) :
    ∃ front after, reply.bytes = front ++ (record.bytes ++ after) ∧
      front.length = reply.answerOffset index := by
  obtain ⟨within, rfl⟩ := List.getElem?_eq_some_iff.mp answer
  have parts : reply.answers.take index ++
      reply.answers[index] :: reply.answers.drop (index + 1) = reply.answers := by simp
  have flat := congrArg (List.flatMap Record.bytes) parts
  rw [List.flatMap_append, List.flatMap_cons] at flat
  refine ⟨headerBytes reply.id reply.flags (UInt16.ofNat reply.answers.length) reply.nscount
      reply.arcount ++ (reply.question.bytes ++
        (reply.answers.take index).flatMap Record.bytes),
    (reply.answers.drop (index + 1)).flatMap Record.bytes ++ reply.rest, ?_, ?_⟩
  · unfold Reply.bytes
    rw [← flat]
    simp only [List.append_assoc]
  · simp only [Reply.answerOffset, List.length_append, length_headerBytes, Nat.add_assoc]

/-- An answer whose owner is a pointer to offset 12 is owned by the question's
name. -/
theorem Reply.nameAt_answer (reply : Reply) {index : Nat} {record : Record}
    (answer : reply.answers[index]? = some record) (bare : record.owner.labels = [])
    (pointed : record.owner.pointer = some 12) :
    NameAt reply.bytes (reply.answerOffset index) reply.question.labels := by
  obtain ⟨front, after, split, offset⟩ := reply.bytes_split answer
  have owner : record.owner.bytes = [0xc0, 0x0c] := by
    simp only [Owner.bytes, bare, pointed]
    decide
  have high : reply.bytes[reply.answerOffset index]? = some 0xc0 := by
    simp [split, ← offset, Record.bytes, owner]
  have low : reply.bytes[reply.answerOffset index + 1]? = some 0x0c := by
    simp [split, ← offset, Record.bytes, owner]
  have later : 12 < reply.answerOffset index := by
    have nonempty : 0 < reply.question.bytes.length := by
      simp [Question.bytes, wireName]
    unfold Reply.answerOffset
    omega
  exact .pointer high (by decide) low later reply.nameAt

end Fips2Go.Dns
