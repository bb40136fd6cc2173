import Fips2Go.DnsMessage
import Fips2Go.DnsRouting
import Fips2Go.DnsWire

/-!
# SERVFAIL as a message

`servfail_for` rewrites the header of a query and keeps all that follows it.
Where the query ends with its question this is a well-formed message.  A record
after the question stays behind the question uncounted, and what is sent is no
message at all.
-/

namespace Fips2Go.Dns

/-- A message with one question, whose counts tell of all that follows it. -/
structure Message where
  id : UInt16
  flags : UInt16
  question : Question
  answers : List Record
  authorities : List Record
  additionals : List Record
  counted : answers.length < 2 ^ 16 ∧ authorities.length < 2 ^ 16 ∧ additionals.length < 2 ^ 16

def Message.records (message : Message) : Bytes :=
  message.answers.flatMap Record.bytes ++ message.authorities.flatMap Record.bytes ++
    message.additionals.flatMap Record.bytes

def Message.bytes (message : Message) : Bytes :=
  headerBytes message.id message.flags (UInt16.ofNat message.answers.length)
    (UInt16.ofNat message.authorities.length) (UInt16.ofNat message.additionals.length) ++
    (message.question.bytes ++ message.records)

/-- No section holds a record. -/
def Message.Bare (message : Message) : Prop :=
  message.answers = [] ∧ message.authorities = [] ∧ message.additionals = []

/-! ### The flags -/

def isResponse (flags : UInt16) : Prop := flags.toNat / 2 ^ 15 = 1
def opcode (flags : UInt16) : Nat := flags.toNat / 2 ^ 11 % 16
def isAuthoritative (flags : UInt16) : Prop := flags.toNat / 2 ^ 10 % 2 = 1
def rcode (flags : UInt16) : Nat := flags.toNat % 16

/-- What `servfail_for` makes of the flags. -/
def servfailFlags (high low : UInt8) : UInt16 :=
  Bytes.be16 ((high ||| 0x80) &&& ~~~ 0x04) ((low &&& 0xf0) ||| 0x02)

theorem toNat_be16 (high low : UInt8) :
    (Bytes.be16 high low).toNat = high.toNat * 256 + low.toNat := by
  have highBound := high.toNat_lt
  have lowBound := low.toNat_lt
  simp only [Bytes.be16, UInt16.toNat_ofNat']
  omega

theorem servfailFlags_spec (high low : UInt8) :
    isResponse (servfailFlags high low) ∧
      opcode (servfailFlags high low) = opcode (Bytes.be16 high low) ∧
      ¬ isAuthoritative (servfailFlags high low) ∧ rcode (servfailFlags high low) = 2 := by
  have upper : ∀ octet : UInt8, ((octet ||| 0x80) &&& ~~~ 0x04).toNat / 128 = 1 ∧
      ((octet ||| 0x80) &&& ~~~ 0x04).toNat / 8 % 16 = octet.toNat / 8 % 16 ∧
      ((octet ||| 0x80) &&& ~~~ 0x04).toNat / 4 % 2 = 0 :=
    forall_octet (by decide +kernel)
  have lower : ∀ octet : UInt8, ((octet &&& 0xf0) ||| 0x02).toNat % 16 = 2 :=
    forall_octet (by decide +kernel)
  obtain ⟨response, code, authority⟩ := upper high
  have failure := lower low
  have newLow := ((low &&& 0xf0) ||| 0x02).toNat_lt
  have oldLow := low.toNat_lt
  simp only [isResponse, opcode, isAuthoritative, rcode, servfailFlags, toNat_be16]
  omega

/-! ### The message that is made -/

/-- `reply` is a SERVFAIL for `query`: a message with its id, opcode and
question, and nothing else. -/
def IsServfail (query : Message) (reply : Bytes) : Prop :=
  ∃ message : Message, reply = message.bytes ∧ message.id = query.id ∧
    isResponse message.flags ∧ opcode message.flags = opcode query.flags ∧
    ¬ isAuthoritative message.flags ∧ rcode message.flags = 2 ∧
    message.question = query.question ∧ message.Bare

/-- The SERVFAIL for a query without records. -/
def bareServfail (query : Message) (flags : UInt16) : Message where
  id := query.id
  flags := flags
  question := query.question
  answers := []
  authorities := []
  additionals := []
  counted := by decide

theorem bareServfail_bytes (query : Message) (flags : UInt16) :
    (bareServfail query flags).bytes =
      Bytes.toBe16 query.id ++ Bytes.toBe16 flags ++ [0, 1, 0, 0, 0, 0, 0, 0] ++
        query.question.bytes := by
  have zero : Bytes.toBe16 0 = [0, 0] := by decide
  simp [Message.bytes, Message.records, bareServfail, headerBytes, zero]

/-- The SERVFAIL of a query is that of its question with the query's records
after it. -/
theorem servfailFor_bytes (query : Message) : ∃ flags,
    isResponse flags ∧ opcode flags = opcode query.flags ∧ ¬ isAuthoritative flags ∧
      rcode flags = 2 ∧
      servfailFor query.bytes = some ((bareServfail query flags).bytes ++ query.records) := by
  obtain ⟨high, low, octets, word⟩ := Bytes.exists_octets query.flags
  obtain ⟨response, code, authority, failure⟩ := servfailFlags_spec high low
  refine ⟨servfailFlags high low, response, word ▸ code, authority, failure, ?_⟩
  rw [bareServfail_bytes, servfailFlags, Bytes.toBe16_be16]
  simp only [Message.bytes, headerBytes, octets]
  rfl

theorem ne_nil_of_record (record : Record) : record.bytes ≠ [] := by
  simp [Record.bytes, Record.fixed, Bytes.toBe16]

theorem flatMap_bytes_eq_nil {records : List Record} :
    records.flatMap Record.bytes = [] ↔ records = [] := by
  cases records with
  | nil => simp
  | cons record records => simp [ne_nil_of_record]

theorem records_eq_nil {message : Message} : message.records = [] ↔ message.Bare := by
  simp only [Message.records, Message.Bare, List.append_eq_nil_iff, flatMap_bytes_eq_nil,
    and_assoc]

/-- The question's name is read at offset 12, whatever follows the message. -/
theorem Message.nameAt (message : Message) (after : Bytes) :
    NameAt (message.bytes ++ after) 12 message.question.labels := by
  have name := nameAt_wireName
    (headerBytes message.id message.flags (UInt16.ofNat message.answers.length)
      (UInt16.ofNat message.authorities.length) (UInt16.ofNat message.additionals.length))
    message.question.labels
    (Bytes.toBe16 message.question.qtype ++ Bytes.toBe16 message.question.qclass ++
      message.records ++ after) message.question.sizes
  simpa [Message.bytes, Question.bytes, headerBytes] using name

theorem headerBytes_counts {id flags answers authorities additionals : UInt16}
    {id' flags' answers' authorities' additionals' : UInt16}
    (same : headerBytes id flags answers authorities additionals =
      headerBytes id' flags' answers' authorities' additionals') :
    answers = answers' ∧ authorities = authorities' ∧ additionals = additionals' := by
  simp only [headerBytes] at same
  obtain ⟨same, third⟩ := List.append_inj' same rfl
  obtain ⟨same, second⟩ := List.append_inj' same rfl
  obtain ⟨-, first⟩ := List.append_inj' same rfl
  exact ⟨Bytes.toBe16_injective first, Bytes.toBe16_injective second,
    Bytes.toBe16_injective third⟩

/-- A count of zero counts nothing. -/
theorem eq_nil_of_count {records : List Record} (few : records.length < 2 ^ 16)
    (none : UInt16.ofNat records.length = 0) : records = [] := by
  have count := congrArg UInt16.toNat none
  rw [UInt16.toNat_ofNat', Nat.mod_eq_of_lt few] at count
  exact List.length_eq_zero_iff.mp count

/-- With a record in the query, what is sent is no message: its counts are zero,
and its bytes go on after the question. -/
theorem not_message_of_records {query message : Message} (flags : UInt16)
    (records : ¬ query.Bare) :
    (bareServfail query flags).bytes ++ query.records ≠ message.bytes := by
  intro same
  have name := (bareServfail query flags).nameAt query.records
  have name' := message.nameAt []
  rw [List.append_nil, ← same] at name'
  have labels : query.question.labels = message.question.labels := name.unique name'
  have parts := same
  simp only [Message.bytes, List.append_assoc] at parts
  obtain ⟨header, rest⟩ := List.append_inj parts rfl
  obtain ⟨answers, authorities, additionals⟩ := headerBytes_counts header
  have bare : message.Bare :=
    ⟨eq_nil_of_count message.counted.1 answers.symm,
      eq_nil_of_count message.counted.2.1 authorities.symm,
      eq_nil_of_count message.counted.2.2 additionals.symm⟩
  rw [records_eq_nil.mpr bare] at rest
  have size := congrArg List.length rest
  have none : query.records.length = 0 := by
    simp [Question.bytes, bareServfail, Message.records, ← labels] at size
    simp [Message.records]
    omega
  exact records (records_eq_nil.mp (List.length_eq_zero_iff.mp none))

/-- `servfail_for` makes a well-formed SERVFAIL of a query exactly where the query
ends with its question. -/
theorem servfail_wellFormed_iff_bare (query : Message) : ∃ reply,
    servfailFor query.bytes = some reply ∧ (IsServfail query reply ↔ query.Bare) := by
  obtain ⟨flags, response, code, authority, failure, made⟩ := servfailFor_bytes query
  refine ⟨_, made, ?_, ?_⟩
  · rintro ⟨message, bytes, -⟩
    by_contra records
    exact not_message_of_records flags records bytes
  · intro bare
    rw [records_eq_nil.mpr bare, List.append_nil]
    exact ⟨bareServfail query flags, rfl, rfl, response, code, authority, failure, rfl, rfl, rfl,
      rfl⟩

private theorem root_sizes :
    ∀ label ∈ ([] : List Bytes), 1 ≤ label.length ∧ label.length ≤ 63 := by
  intro label member
  cases member

private theorem zeroTtl_length : ([0, 0, 0, 0] : Bytes).length = 4 := rfl

/-- A query for the AAAA record of `home.fips` that offers EDNS. -/
private def ednsQuery : Message where
  id := 0xbeef
  flags := 0x0100
  question := ⟨[homeLabel, fipsLabel], 28, 1, by decide⟩
  answers := []
  authorities := []
  additionals := [⟨⟨[], none, root_sizes⟩, 41, 1232, ⟨[0, 0, 0, 0], zeroTtl_length⟩, [], by decide⟩]
  counted := by decide

/-- What is sent for it is no message. -/
theorem edns_servfail_is_no_message : ∃ reply, servfailFor ednsQuery.bytes = some reply ∧
    ¬ IsServfail ednsQuery reply ∧ ∀ message : Message, reply ≠ message.bytes := by
  have records : ¬ ednsQuery.Bare := by
    intro bare
    cases bare.2.2
  obtain ⟨flags, -, -, -, -, made⟩ := servfailFor_bytes ednsQuery
  refine ⟨_, made, ?_, fun message => not_message_of_records flags records⟩
  rintro ⟨message, bytes, -⟩
  exact not_message_of_records flags records bytes

end Fips2Go.Dns
