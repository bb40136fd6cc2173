import Fips2Go.DnsMessage
import Fips2Go.DnsWire

/-!
# Asking under another name

A name of the hosts file is asked for under the node's own name, and the reply
is re-issued for the question the app asked.  On messages of the wire format
both are functions of what the messages hold: the translated query asks the
same of the node, and the answer has the app's question, the responder's flags,
and the responder's AAAA records with the asked name as their owner.
-/

namespace Fips2Go.Dns

/-! ### Where a question and a record end -/

/-- The name loop of `question_end` stops at the name's last octet. -/
theorem questionNameEnd_wireName (before : Bytes) (labels : List Bytes) (after : Bytes)
    {fuel : Nat} (enough : labels.length < fuel)
    (sizes : ∀ label ∈ labels, 1 ≤ label.length ∧ label.length ≤ 63) :
    questionNameEnd (before ++ (wireName labels ++ after)) fuel before.length =
      some (before.length + (wireLabels labels).length) := by
  induction labels generalizing before fuel with
  | nil =>
      cases fuel with
      | zero => cases enough
      | succ fuel => simp [questionNameEnd, wireName, wireLabels]
  | cons label labels ih =>
      cases fuel with
      | zero => cases enough
      | succ fuel =>
          obtain ⟨atLeast, atMost⟩ := sizes label (by simp)
          obtain ⟨notZero, plain⟩ := plain_length atLeast atMost
          have split : before ++ (wireName (label :: labels) ++ after) =
              (before ++ [UInt8.ofNat label.length] ++ label) ++
                (wireName labels ++ after) := by
            simp [wireName, wireLabels]
          have position : (before ++ [UInt8.ofNat label.length] ++ label).length =
              before.length + 1 + label.length := by
            simp only [List.length_append, List.length_singleton]
          have length : (before ++ (wireName (label :: labels) ++ after))[before.length]? =
              some (UInt8.ofNat label.length) := by
            simp [wireName, wireLabels]
          have next := ih (before ++ [UInt8.ofNat label.length] ++ label)
            (Nat.lt_of_succ_lt_succ enough) fun other member => sizes other (by simp [member])
          rw [position, ← split] at next
          unfold questionNameEnd
          simp only [length, notZero, if_false, plain, if_true, toNat_ofNat_length atMost, next]
          simp [wireLabels]
          omega

theorem questionEnd_bytes {header : Bytes} (twelve : header.length = 12)
    (question : Question) (after : Bytes) :
    questionEnd (header ++ (question.bytes ++ after)) =
      some (12 + question.bytes.length) := by
  have few := length_le_wireLabels question.labels
  have enough : question.labels.length < (header ++ (question.bytes ++ after)).length := by
    simp [Question.bytes, wireName]
    omega
  have name := questionNameEnd_wireName header question.labels
    (Bytes.toBe16 question.qtype ++ Bytes.toBe16 question.qclass ++ after) enough question.sizes
  have split : header ++ (wireName question.labels ++
      (Bytes.toBe16 question.qtype ++ Bytes.toBe16 question.qclass ++ after)) =
      header ++ (question.bytes ++ after) := by
    simp [Question.bytes]
  rw [split, twelve] at name
  simp only [questionEnd, name]
  rw [if_pos (by simp [Question.bytes, wireName, twelve]; omega)]
  simp [Question.bytes, wireName]
  omega

/-- The owner loop of `answer_as_asked` passes over labels. -/
theorem ownerEnd_wireLabels (before : Bytes) (labels : List Bytes) (after : Bytes) {fuel : Nat}
    (sizes : ∀ label ∈ labels, 1 ≤ label.length ∧ label.length ≤ 63) :
    ownerEnd (before ++ (wireLabels labels ++ after)) (labels.length + fuel) before.length =
      ownerEnd (before ++ (wireLabels labels ++ after)) fuel
        (before.length + (wireLabels labels).length) := by
  induction labels generalizing before with
  | nil => simp [wireLabels]
  | cons label labels ih =>
      obtain ⟨atLeast, atMost⟩ := sizes label (by simp)
      obtain ⟨notZero, plain⟩ := plain_length atLeast atMost
      have split : before ++ (wireLabels (label :: labels) ++ after) =
          (before ++ [UInt8.ofNat label.length] ++ label) ++ (wireLabels labels ++ after) := by
        simp [wireLabels]
      have position : (before ++ [UInt8.ofNat label.length] ++ label).length =
          before.length + 1 + label.length := by
        simp only [List.length_append, List.length_singleton]
      have length : (before ++ (wireLabels (label :: labels) ++ after))[before.length]? =
          some (UInt8.ofNat label.length) := by
        simp [wireLabels]
      have total : before.length + 1 + label.length + (wireLabels labels).length =
          before.length + (wireLabels (label :: labels)).length := by
        simp [wireLabels]
        omega
      have next := ih (before ++ [UInt8.ofNat label.length] ++ label)
        fun other member => sizes other (by simp [member])
      rw [position, ← split, total] at next
      rw [show (label :: labels).length + fuel = labels.length + fuel + 1 by
        rw [List.length_cons]; omega]
      conv =>
        lhs
        unfold ownerEnd
      simp only [length, notZero, if_false, not_tagged (sizes label (by simp)),
        toNat_ofNat_length atMost, next]

/-- It stops after the owner, which ends in a zero or a pointer. -/
theorem ownerEnd_bytes (before : Bytes) (owner : Owner) (after : Bytes) {fuel : Nat}
    (enough : owner.labels.length < fuel) :
    ownerEnd (before ++ (owner.bytes ++ after)) fuel before.length =
      some (before.length + owner.bytes.length) := by
  obtain ⟨more, rfl⟩ := Nat.exists_eq_add_of_lt enough
  rw [Owner.bytes, List.append_assoc, Nat.add_assoc,
    ownerEnd_wireLabels before owner.labels _ owner.sizes]
  cases owner.pointer with
  | none =>
      simp [ownerEnd, Nat.add_assoc]
  | some target =>
      obtain ⟨notZero, tagged⟩ := pointerBytes_tagged target
      simp [ownerEnd, pointerBytes, notZero, tagged, Nat.add_assoc, -UInt8.ofNat_add]

/-! ### The records of a reply -/

/-- The records that the answer keeps. -/
def Record.IsAddress (record : Record) : Prop :=
  record.type = typeAaaa ∧ record.rdata.length = 16

instance (record : Record) : Decidable record.IsAddress :=
  inferInstanceAs (Decidable (_ ∧ _))

/-- The record with the name of the question, at offset 12, as its owner. -/
def Record.pointed (record : Record) : Record :=
  { record with owner := { labels := [], pointer := some 12, sizes := by simp } }

/-- The answer section of the re-issued reply. -/
def addresses (records : List Record) : List Record :=
  (records.filter Record.IsAddress).map Record.pointed

theorem Record.bytes_pointed (record : Record) :
    record.pointed.bytes = [0xc0, 0x0c] ++ (record.fixed ++ record.rdata) :=
  rfl

theorem toNat_rdlen (record : Record) :
    (UInt16.ofNat record.rdata.length).toNat = record.rdata.length := by
  rw [UInt16.toNat_ofNat']
  exact Nat.mod_eq_of_lt record.fits

theorem length_fixed (record : Record) : record.fixed.length = 10 := by
  simp [Record.fixed, record.ttl.property]

/-- The ten octets before RDATA, as the loop takes them apart. -/
theorem fixed_eq (record : Record) : ∃ t0 t1 c0 c1 l0 l1 l2 l3 r0 r1,
    record.fixed = [t0, t1, c0, c1, l0, l1, l2, l3, r0, r1] ∧
      Bytes.be16 t0 t1 = record.type ∧ (Bytes.be16 r0 r1).toNat = record.rdata.length := by
  obtain ⟨ttl, four⟩ : { ttl : Bytes // ttl = record.ttl.val } := ⟨_, rfl⟩
  have length := record.ttl.property
  rw [← four] at length
  obtain ⟨t0, t1, type, read⟩ := Bytes.exists_octets record.type
  obtain ⟨c0, c1, cls, _⟩ := Bytes.exists_octets record.cls
  obtain ⟨r0, r1, size, sized⟩ := Bytes.exists_octets (UInt16.ofNat record.rdata.length)
  match ttl, length with
  | [l0, l1, l2, l3], _ =>
      refine ⟨t0, t1, c0, c1, l0, l1, l2, l3, r0, r1, ?_, read, ?_⟩
      · simp only [Record.fixed, type, cls, size, ← four, List.cons_append, List.nil_append]
      · rw [sized, toNat_rdlen]

/-- One round of the record loop. -/
theorem answerRecords_succ (before : Bytes) (record : Record) (after out : Bytes)
    (count answers : Nat) :
    answerRecords (before ++ (record.bytes ++ after)) (count + 1) before.length out answers =
      answerRecords (before ++ (record.bytes ++ after)) count
        (before.length + record.bytes.length)
        (if record.IsAddress then out ++ record.pointed.bytes else out)
        (if record.IsAddress then answers + 1 else answers) := by
  have few := length_le_wireLabels record.owner.labels
  have enough : record.owner.labels.length < (before ++ (record.bytes ++ after)).length := by
    simp only [Record.bytes, Owner.bytes, List.length_append, length_fixed]
    omega
  have owner := ownerEnd_bytes before record.owner (record.fixed ++ record.rdata ++ after) enough
  have reassoc : before ++ (record.owner.bytes ++ (record.fixed ++ record.rdata ++ after)) =
      before ++ (record.bytes ++ after) := by
    simp [Record.bytes]
  rw [reassoc] at owner
  have fixed : (before ++ (record.bytes ++ after)).slice?
      (before.length + record.owner.bytes.length) 10 = some record.fixed := by
    have sliced := Bytes.slice?_append (before ++ record.owner.bytes) record.fixed
      (record.rdata ++ after)
    rw [length_fixed] at sliced
    simpa [Record.bytes] using sliced
  have rdata : (before ++ (record.bytes ++ after)).slice?
      (before.length + record.owner.bytes.length + 10) record.rdata.length =
        some record.rdata := by
    have sliced := Bytes.slice?_append (before ++ record.owner.bytes ++ record.fixed)
      record.rdata after
    have position : (before ++ record.owner.bytes ++ record.fixed).length =
        before.length + record.owner.bytes.length + 10 := by
      simp only [List.length_append, length_fixed]
    rw [position] at sliced
    simpa [Record.bytes] using sliced
  have total : before.length + record.owner.bytes.length + 10 + record.rdata.length =
      before.length + record.bytes.length := by
    simp only [Record.bytes, List.length_append, length_fixed]
    omega
  obtain ⟨t0, t1, c0, c1, l0, l1, l2, l3, r0, r1, octets, type, rdlen⟩ := fixed_eq record
  rw [octets] at fixed
  conv =>
    lhs
    unfold answerRecords
  simp only [owner, fixed, type, rdlen, rdata, total]
  by_cases address : record.type = typeAaaa ∧ record.rdata.length = 16
  · simp only [Record.IsAddress, address, and_self, if_true, Record.bytes_pointed, octets,
      List.append_assoc]
  · simp only [Record.IsAddress, address, if_false]

/-- The loop collects the AAAA records, re-pointed, in their order. -/
theorem answerRecords_bytes (before : Bytes) (records : List Record) (after out : Bytes)
    (answers : Nat) :
    answerRecords (before ++ (records.flatMap Record.bytes ++ after)) records.length
        before.length out answers =
      some (out ++ (addresses records).flatMap Record.bytes,
        answers + (addresses records).length) := by
  induction records generalizing before out answers with
  | nil => simp [answerRecords, addresses]
  | cons record records ih =>
      have next := ih (before ++ record.bytes)
        (if record.IsAddress then out ++ record.pointed.bytes else out)
        (if record.IsAddress then answers + 1 else answers)
      have reassoc : before ++ record.bytes ++ (records.flatMap Record.bytes ++ after) =
          before ++ (record.bytes ++ (records.flatMap Record.bytes ++ after)) := by
        simp only [List.append_assoc]
      rw [reassoc, List.length_append] at next
      rw [List.flatMap_cons, List.append_assoc, List.length_cons, answerRecords_succ, next]
      by_cases address : record.IsAddress
      · simp [addresses, address, Nat.add_comm 1, Nat.add_assoc]
      · simp [addresses, address]

theorem length_addresses_le (records : List Record) :
    (addresses records).length ≤ records.length := by
  rw [addresses, List.length_map]
  exact List.length_filter_le _ records

/-! ### The two messages -/

/-- The same question about `<npub>.fips`. -/
def askedOfNode (query : Query) (npub : Bytes)
    (sizes : 1 ≤ npub.length ∧ npub.length ≤ 63) : Query where
  id := query.id
  flags := query.flags
  counts := ⟨[0, 1, 0, 0, 0, 0, 0, 0], rfl⟩
  question :=
    { labels := [npub, fipsLabel]
      qtype := query.question.qtype
      qclass := query.question.qclass
      sizes := by simp [sizes, fipsLabel] }
  rest := []

/-- The node's addresses under the name that the app asked for. -/
def answeredAsAsked (query : Query) (reply : Reply) : Reply where
  id := query.id
  flags := reply.flags
  nscount := 0
  arcount := 0
  question := query.question
  answers := addresses reply.answers
  rest := []
  counted := Nat.lt_of_le_of_lt (length_addresses_le reply.answers) reply.counted

theorem questionEnd_query (query : Query) :
    questionEnd query.bytes = some (12 + query.question.bytes.length) :=
  questionEnd_bytes (by simp [query.counts.property]) query.question query.rest

theorem questionEnd_reply (reply : Reply) :
    questionEnd reply.bytes = some (12 + reply.question.bytes.length) :=
  questionEnd_bytes (length_headerBytes ..) reply.question _

theorem npubQuery_bytes (query : Query) {npub : Bytes}
    (sizes : 1 ≤ npub.length ∧ npub.length ≤ 63) :
    npubQuery query.bytes npub = some (askedOfNode query npub sizes).bytes := by
  have named : ¬ (npub = [] ∨ npub.length > 63) := by
    rintro (rfl | long)
    · exact absurd sizes.1 (by decide)
    · omega
  have asked : (query.bytes.drop (12 + query.question.bytes.length - 4)).take 4 =
      Bytes.toBe16 query.question.qtype ++ Bytes.toBe16 query.question.qclass := by
    have before : (Bytes.toBe16 query.id ++ Bytes.toBe16 query.flags ++ query.counts.val ++
        wireName query.question.labels).length = 12 + query.question.bytes.length - 4 := by
      simp [Question.bytes, query.counts.property]
      omega
    have split : query.bytes = (Bytes.toBe16 query.id ++ Bytes.toBe16 query.flags ++
        query.counts.val ++ wireName query.question.labels) ++
        (Bytes.toBe16 query.question.qtype ++ Bytes.toBe16 query.question.qclass ++
          query.rest) := by
      simp [Query.bytes, Question.bytes]
    rw [split, List.drop_left' before]
    exact List.take_left' rfl
  have front : query.bytes.take 4 = Bytes.toBe16 query.id ++ Bytes.toBe16 query.flags := by
    simp only [Query.bytes, List.append_assoc]
    rw [← List.append_assoc]
    exact List.take_left' rfl
  simp only [npubQuery, questionEnd_query, if_neg named, asked, front]
  simp [askedOfNode, Query.bytes, Question.bytes, wireName, wireLabels, fipsLabel]

theorem answerAsAsked_bytes (query : Query) (reply : Reply) :
    answerAsAsked query.bytes reply.bytes = some (answeredAsAsked query reply).bytes := by
  have flags : reply.bytes.slice? 2 2 = some (Bytes.toBe16 reply.flags) := by
    have sliced := Bytes.slice?_append (Bytes.toBe16 reply.id) (Bytes.toBe16 reply.flags)
      ([0, 1] ++ Bytes.toBe16 (UInt16.ofNat reply.answers.length) ++
        Bytes.toBe16 reply.nscount ++ Bytes.toBe16 reply.arcount ++
        (reply.question.bytes ++ (reply.answers.flatMap Record.bytes ++ reply.rest)))
    simpa [Reply.bytes, headerBytes] using sliced
  obtain ⟨high, low, count, counts⟩ := Bytes.exists_octets (UInt16.ofNat reply.answers.length)
  have ancount : reply.bytes.slice? 6 2 = some [high, low] := by
    have sliced := Bytes.slice?_append
      (Bytes.toBe16 reply.id ++ Bytes.toBe16 reply.flags ++ [0, 1])
      (Bytes.toBe16 (UInt16.ofNat reply.answers.length))
      (Bytes.toBe16 reply.nscount ++ Bytes.toBe16 reply.arcount ++
        (reply.question.bytes ++ (reply.answers.flatMap Record.bytes ++ reply.rest)))
    rw [← count]
    simpa [Reply.bytes, headerBytes] using sliced
  have many : (Bytes.be16 high low).toNat = reply.answers.length := by
    rw [counts, UInt16.toNat_ofNat']
    exact Nat.mod_eq_of_lt reply.counted
  have records := answerRecords_bytes
    (headerBytes reply.id reply.flags (UInt16.ofNat reply.answers.length) reply.nscount
      reply.arcount ++ reply.question.bytes) reply.answers reply.rest [] 0
  have position : (headerBytes reply.id reply.flags (UInt16.ofNat reply.answers.length)
      reply.nscount reply.arcount ++ reply.question.bytes).length =
      12 + reply.question.bytes.length := by
    rw [List.length_append, length_headerBytes]
  rw [position, List.append_assoc] at records
  have question : (query.bytes.take (12 + query.question.bytes.length)).drop 12 =
      query.question.bytes := by
    have before : (Bytes.toBe16 query.id ++ Bytes.toBe16 query.flags ++
        query.counts.val).length = 12 := by
      simp [query.counts.property]
    rw [Query.bytes, List.drop_take, List.drop_left' before, Nat.add_sub_cancel_left,
      List.take_left' rfl]
  have id : query.bytes.take 2 = Bytes.toBe16 query.id := by
    simp only [Query.bytes, List.append_assoc]
    exact List.take_left' rfl
  simp only [answerAsAsked, questionEnd_query, questionEnd_reply, flags, ancount, many, question,
    id]
  rw [show answerRecords reply.bytes reply.answers.length
    (12 + reply.question.bytes.length) [] 0 = _ from records]
  simp [answeredAsAsked, Reply.bytes, headerBytes, Bytes.toBe16]

/-- The responder is asked about the node, and what it says of the node's
addresses is said of the name that the app asked for. -/
theorem hosts_names_are_transparent (query : Query) (reply : Reply) {npub : Bytes}
    (sizes : 1 ≤ npub.length ∧ npub.length ≤ 63) :
    npubQuery query.bytes npub = some (askedOfNode query npub sizes).bytes ∧
    NameAt (askedOfNode query npub sizes).bytes 12 [npub, fipsLabel] ∧
    answerAsAsked query.bytes reply.bytes = some (answeredAsAsked query reply).bytes ∧
    ∀ index record, (answeredAsAsked query reply).answers[index]? = some record →
      NameAt (answeredAsAsked query reply).bytes
        ((answeredAsAsked query reply).answerOffset index) query.question.labels := by
  refine ⟨npubQuery_bytes query sizes, (askedOfNode query npub sizes).nameAt,
    answerAsAsked_bytes query reply, ?_⟩
  intro index record answer
  have pointed : record ∈ addresses reply.answers := List.mem_of_getElem? answer
  obtain ⟨own, _, rfl⟩ := List.mem_map.mp pointed
  exact (answeredAsAsked query reply).nameAt_answer answer rfl rfl

/-- `home.fips`, asked with an EDNS record after the question. -/
private def homeQuery : Query where
  id := 0xbeef
  flags := 0x0100
  counts := ⟨[0, 1, 0, 0, 0, 0, 0, 1], rfl⟩
  question :=
    { labels := [[0x68, 0x6f, 0x6d, 0x65], fipsLabel]
      qtype := 28
      qclass := 1
      sizes := by decide }
  rest := [0, 0, 41, 4, 208, 0, 0, 0, 0, 0, 0]

private def nodeLabel : Bytes := List.replicate 63 0x71

/-- An alias, then an address behind labels and a pointer. -/
private def nodeReply : Reply where
  id := 0xbeef
  flags := 0x8180
  nscount := 0
  arcount := 0
  question := (askedOfNode homeQuery nodeLabel (by decide)).question
  answers := [
    { owner := { labels := [], pointer := some 12, sizes := by decide }
      type := 5
      cls := 1
      ttl := ⟨[0, 0, 0, 60], rfl⟩
      rdata := [1, 0x61, 0xc0, 0x0c]
      fits := by decide },
    { owner := { labels := [[0x61]], pointer := some 12, sizes := by decide }
      type := 28
      cls := 1
      ttl := ⟨[0, 0, 0, 60], rfl⟩
      rdata := List.replicate 16 0xfd
      fits := by decide }]
  rest := []
  counted := by decide

theorem home_is_transparent :
    npubQuery homeQuery.bytes nodeLabel =
      some (askedOfNode homeQuery nodeLabel (by decide)).bytes ∧
    NameAt (askedOfNode homeQuery nodeLabel (by decide)).bytes 12 [nodeLabel, fipsLabel] ∧
    answerAsAsked homeQuery.bytes nodeReply.bytes =
      some (answeredAsAsked homeQuery nodeReply).bytes ∧
    ∀ index record, (answeredAsAsked homeQuery nodeReply).answers[index]? = some record →
      NameAt (answeredAsAsked homeQuery nodeReply).bytes
        ((answeredAsAsked homeQuery nodeReply).answerOffset index)
        homeQuery.question.labels :=
  hosts_names_are_transparent homeQuery nodeReply (by decide)

end Fips2Go.Dns
