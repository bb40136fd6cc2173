import Fips2Go.DnsServe
import Fips2Go.DnsWire
import Mathlib.Data.List.Infix

/-!
# Where a query for a `.fips` name goes

The routing decision reads the question's name as a string, and an octet from
128 on takes two bytes of that string.  A well-formed name below `.fips` is
recognised as one exactly when the labels before the last, so measured, fit
into 250 bytes; then nothing leaves the device except towards the local
responder.  Past that length the name is not parsed at all, and the query goes
the way of public names.
-/

namespace Fips2Go.Dns

open Packet (Ipv6Udp parseIpv6Udp buildIpv6Udp)

/-- ASCII lower case, on octets. -/
def lowerOctet (octet : UInt8) : UInt8 :=
  if 0x41 ≤ octet ∧ octet ≤ 0x5a then octet + 0x20 else octet

/-- A query whose first question is a well-formed name, the labels of `before`
and then `fips` in any letter case, followed by QTYPE, QCLASS and anything. -/
structure FipsQuery (message : Bytes) (before : List Bytes) : Prop where
  layout : ∃ header last question, message = header ++ wireName (before ++ [last]) ++ question ∧
    header.length = 12 ∧ 4 ≤ question.length ∧ last.map lowerOctet = fipsLabel ∧
    (wireName (before ++ [last])).length ≤ 255
  counted : ∀ high low, message[4]? = some high → message[5]? = some low →
    Bytes.be16 high low ≠ 0
  labelSizes : ∀ label ∈ before, 1 ≤ label.length ∧ label.length ≤ 63

/-- The length of a label in a string that holds one character for each octet. -/
def labelBytes (label : Bytes) : Nat :=
  label.length + (label.filter (0x80 ≤ ·)).length

/-- The length of labels joined by dots, in such a string. -/
def nameBytes (labels : List Bytes) : Nat :=
  (labels.map labelBytes).sum + (labels.length - 1)

/-- Nothing is asked but the local responder, and it is asked for the query or
for its translation to a node's own name. -/
def StaysLocal (proxy : DnsProxy) (query : Bytes) (trace : Trace) : Prop :=
  trace.prefetching = [] ∧ ∀ event ∈ trace.serving,
    (∃ payload, event = .sendTo proxy.localResponder payload ∧
      (payload = query ∨ ∃ npub, npubQuery query npub = some payload)) ∨
    ∃ packet, event = .emit packet

theorem forall_octet {holds : UInt8 → Prop}
    (below : ∀ value < 256, holds (UInt8.ofNat value)) (octet : UInt8) : holds octet := by
  simpa using below octet.toNat octet.toNat_lt

theorem utf8Size_nameChar (octet : UInt8) :
    (nameChar octet).utf8Size = if 0x80 ≤ octet then 2 else 1 := by
  revert octet
  apply forall_octet
  decide +kernel

theorem nameChar_eq (octet : UInt8) :
    nameChar octet = Char.ofUInt8 (lowerOctet octet) := by
  revert octet
  apply forall_octet
  decide +kernel

@[simp]
theorem utf8Len_nil : utf8Len [] = 0 :=
  rfl

theorem utf8Len_cons (char : Char) (text : List Char) :
    utf8Len (char :: text) = char.utf8Size + utf8Len text := by
  simp [utf8Len]

@[simp]
theorem utf8Len_append (first second : List Char) :
    utf8Len (first ++ second) = utf8Len first + utf8Len second := by
  simp [utf8Len]

theorem utf8Len_map_nameChar (label : Bytes) :
    utf8Len (label.map nameChar) = labelBytes label := by
  induction label with
  | nil => rfl
  | cons octet label ih =>
      rw [List.map_cons, utf8Len_cons, utf8Size_nameChar, ih]
      by_cases high : 0x80 ≤ octet
      · simp only [high, labelBytes, if_true, List.length_cons, decide_true,
          List.filter_cons_of_pos]
        omega
      · simp only [high, labelBytes, if_false, List.length_cons, decide_false,
          List.filter_cons, Bool.false_eq_true]
        omega

/-- One round of `parse_qname`'s loop on the name read so far. -/
def appendLabel (name : List Char) (label : Bytes) : List Char :=
  (if name = [] then name else name ++ ['.']) ++ label.map nameChar

theorem utf8Len_appendLabel (name : List Char) (label : Bytes) :
    utf8Len (appendLabel name label) =
      utf8Len name + (if name = [] then 0 else 1) + labelBytes label := by
  unfold appendLabel
  by_cases empty : name = []
  · simp [empty, utf8Len_map_nameChar]
  · simp only [empty, if_false, utf8Len_append, utf8Len_map_nameChar]
    rfl

theorem appendLabel_ne_nil (name : List Char) {label : Bytes} (nonempty : 1 ≤ label.length) :
    appendLabel name label ≠ [] := by
  cases label with
  | nil => cases nonempty
  | cons octet label => simp [appendLabel]

/-- The loop on a list of labels. -/
def spell (name : List Char) : List Bytes → Option (List Char)
  | [] => some name
  | label :: labels =>
      if utf8Len name + label.length + 1 > 255 then none
      else spell (appendLabel name label) labels

/-- On a well-formed name the loop of `parse_qname` spells its labels. -/
theorem qnameFrom_wireName (read : Bytes) (labels : List Bytes) (rest : Bytes)
    (name : List Char) {fuel : Nat} (enough : labels.length < fuel)
    (sizes : ∀ label ∈ labels, 1 ≤ label.length ∧ label.length ≤ 63) :
    qnameFrom (read ++ (wireName labels ++ rest)) fuel read.length name =
      spell name labels := by
  induction labels generalizing read name fuel with
  | nil =>
      cases fuel with
      | zero => cases enough
      | succ fuel => simp [qnameFrom, wireName, wireLabels, spell]
  | cons label labels ih =>
      cases fuel with
      | zero => cases enough
      | succ fuel =>
          obtain ⟨atLeast, atMost⟩ := sizes label (by simp)
          obtain ⟨notZero, plain⟩ := plain_length atLeast atMost
          have split : read ++ (wireName (label :: labels) ++ rest) =
              (read ++ [UInt8.ofNat label.length]) ++ label ++ (wireName labels ++ rest) := by
            simp [wireName, wireLabels]
          have length : (read ++ (wireName (label :: labels) ++ rest))[read.length]? =
              some (UInt8.ofNat label.length) := by
            simp [wireName, wireLabels]
          have slice : (read ++ (wireName (label :: labels) ++ rest)).slice?
              (read.length + 1) label.length = some label := by
            rw [split]
            have sliced := Bytes.slice?_append (read ++ [UInt8.ofNat label.length]) label
              (wireName labels ++ rest)
            simpa using sliced
          unfold qnameFrom
          simp only [length, notZero, if_false, plain, toNat_ofNat_length atMost, slice,
            ne_eq, not_true_eq_false, false_or, spell]
          split
          · rfl
          · have next := ih (read ++ [UInt8.ofNat label.length] ++ label)
              (appendLabel name label) (Nat.lt_of_succ_lt_succ enough)
              (fun other member => sizes other (by simp [member]))
            have position : (read ++ [UInt8.ofNat label.length] ++ label).length =
                read.length + 1 + label.length := by
              simp only [List.length_append, List.length_singleton]
            rw [position, ← split] at next
            exact next

theorem le_labelBytes (label : Bytes) : label.length ≤ labelBytes label :=
  Nat.le_add_right _ _

/-- A longer spelling takes more bytes. -/
theorem utf8Len_le_foldl_appendLabel (name : List Char) (labels : List Bytes) :
    utf8Len name ≤ utf8Len (labels.foldl appendLabel name) := by
  induction labels generalizing name with
  | nil => exact Nat.le_refl _
  | cons label labels ih =>
      have grows : utf8Len name ≤ utf8Len (appendLabel name label) := by
        rw [utf8Len_appendLabel]
        omega
      exact Nat.le_trans grows (ih _)

/-- If any of the loop's length tests fails, the one on the last label does. -/
theorem spell_append_four (name : List Char) (before : List Bytes) {last : Bytes}
    (four : last.length = 4) :
    (utf8Len (before.foldl appendLabel name) ≤ 250 →
        spell name (before ++ [last]) =
          some (appendLabel (before.foldl appendLabel name) last)) ∧
      (250 < utf8Len (before.foldl appendLabel name) →
        spell name (before ++ [last]) = none) := by
  induction before generalizing name with
  | nil =>
      simp only [List.nil_append, spell, four, List.foldl_nil]
      constructor
      · intro fits
        rw [if_neg (by omega)]
      · intro beyond
        rw [if_pos (by omega)]
  | cons label labels ih =>
      have grows := utf8Len_le_foldl_appendLabel (appendLabel name label) labels
      have longer := le_labelBytes label
      rw [utf8Len_appendLabel] at grows
      simp only [List.cons_append, spell, List.foldl_cons]
      constructor
      · intro fits
        rw [if_neg (by omega)]
        exact (ih _).1 fits
      · intro beyond
        split
        · rfl
        · exact (ih _).2 beyond

theorem utf8Len_foldl_appendLabel {name : List Char} (started : name ≠ [])
    (labels : List Bytes) (nonempty : ∀ label ∈ labels, 1 ≤ label.length) :
    utf8Len (labels.foldl appendLabel name) =
      utf8Len name + (labels.map labelBytes).sum + labels.length := by
  induction labels generalizing name with
  | nil => simp
  | cons label labels ih =>
      have next := appendLabel_ne_nil name (nonempty label (by simp))
      rw [List.foldl_cons, ih next (fun other member => nonempty other (by simp [member])),
        utf8Len_appendLabel, if_neg started, List.map_cons, List.sum_cons, List.length_cons]
      omega

theorem utf8Len_spelled (labels : List Bytes)
    (nonempty : ∀ label ∈ labels, 1 ≤ label.length) :
    utf8Len (labels.foldl appendLabel []) = nameBytes labels := by
  cases labels with
  | nil => rfl
  | cons label labels =>
      have started := appendLabel_ne_nil [] (nonempty label (by simp))
      rw [List.foldl_cons, utf8Len_foldl_appendLabel started _
        (fun other member => nonempty other (by simp [member])), utf8Len_appendLabel]
      simp [nameBytes]

theorem map_nameChar_fips {last : Bytes} (fips : last.map lowerOctet = fipsLabel) :
    last.map nameChar = dotFips.tail := by
  have lowered : last.map nameChar = (last.map lowerOctet).map Char.ofUInt8 := by
    simp [nameChar_eq]
  rw [lowered, fips]
  decide

theorem isFips_appendLabel (name : List Char) {last : Bytes}
    (fips : last.map lowerOctet = fipsLabel) : isFips (appendLabel name last) = true := by
  unfold isFips appendLabel
  rw [map_nameChar_fips fips]
  by_cases empty : name = []
  · simp [empty]
  · have suffix : dotFips <:+ name ++ ['.'] ++ dotFips.tail :=
      ⟨name, by simp [dotFips]⟩
    simpa [empty] using Or.inr suffix

namespace FipsQuery

variable {message : Bytes} {before : List Bytes}

/-- The name is recognised exactly when the labels before `fips` fit. -/
theorem parseQname (query : FipsQuery message before) :
    (nameBytes before ≤ 250 → ∃ qname, Dns.parseQname message = some qname ∧
        isFips qname = true) ∧
      (250 < nameBytes before → Dns.parseQname message = none) := by
  obtain ⟨header, last, question, layout, headerLength, questionLength, fips, short⟩ :=
    query.layout
  have four : last.length = 4 := by
    have lengths := congrArg List.length fips
    simpa [fipsLabel] using lengths
  have sizes : ∀ label ∈ before ++ [last], 1 ≤ label.length ∧ label.length ≤ 63 := by
    intro label member
    rcases List.mem_append.mp member with earlier | final
    · exact query.labelSizes label earlier
    · rw [List.mem_singleton.mp final]
      omega
  have long : ¬ message.length < 12 := by
    rw [layout, List.append_assoc, List.length_append]
    omega
  have enough : (before ++ [last]).length < message.length := by
    have labels : (before ++ [last]).length ≤ (wireLabels (before ++ [last])).length :=
      length_le_wireLabels _
    rw [layout]
    simp only [wireName, List.length_append] at labels ⊢
    omega
  have counted : Bytes.be16 message[4] message[5] ≠ 0 :=
    query.counted _ _ (by simp) (by simp)
  have loop := qnameFrom_wireName header (before ++ [last]) question [] enough sizes
  rw [headerLength, ← List.append_assoc, ← layout] at loop
  have parsed : Dns.parseQname message = spell [] (before ++ [last]) := by
    simp only [Dns.parseQname, long, dif_neg, not_false_eq_true, counted, if_false, loop]
  have spelled := utf8Len_spelled before (fun label member => (query.labelSizes label member).1)
  have spelling := spell_append_four [] before four
  rw [spelled, ← parsed] at spelling
  constructor
  · intro fits
    exact ⟨_, spelling.1 fits, isFips_appendLabel _ fips⟩
  · exact spelling.2

end FipsQuery

/-- An exchange over an unprotected socket sends its query to its server and
does nothing else. -/
theorem forward_unprotected {proxy : DnsProxy} {network : Network} {query : Bytes}
    {server : SocketAddr} {event : Event}
    (member : event ∈ (forward proxy network query server false).2) :
    event = .sendTo server query := by
  unfold forward at member
  cases bound : network (bindAddr server) with
  | none => simp [bound] at member
  | some socket =>
      cases timeoutSet : socket.timeoutSet
      · simp [bound, timeoutSet] at member
      · cases sends : socket.sends <;> simpa [bound, timeoutSet, sends] using member

theorem fipsReply_sends {proxy : DnsProxy} {world : World} {query : Bytes}
    {qname : List Char} {event : Event}
    (member : event ∈ (fipsReply proxy world query qname).2) :
    ∃ payload, event = .sendTo proxy.localResponder payload ∧
      (payload = query ∨ ∃ npub, npubQuery query npub = some payload) := by
  unfold fipsReply at member
  cases hosts : hostsNpub proxy qname with
  | none =>
      simp only [hosts] at member
      exact ⟨query, forward_unprotected member, Or.inl rfl⟩
  | some npub =>
      cases translated : npubQuery query npub with
      | none => simp [hosts, translated] at member
      | some payload =>
          simp only [hosts, translated] at member
          exact ⟨payload, forward_unprotected member, Or.inr ⟨npub, translated⟩⟩

theorem respond_cases (query : Ipv6Udp) (reply : Option Bytes) (trace : Trace) :
    respond query reply trace = trace ∨ ∃ response,
      respond query reply trace =
        { trace with serving := trace.serving ++ [.emit response] } := by
  unfold respond
  cases reply.or (servfailFor query.payload) with
  | none => exact Or.inl rfl
  | some payload => exact Or.inr ⟨_, rfl⟩

variable {pubdom : PubdomCore} {proxy : DnsProxy} {world : World} {packet : Bytes}
  {query : Ipv6Udp}

/-- A recognised name is served by the local responder. -/
theorem serve_fips (parsed : parseIpv6Udp packet = some query) {qname : List Char}
    (named : parseQname query.payload = some qname) (fips : isFips qname = true) :
    ∃ trace, serve pubdom proxy world packet = some trace ∧
      StaysLocal proxy query.payload trace := by
  refine ⟨respond query (fipsReply proxy world query.payload qname).1
    ⟨(fipsReply proxy world query.payload qname).2, []⟩, ?_, ?_⟩
  · simp [serve, parsed, named, fips]
  · rcases respond_cases query (fipsReply proxy world query.payload qname).1
      ⟨(fipsReply proxy world query.payload qname).2, []⟩ with silent | ⟨response, emits⟩
    · rw [silent]
      exact ⟨rfl, fun event member => Or.inl (fipsReply_sends member)⟩
    · rw [emits]
      refine ⟨rfl, ?_⟩
      intro event member
      rcases List.mem_append.mp member with sent | emitted
      · exact Or.inl (fipsReply_sends sent)
      · exact Or.inr ⟨_, List.mem_singleton.mp emitted⟩

/-- An address of the Internet, for a resolver to be asked at. -/
def internetResolver : SocketAddr where
  ip := .v4 ⟨[9, 9, 9, 9], rfl⟩
  port := 53

/-- A proxy with that one upstream and no public names. -/
def plainProxy : DnsProxy where
  localResponder := ⟨.v6 ⟨List.replicate 15 0 ++ [1], rfl⟩, 5354⟩
  upstreams := [internetResolver]
  protect := false
  hosts := none
  names := none

/-- Sockets work, and nobody answers. -/
def silentWorld : World where
  responder := fun _ => some ⟨true, true, []⟩
  prefetchNet := fun _ _ => some ⟨true, true, []⟩
  inlineNet := fun _ _ => some ⟨true, true, []⟩
  prefetch := .unspawned
  patience := 0

/-- A name that does not parse is sent upstream. -/
theorem serve_unparsed (parsed : parseIpv6Udp packet = some query)
    (unnamed : parseQname query.payload = none) {trace : Trace}
    (served : serve pubdom plainProxy silentWorld packet = some trace) :
    .sendTo internetResolver query.payload ∈ trace.serving := by
  have unanswered : publicReply pubdom plainProxy silentWorld query.payload =
      some (none, ⟨[.forwardUpstreams, .sendTo internetResolver query.payload], []⟩) :=
    rfl
  have notFips : isFips [] = false := by decide
  simp only [serve, parsed, unnamed, Option.getD_none, notFips, unanswered,
    Bool.false_eq_true, if_false, Option.some.injEq] at served
  rw [← served]
  rcases respond_cases query none
      ⟨[.forwardUpstreams, .sendTo internetResolver query.payload], []⟩ with
    silent | ⟨response, emits⟩
  · simp [silent]
  · simp [emits]

/-- No `.fips` name leaks, whatever the proxy is configured with and whatever
it is answered, exactly as long as the labels before the last fit. -/
theorem fips_stays_local_iff {before : List Bytes}
    (parsed : parseIpv6Udp packet = some query) (fips : FipsQuery query.payload before) :
    (∀ pubdom proxy world, ∃ trace, serve pubdom proxy world packet = some trace ∧
        StaysLocal proxy query.payload trace) ↔
      nameBytes before ≤ 250 := by
  constructor
  · intro stays
    by_contra beyond
    have unnamed := fips.parseQname.2 (by omega)
    obtain ⟨trace, served, _, onlyLocal⟩ :=
      stays ⟨fun _ _ => none, 0⟩ plainProxy silentWorld
    have leaked := serve_unparsed parsed unnamed served
    rcases onlyLocal _ leaked with ⟨payload, sent, _⟩ | ⟨emitted, isEmit⟩
    · simp [plainProxy, internetResolver] at sent
    · cases isEmit
  · intro fits pubdom proxy world
    obtain ⟨qname, named, recognised⟩ := fips.parseQname.1 fits
    exact serve_fips parsed named recognised

/-- A query for the addresses of a name, without further records. -/
def dnsQuery (labels : List Bytes) : Bytes :=
  [0xbe, 0xef, 1, 0, 0, 1, 0, 0, 0, 0, 0, 0] ++ wireName labels ++ [0, 1, 0, 1]

theorem fipsQuery_dnsQuery (before : List Bytes) (last : Bytes)
    (sizes : ∀ label ∈ before, 1 ≤ label.length ∧ label.length ≤ 63)
    (fips : last.map lowerOctet = fipsLabel)
    (short : (wireName (before ++ [last])).length ≤ 255) :
    FipsQuery (dnsQuery (before ++ [last])) before := by
  constructor
  · exact ⟨_, last, _, rfl, rfl, by decide, fips, short⟩
  · intro high low atFour atFive
    simp only [dnsQuery, List.cons_append, List.getElem?_cons_succ, List.getElem?_cons_zero,
      Option.some.injEq] at atFour atFive
    rw [← atFour, ← atFive]
    decide
  · exact sizes

/-- A query from an app, in its tunnel packet. -/
def queryOf (payload : Bytes) : Ipv6Udp where
  src := ⟨0xfd :: List.replicate 15 1, rfl⟩
  dst := ⟨0xfd :: List.replicate 15 2, rfl⟩
  srcPort := 40000
  dstPort := 53
  payload := payload

def tunnelPacket (query : Ipv6Udp) : Bytes :=
  buildIpv6Udp query.src query.dst query.srcPort query.dstPort query.payload

def homeLabel : Bytes := [0x48, 0x6f, 0x6d, 0x65]

/-- `FIPS`, in capitals. -/
def capitalFips : Bytes := [0x46, 0x49, 0x50, 0x53]

/-- A query for `Home.FIPS` stays local, also where the node does not answer. -/
theorem home_fips_stays_local :
    ∃ trace,
      serve ⟨fun _ _ => none, 0⟩ plainProxy silentWorld
          (tunnelPacket (queryOf (dnsQuery [homeLabel, capitalFips]))) = some trace ∧
        StaysLocal plainProxy (dnsQuery [homeLabel, capitalFips]) trace := by
  have parsed : parseIpv6Udp (tunnelPacket (queryOf (dnsQuery [homeLabel, capitalFips]))) =
      some (queryOf (dnsQuery [homeLabel, capitalFips])) := by
    decide +kernel
  have fips : FipsQuery (dnsQuery [homeLabel, capitalFips]) [homeLabel] :=
    fipsQuery_dnsQuery [homeLabel] capitalFips (by decide) (by decide) (by decide)
  exact (fips_stays_local_iff parsed fips).mpr (by decide) _ _ _

/-- A label of 63 octets that all lie above ASCII. -/
def highLabel : Bytes := List.replicate 63 0x80

/-- A name of 134 octets on the wire that is sent to an Internet resolver. -/
theorem long_fips_name_leaks :
    ¬ ∀ packet query before, parseIpv6Udp packet = some query →
      FipsQuery query.payload before → ∀ pubdom proxy world, ∃ trace,
        serve pubdom proxy world packet = some trace ∧
          StaysLocal proxy query.payload trace := by
  intro claim
  have parsed : parseIpv6Udp
      (tunnelPacket (queryOf (dnsQuery [highLabel, highLabel, fipsLabel]))) =
        some (queryOf (dnsQuery [highLabel, highLabel, fipsLabel])) := by
    decide +kernel
  have fips : FipsQuery (dnsQuery [highLabel, highLabel, fipsLabel]) [highLabel, highLabel] :=
    fipsQuery_dnsQuery [highLabel, highLabel] fipsLabel (by decide +kernel) (by decide)
      (by decide +kernel)
  obtain ⟨trace, served, _, onlyLocal⟩ :=
    claim _ _ _ parsed fips ⟨fun _ _ => none, 0⟩ plainProxy silentWorld
  have unnamed := fips.parseQname.2 (by decide +kernel)
  rcases onlyLocal _ (serve_unparsed parsed unnamed served) with ⟨payload, sent, _⟩ |
    ⟨emitted, isEmit⟩
  · simp [plainProxy, internetResolver] at sent
  · cases isEmit

end Fips2Go.Dns
