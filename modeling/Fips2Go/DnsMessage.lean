import Fips2Go.ByteStrings
import Mathlib

/-!
# DNS messages as the proxy reads and writes them

The message functions of `shim/src/dns.rs`: the name and the end of the first
question, the query re-asked for a node's own name, the reply re-issued for
the name the app asked, and the SERVFAIL of last resort.  A name is a string
of characters, one for each octet, so an octet from 128 on takes two bytes of
the string's length.  Loops over a message take its length as their fuel: each
round moves forward by at least one octet.
-/

namespace Fips2Go.Dns

/-- `String::len`: the length in UTF-8. -/
def utf8Len (text : List Char) : Nat :=
  (text.map Char.utf8Size).sum

/-- `(octet as char).to_ascii_lowercase()`. -/
def nameChar (octet : UInt8) : Char :=
  (Char.ofUInt8 octet).toLower

/-- The label loop of `parse_qname`. -/
def qnameFrom (message : Bytes) : Nat → Nat → List Char → Option (List Char)
  | 0, _, _ => none
  | fuel + 1, pos, name =>
      match message[pos]? with
      | none => none
      | some len =>
          if len = 0 then some name
          else if len &&& 0xc0 ≠ 0 ∨ utf8Len name + len.toNat + 1 > 255 then none
          else
            match message.slice? (pos + 1) len.toNat with
            | none => none
            | some label =>
                let separated := if name = [] then name else name ++ ['.']
                qnameFrom message fuel (pos + 1 + len.toNat)
                  (separated ++ label.map nameChar)

/-- The first question's name, lowercase, without a trailing dot. -/
def parseQname (message : Bytes) : Option (List Char) :=
  if short : message.length < 12 then none
  else if Bytes.be16 message[4] message[5] = 0 then none
  else qnameFrom message message.length 12 []

def questionNameEnd (message : Bytes) : Nat → Nat → Option Nat
  | 0, _ => none
  | fuel + 1, pos =>
      match message[pos]? with
      | none => none
      | some len =>
          if len = 0 then some pos
          else if len &&& 0xc0 = 0 then
            questionNameEnd message fuel (pos + 1 + len.toNat)
          else none

/-- Offset just past the first question. -/
def questionEnd (message : Bytes) : Option Nat :=
  match questionNameEnd message message.length 12 with
  | none => none
  | some pos => if message.length ≥ pos + 5 then some (pos + 5) else none

theorem le_questionNameEnd {message : Bytes} {fuel pos last : Nat}
    (ended : questionNameEnd message fuel pos = some last) : pos ≤ last := by
  induction fuel generalizing pos with
  | zero => cases ended
  | succ fuel ih =>
      unfold questionNameEnd at ended
      split at ended
      · cases ended
      · split at ended
        · exact (Option.some.inj ended).le
        · split at ended
          · exact (Nat.le_add_right pos _).trans ((Nat.le_add_right _ _).trans (ih ended))
          · cases ended

theorem questionNameEnd_lt {message : Bytes} {fuel pos last : Nat}
    (ended : questionNameEnd message fuel pos = some last) : last < message.length := by
  induction fuel generalizing pos with
  | zero => cases ended
  | succ fuel ih =>
      unfold questionNameEnd at ended
      split at ended
      · cases ended
      next octet =>
        split at ended
        · exact Option.some.inj ended ▸ (List.getElem?_eq_some_iff.mp octet).1
        · split at ended
          · exact ih ended
          · cases ended

/-- The first question lies in the message, behind its header. -/
theorem questionEnd_bounds {message : Bytes} {qend : Nat}
    (ended : questionEnd message = some qend) : 17 ≤ qend ∧ qend ≤ message.length := by
  unfold questionEnd at ended
  split at ended
  · cases ended
  next pos named =>
    have behind := le_questionNameEnd named
    split at ended
    · have := Option.some.inj ended
      omega
    · cases ended

def typeAaaa : UInt16 := 28

/-- `fips` as a label. -/
def fipsLabel : Bytes := [0x66, 0x69, 0x70, 0x73]

/-- `query` re-asked for `<npub>.fips`. -/
def npubQuery (query npub : Bytes) : Option Bytes :=
  match questionEnd query with
  | none => none
  | some qend =>
      if npub = [] ∨ npub.length > 63 then none
      else some (query.take 4 ++ [0, 1, 0, 0, 0, 0, 0, 0] ++
        [UInt8.ofNat npub.length] ++ npub ++ [4] ++ fipsLabel ++ [0] ++
        (query.drop (qend - 4)).take 4)

/-- The owner-name loop of `answer_as_asked`. -/
def ownerEnd (reply : Bytes) : Nat → Nat → Option Nat
  | 0, _ => none
  | fuel + 1, pos =>
      match reply[pos]? with
      | none => none
      | some len =>
          if len = 0 then some (pos + 1)
          else if len &&& 0xc0 = 0xc0 then some (pos + 2)
          else ownerEnd reply fuel (pos + 1 + len.toNat)

theorem ownerEnd_le {reply : Bytes} {fuel pos last : Nat}
    (ended : ownerEnd reply fuel pos = some last) : last ≤ reply.length + 1 := by
  induction fuel generalizing pos with
  | zero => cases ended
  | succ fuel ih =>
      unfold ownerEnd at ended
      split at ended
      · cases ended
      next octet =>
        have inside := (List.getElem?_eq_some_iff.mp octet).1
        split at ended
        · have := Option.some.inj ended
          omega
        · split at ended
          · have := Option.some.inj ended
            omega
          · exact ih ended

/-- The record loop of `answer_as_asked`: the AAAA records among the next
`count`, re-pointed at the asked name, and their number. -/
def answerRecords (reply : Bytes) : Nat → Nat → Bytes → Nat → Option (Bytes × Nat)
  | 0, _, out, answers => some (out, answers)
  | count + 1, pos, out, answers =>
      match ownerEnd reply reply.length pos with
      | none => none
      | some pos =>
          match reply.slice? pos 10 with
          | some [t0, t1, c0, c1, l0, l1, l2, l3, r0, r1] =>
              let rdlen := (Bytes.be16 r0 r1).toNat
              match reply.slice? (pos + 10) rdlen with
              | none => none
              | some rdata =>
                  if Bytes.be16 t0 t1 = typeAaaa ∧ rdlen = 16 then
                    answerRecords reply count (pos + 10 + rdlen)
                      (out ++ [0xc0, 0x0c] ++
                        [t0, t1, c0, c1, l0, l1, l2, l3, r0, r1] ++ rdata)
                      (answers + 1)
                  else answerRecords reply count (pos + 10 + rdlen) out answers
          | _ => none

/-- The responder's reply, re-issued for the question the app asked. -/
def answerAsAsked (query reply : Bytes) : Option Bytes :=
  match questionEnd query, reply.slice? 2 2, questionEnd reply with
  | some qend, some flags, some pos =>
      match reply.slice? 6 2 with
      | some [high, low] =>
          match answerRecords reply (Bytes.be16 high low).toNat pos [] 0 with
          | none => none
          | some (records, answers) =>
              some (query.take 2 ++ flags ++ [0, 1] ++
                Bytes.toBe16 (UInt16.ofNat answers) ++ [0, 0, 0, 0] ++
                (query.take qend).drop 12 ++ records)
      | _ => none
  | _, _, _ => none

/-- A minimal SERVFAIL: QR set, AA clear, RCODE 2, no records counted. -/
def servfailFor (query : Bytes) : Option Bytes :=
  match query with
  | id0 :: id1 :: flags0 :: flags1 :: qd0 :: qd1 :: _ :: _ :: _ :: _ :: _ :: _ :: rest =>
      some (id0 :: id1 :: ((flags0 ||| 0x80) &&& ~~~ 0x04) ::
        ((flags1 &&& 0xf0) ||| 0x02) :: qd0 :: qd1 :: 0 :: 0 :: 0 :: 0 :: 0 :: 0 :: rest)
  | _ => none

end Fips2Go.Dns
