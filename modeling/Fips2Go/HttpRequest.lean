import Fips2Go.CrlfLines
import Fips2Go.Ipv6Text

/-!
# The request of a mesh fetch

`build_request` of `shim/src/meshhttp.rs`: a GET request to an address, with
the caller's headers but for those that would break a line or end a name
early.  Whatever strings the caller gives, the head reads back as the lines
that were meant, and it ends where the request ends.
-/

namespace Fips2Go.MeshHttp

open CrlfLines (splitCrlf joinCrlf)
open Ipv6Text (decimal display)
open Utf8Text (Text encode)

/-- `contains` with an array of characters. -/
def containsAny (chars : List Char) (text : Text) : Bool := text.any fun char => chars.contains char

/-- One pass of the loop over the headers. -/
def pushHeader (r : Text) (header : Text × Text) : Text :=
  if containsAny ['\r', '\n', ':'] header.1 || containsAny ['\r', '\n'] header.2 then r
  else r ++ (header.1 ++ ": ".toList ++ header.2 ++ "\r\n".toList)

def buildRequest (addr : FixedBytes 16) (port : UInt16) (path : Text)
    (headers : List (Text × Text)) : Bytes :=
  let r :=
    "GET ".toList ++ path ++ " HTTP/1.1\r\nHost: [".toList ++ display addr ++ "]:".toList ++
      decimal port.toNat ++ "\r\nAccept: application/json\r\nConnection: close\r\n".toList
  let r := headers.foldl pushHeader r
  encode (r ++ "\r\n".toList)

/-! ### The lines of the head -/

def requestLine (path : Text) : Text := "GET ".toList ++ path ++ " HTTP/1.1".toList

def hostLine (addr : FixedBytes 16) (port : UInt16) : Text :=
  "Host: [".toList ++ display addr ++ "]:".toList ++ decimal port.toNat

def acceptLine : Text := "Accept: application/json".toList

def connectionLine : Text := "Connection: close".toList

def headerLine (header : Text × Text) : Text := header.1 ++ ": ".toList ++ header.2

/-- A header that stays on its line. -/
def OneLine (header : Text × Text) : Prop :=
  ('\r' ∉ header.1 ∧ '\n' ∉ header.1 ∧ ':' ∉ header.1) ∧ '\r' ∉ header.2 ∧ '\n' ∉ header.2

instance : DecidablePred OneLine := fun _ => inferInstanceAs (Decidable (_ ∧ _))

/-- The head line by line. -/
def headLines (addr : FixedBytes 16) (port : UInt16) (path : Text)
    (headers : List (Text × Text)) : List Text :=
  [requestLine path, hostLine addr port, acceptLine, connectionLine] ++
    (headers.filter OneLine).map headerLine

theorem containsAny_eq_false_iff (chars : List Char) (text : Text) :
    containsAny chars text = false ↔ ∀ char ∈ chars, char ∉ text := by
  simp only [containsAny, List.any_eq_false, List.contains_iff_mem]
  exact ⟨fun absent char listed inside => absent char inside listed,
    fun absent char inside listed => absent char listed inside⟩

theorem pushHeader_eq (r : Text) (header : Text × Text) :
    pushHeader r header =
      if OneLine header then r ++ (headerLine header ++ "\r\n".toList) else r := by
  have kept : (containsAny ['\r', '\n', ':'] header.1 || containsAny ['\r', '\n'] header.2) =
      false ↔ OneLine header := by
    rw [Bool.or_eq_false_iff, containsAny_eq_false_iff, containsAny_eq_false_iff]
    simp [OneLine]
  by_cases oneLine : OneLine header
  · rw [pushHeader, kept.mpr oneLine, if_pos oneLine]
    rfl
  · have dropped := mt kept.mp oneLine
    rw [Bool.not_eq_false] at dropped
    rw [pushHeader, dropped, if_neg oneLine]
    rfl

private theorem foldl_pushHeader (headers : List (Text × Text)) (r : Text) :
    headers.foldl pushHeader r =
      r ++ (headers.filter OneLine).flatMap fun header => headerLine header ++ "\r\n".toList := by
  induction headers generalizing r with
  | nil => simp
  | cons header headers ih =>
      rw [List.foldl_cons, pushHeader_eq]
      by_cases oneLine : OneLine header
      · rw [if_pos oneLine, ih, List.filter_cons_of_pos (by simpa using oneLine),
          List.flatMap_cons, List.append_assoc]
      · rw [if_neg oneLine, ih, List.filter_cons_of_neg (by simpa using oneLine)]

private theorem encode_lines (lines : List Text) :
    encode (lines.flatMap fun line => line ++ "\r\n".toList) =
      joinCrlf (lines.map encode) := by
  have ending : encode "\r\n".toList = CrlfLines.crlf := by decide
  induction lines with
  | nil => rfl
  | cons line lines ih =>
      rw [List.flatMap_cons, Utf8Text.encode_append, Utf8Text.encode_append, ih, ending]
      rfl

/-- The request is its lines, each with a line end, and a blank line. -/
theorem buildRequest_eq (addr : FixedBytes 16) (port : UInt16) (path : Text)
    (headers : List (Text × Text)) :
    buildRequest addr port path headers =
      joinCrlf ((headLines addr port path headers).map encode) ++ CrlfLines.crlf := by
  have ending : encode "\r\n".toList = CrlfLines.crlf := by decide
  have first : " HTTP/1.1\r\nHost: [".toList =
      " HTTP/1.1".toList ++ "\r\n".toList ++ "Host: [".toList := by rfl
  have second : "\r\nAccept: application/json\r\nConnection: close\r\n".toList =
      "\r\n".toList ++ acceptLine ++ "\r\n".toList ++ connectionLine ++ "\r\n".toList := by rfl
  have front : "GET ".toList ++ path ++ " HTTP/1.1\r\nHost: [".toList ++ display addr ++
        "]:".toList ++ decimal port.toNat ++
        "\r\nAccept: application/json\r\nConnection: close\r\n".toList =
      [requestLine path, hostLine addr port, acceptLine, connectionLine].flatMap
        fun line => line ++ "\r\n".toList := by
    unfold requestLine hostLine
    rw [first, second]
    simp only [List.flatMap_cons, List.flatMap_nil, List.append_assoc, List.append_nil]
  rw [← encode_lines, ← ending, ← Utf8Text.encode_append]
  simp only [buildRequest, foldl_pushHeader, front, headLines, List.flatMap_append,
    List.flatMap_map]

/-- Every line of the head is filled and has no carriage return in it. -/
theorem headLines_clean (addr : FixedBytes 16) (port : UInt16) {path : Text}
    (headers : List (Text × Text)) (noReturn : '\r' ∉ path) :
    ∀ line ∈ headLines addr port path headers, line ≠ [] ∧ '\r' ∉ line := by
  have addressClean : '\r' ∉ display addr := fun member =>
    (Ipv6Text.mem_display member).not_break.1 rfl
  have portClean : '\r' ∉ decimal port.toNat := fun member =>
    (Ipv6Text.mem_toDigits member).not_break.1 rfl
  have version : '1' ∈ " HTTP/1.1".toList := by decide
  have bracket : ']' ∈ "]:".toList := by decide
  have colon : ':' ∈ ": ".toList := by decide
  intro line member
  rcases List.mem_append.mp member with fixed | written
  · simp only [List.mem_cons, List.not_mem_nil, or_false] at fixed
    rcases fixed with rfl | rfl | rfl | rfl
    · refine ⟨List.ne_nil_of_mem (List.mem_append_right _ version), ?_⟩
      simp only [requestLine, List.mem_append, not_or]
      exact ⟨⟨by decide, noReturn⟩, by decide⟩
    · unfold hostLine
      refine ⟨List.ne_nil_of_mem (List.mem_append_left _ (List.mem_append_right _ bracket)), ?_⟩
      simp only [List.mem_append, not_or]
      exact ⟨⟨⟨by decide, addressClean⟩, by decide⟩, portClean⟩
    · decide
    · decide
  · obtain ⟨header, kept, rfl⟩ := List.mem_map.mp written
    have oneLine : OneLine header := by simpa using (List.mem_filter.mp kept).2
    refine ⟨List.ne_nil_of_mem (List.mem_append_left _ (List.mem_append_right _ colon)), ?_⟩
    simp only [headerLine, List.mem_append, not_or]
    exact ⟨⟨oneLine.1.1, by decide⟩, oneLine.2.1⟩

/-- Split at CR LF, the request is its request line, the three fixed lines,
one line for each header that stays on its line, in the given order, and the
blank line, with nothing behind it; no blank line comes before. -/
theorem build_request_lines (addr : FixedBytes 16) (port : UInt16) (path : Text)
    (headers : List (Text × Text)) (noReturn : '\r' ∉ path) :
    splitCrlf (buildRequest addr port path headers) =
        ([requestLine path, hostLine addr port, acceptLine, connectionLine] ++
          (headers.filter OneLine).map headerLine ++ [[]]).map encode ++ [[]] ∧
      Bytes.windowPosition (CrlfLines.crlf ++ CrlfLines.crlf)
          (buildRequest addr port path headers) =
        some ((buildRequest addr port path headers).length - 4) := by
  have clean := headLines_clean addr port headers noReturn
  have filled : ∀ line ∈ (headLines addr port path headers).map encode, line ≠ [] := by
    intro line member
    obtain ⟨text, inside, rfl⟩ := List.mem_map.mp member
    intro empty
    exact (clean text inside).1 (Utf8Text.encode_eq_nil_iff.mp empty)
  have unbroken : ∀ line ∈ (headLines addr port path headers).map encode, 13 ∉ line := by
    intro line member
    obtain ⟨text, inside, rfl⟩ := List.mem_map.mp member
    intro found
    exact (clean text inside).2 ((Utf8Text.mem_encode_iff (by decide)).mp found)
  rw [buildRequest_eq]
  constructor
  · have blank : splitCrlf CrlfLines.crlf = [encode []] ++ [[]] := by decide
    rw [CrlfLines.splitCrlf_joinCrlf unbroken, blank, ← List.append_assoc, List.map_append]
    rfl
  · rw [CrlfLines.windowPosition_blank (by simp [headLines]) filled unbroken,
      List.length_append]
    simp only [CrlfLines.crlf, List.length_cons, List.length_nil, Option.some.injEq]
    omega

/-- A header with a line break in its value is dropped, the other one has its
line. -/
theorem build_request_lines_hosts :
    splitCrlf (buildRequest
        ⟨[0xfd, 1, 0, 0, 0, 0, 0, 0, 0, 0, 0, 0, 0, 0, 0, 1], rfl⟩ 8321 "/api/hosts".toList
        [("x-fips-ui-sync".toList, "version=1".toList),
          ("x-evil".toList, "a\r\nHost: b".toList)]) =
      ["GET /api/hosts HTTP/1.1", "Host: [fd01::1]:8321", "Accept: application/json",
        "Connection: close", "x-fips-ui-sync: version=1", "", ""].map
          fun line => encode line.toList := by
  refine (build_request_lines _ _ _ _ (by decide)).1.trans ?_
  decide +kernel

end Fips2Go.MeshHttp
