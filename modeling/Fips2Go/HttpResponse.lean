import Fips2Go.ByteSearch
import Fips2Go.Machine
import Fips2Go.Utf8Text

/-!
# HTTP responses from the mesh

`header_end`, `header_value`, `is_complete`, `parse_response` and `dechunk` of
`shim/src/meshhttp.rs`, with the arithmetic of the machine they run on.  A slice
that the source takes with `get` is an option; any other slice, and every sum, can
stop the program.
-/

namespace Fips2Go.MeshHttp

open Machine Utf8Text Bytes

structure Response where
  status : Nat
  body : Bytes
  deriving DecidableEq

def crlf : Bytes := [13, 10]

def blankLine : Bytes := [13, 10, 13, 10]

def noHeaders : String := "no HTTP response (connection closed before the headers)"
def notHttp : String := "not an HTTP response"
def bodyCutShort : String := "response body cut short"
def chunksCutShort : String := "chunked body cut short"
def badChunkSize : String := "bad chunk size"

/-- The value of the first header line of that name. -/
def headerValue (head name : Text) : Option Text :=
  ((lines head).drop 1).findSome? fun line =>
    match splitOnce ':' line with
    | some (key, value) => if eqIgnoreAsciiCase (trim key) name then some (trim value) else none
    | none => none

def contentLengthName : Text := "content-length".toList

def transferEncodingName : Text := "transfer-encoding".toList

section Machine

variable (target : Target)

/-- Header block end, if present. -/
def headerEnd (data : Bytes) : Checked (Option Nat) :=
  match windowPosition blankLine data with
  | none => .ok none
  | some index => do return some (← target.add index 4)

/-- The `Content-Length` that a head declares. -/
def contentLength (head : Text) : Option Nat :=
  (headerValue head contentLengthName).bind (fromStrRadix 10 target.wordEnd)

/-- A `Content-Length` response whose body has fully arrived. -/
def isComplete (data : Bytes) : Checked Bool := do
  match ← headerEnd target data with
  | none => return false
  | some last =>
      let head := fromUtf8Lossy (← between data 0 last)
      match contentLength target head with
      | none => return false
      | some size => return (← target.add last size) ≤ data.length

/-- The status code in the first line of a head. -/
def statusOf (head : Text) : Option Nat := do
  let line ← (lines head).head?
  let version ← line.dropPrefix? "HTTP/1.".toList
  fromStrRadix 10 (2 ^ 16) (← getBetween version 2 5)

def isChunked (head : Text) : Bool :=
  (headerValue head transferEncodingName).any fun value =>
    "chunked".toList <:+: toAsciiLowercase value

/-- The size that a chunk's first line declares. -/
def chunkSize (line : Bytes) : Option Nat :=
  fromStrRadix 16 target.wordEnd (trim (firstField ';' (fromUtf8Lossy line)))

/-- The loop of `dechunk`, for so many rounds at most. -/
def dechunkLoop : Nat → Bytes → Bytes → Checked (Except String Bytes)
  | 0, _, _ => .error .unending
  | fuel + 1, raw, out => do
      match windowPosition crlf raw with
      | none => return .error chunksCutShort
      | some lineEnd =>
          match chunkSize target (← between raw 0 lineEnd) with
          | none => return .error badChunkSize
          | some size =>
              let raw ← between raw (← target.add lineEnd 2) raw.length
              if size = 0 then return .ok out
              else
                match getTo raw size with
                | none => return .error chunksCutShort
                | some chunk =>
                    match getFrom raw (← target.add size 2) with
                    | none => return .error chunksCutShort
                    | some raw => dechunkLoop fuel raw (out ++ chunk)

/-- `dechunk`: each round takes two octets at least. -/
def dechunk (raw : Bytes) : Checked (Except String Bytes) :=
  dechunkLoop target (raw.length + 1) raw []

/-- The body of a response with that head and those octets behind it. -/
def bodyOf (head : Text) (raw : Bytes) : Checked (Except String Bytes) :=
  if isChunked head then dechunk target raw
  else
    match contentLength target head with
    | some size =>
        match getTo raw size with
        | some body => .ok (.ok body)
        | none => .ok (.error bodyCutShort)
    | none => .ok (.ok raw)

def parseResponse (data : Bytes) : Checked (Except String Response) := do
  match ← headerEnd target data with
  | none => return .error noHeaders
  | some last =>
      let head := fromUtf8Lossy (← between data 0 last)
      match statusOf head with
      | none => return .error notHttp
      | some status =>
          let raw ← between data last data.length
          return (← bodyOf target head raw).map fun body => ⟨status, body⟩

end Machine

end Fips2Go.MeshHttp
