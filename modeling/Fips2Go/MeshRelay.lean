import Fips2Go.ByteSearch
import Fips2Go.Utf8Text

/-!
# The loopback listener of a mesh relay

`parse_mesh_relay`, `MeshRelayProxy::start` and `admit` of `shim/src/meshtcp.rs`.
Every app on the phone can connect to loopback, so a client has to put the token
of the local URL in front of the path it asks for; the relay sees the path only.
Public keys and their addresses are of another crate and a parameter here.
-/

namespace Fips2Go.MeshRelay

open Utf8Text Bytes

/-- `Npub::parse`, `to_string` and `fips_address`. -/
structure Npubs (Npub Address : Type) where
  parse : Text → Option Npub
  toText : Npub → Text
  fipsAddress : Npub → Address

variable {Npub Address : Type}

/-- A host, and its port or 80. -/
def hostAndPort (hostport : Text) : Option (Text × Nat) :=
  match rsplitOnce ':' hostport with
  | some (host, port) => do
      let port ← fromStrRadix 10 (2 ^ 16) port
      if port ≠ 0 then some (host, port) else none
  | none => some (hostport, 80)

/-- A mesh relay URL: `ws://<npub>.fips[:port][/path]`. -/
def parseMeshRelay (npubs : Npubs Npub Address) (url : Text) : Option (Npub × Nat × Text) := do
  let rest ← url.dropPrefix? "ws://".toList
  let path := rest.dropWhile (· ≠ '/')
  let (host, port) ← hostAndPort (rest.takeWhile (· ≠ '/'))
  let npub ← (toAsciiLowercase host).dropSuffix? ".fips".toList
  return (← npubs.parse npub, port, path)

structure Relay (Address : Type) where
  npub : Text
  addr : Address
  port : Nat
  path : Text
  token : Text
  name : Text

structure MeshRelayProxy where
  localUrl : Text
  «local» : Text

/-- What the operating system answers to `start`, and its random numbers. -/
structure Loopback where
  listener : Except Text Unit
  localAddr : Except Text Text
  random : UInt64 × UInt64
  thread : Except Text Unit

/-- `{:016x}`. -/
def hex16 (word : UInt64) : Text :=
  (List.range 16).reverse.map fun place => Nat.digitChar (word.toNat / 16 ^ place % 16)

def newToken (random : UInt64 × UInt64) : Text := hex16 random.1 ++ hex16 random.2

def start (npubs : Npubs Npub Address) (loopback : Loopback) (url : Text) :
    Except Text (Relay Address × MeshRelayProxy) :=
  match parseMeshRelay npubs url with
  | none => .error (url ++ ": not a ws://<npub>.fips relay".toList)
  | some (npub, port, path) => do
      loopback.listener.mapError (url ++ ": listen: ".toList ++ ·)
      let «local» ← loopback.localAddr
      let token := newToken loopback.random
      let relay := ⟨npubs.toText npub, npubs.fipsAddress npub, port, path, token, url⟩
      loopback.thread
      return (relay, ⟨"ws://".toList ++ «local» ++ '/' :: token ++ path, «local»⟩)

/-- The end of a request head. -/
def blankLine : Bytes := [13, 10, 13, 10]

/-- `admit`: the request head with the token checked and replaced by the relay's path,
plus whatever followed it. -/
def admitHead (head : Bytes) (token path : Text) : Option Bytes := do
  let _ ← windowPosition blankLine head
  let lineEnd ← head.findIdx? (· = 10)
  let text ← fromUtf8 (head.take lineEnd)
  let line := trimEndMatches '\r' text
  let target ← (← line.dropPrefix? "GET ".toList).dropSuffix? " HTTP/1.1".toList
  let rest ← (← target.dropPrefix? ['/']).dropPrefix? token
  if rest = [] ∨ rest.head? = some '/' ∨ rest.head? = some '?' then
    let rest := (rest.dropPrefix? path).getD rest
    let target := path ++ rest
    let target := if target.head? = some '/' then target else '/' :: target
    return encode ("GET ".toList ++ target ++ " HTTP/1.1\r\n".toList) ++ head.drop (lineEnd + 1)
  else none

/-! ### What is admitted -/

def requestLine (target : Text) : Text := "GET ".toList ++ target ++ " HTTP/1.1".toList

/-- Up to its first line feed the head has the line and carriage returns behind
it, and the tail follows. -/
structure FirstLine (head line tail : Bytes) : Prop where
  parts : ∃ returns, head = line ++ List.replicate returns 13 ++ 10 :: tail
  unbroken : 10 ∉ line
  trimmed : line.getLast? ≠ some 13

/-- A complete head whose first line asks for the token and something that does not
make the token longer. -/
structure Requests (token : Text) (head : Bytes) (rest : Text) (tail : Bytes) : Prop where
  complete : blankLine <:+: head
  firstLine : FirstLine head (encode (requestLine ('/' :: token ++ rest))) tail
  bounded : rest = [] ∨ rest.head? = some '/' ∨ rest.head? = some '?'

/-- What the relay is asked for: the rest where that has the relay's path already,
else the path and the rest, rooted. -/
def relayTarget (path rest : Text) : Text :=
  let target := if path <+: rest then rest else path ++ rest
  if target.head? = some '/' then target else '/' :: target

theorem relayTarget_rooted (path rest : Text) : (relayTarget path rest).head? = some '/' := by
  unfold relayTarget
  generalize (if path <+: rest then rest else path ++ rest) = target
  by_cases rooted : target.head? = some '/'
  · rw [if_pos rooted]
    exact rooted
  · rw [if_neg rooted]
    rfl

theorem append_dropPrefix (path rest : Text) :
    path ++ (rest.dropPrefix? path).getD rest = if path <+: rest then rest else path ++ rest := by
  split
  next front =>
    obtain ⟨more, rfl⟩ := front
    rw [List.dropPrefix?_append_of_beq more (by simp), Option.getD_some]
  next apart =>
    have none : rest.dropPrefix? path = none := by
      rw [Option.eq_none_iff_forall_ne_some]
      intro more dropped
      obtain ⟨same, whole, equal⟩ := List.dropPrefix?_eq_some_iff.mp dropped
      rw [beq_iff_eq.mp equal] at whole
      exact apart ⟨more, whole.symm⟩
    rw [none, Option.getD_none]

/-! ### The first line -/

theorem requestLine_eq_append (target : Text) :
    requestLine target = "GET ".toList ++ target ++ " HTTP/1.".toList ++ ['1'] := by
  simp [requestLine]

theorem requestLine_getLast (target : Text) : (requestLine target).getLast? = some '1' := by
  rw [requestLine_eq_append, List.getLast?_concat]

theorem encode_requestLine_trimmed (target : Text) :
    (encode (requestLine target)).getLast? ≠ some 13 := by
  rw [requestLine_eq_append, encode_append, List.getLast?_append_of_ne_nil _ (by decide)]
  decide

/-- The first line of a head is what is read of it. -/
theorem firstLine_iff {head : Bytes} {target : Text} {tail : Bytes} :
    FirstLine head (encode (requestLine target)) tail ↔
      ∃ lineEnd text, head.findIdx? (· = 10) = some lineEnd ∧
        fromUtf8 (head.take lineEnd) = some text ∧
        trimEndMatches '\r' text = requestLine target ∧ head.drop (lineEnd + 1) = tail := by
  constructor
  · rintro ⟨⟨returns, rfl⟩, unbroken, -⟩
    have front : encode (requestLine target ++ List.replicate returns '\r') =
        encode (requestLine target) ++ List.replicate returns 13 := by
      rw [encode_append, encode_replicate (by decide)]
      rfl
    have trimmed : trimEndMatches '\r' (requestLine target ++ List.replicate returns '\r') =
        requestLine target := by
      apply trimEndMatches_append
      rw [requestLine_getLast]
      decide
    have unbroken : 10 ∉ encode (requestLine target) ++ List.replicate returns 13 := by
      simp [unbroken, List.mem_replicate]
    refine ⟨_, _, findIdx_of_parts unbroken tail, ?_, trimmed, ?_⟩
    · rw [List.take_left, ← front]
      exact fromUtf8_encode _
    · rw [List.drop_length_add_append]
      rfl
  · rintro ⟨lineEnd, text, found, read, trimmed, rfl⟩
    obtain ⟨whole, unbroken⟩ := parts_of_findIdx found
    obtain ⟨returns, parts⟩ := exists_trimmed '\r' text
    rw [trimmed] at parts
    have octets := fromUtf8_eq_some_iff.mp read
    rw [parts, encode_append, encode_replicate (by decide)] at octets
    refine ⟨⟨returns, ?_⟩, ?_, encode_requestLine_trimmed target⟩
    · exact octets ▸ whole
    · intro member
      rw [← octets] at unbroken
      exact unbroken (List.mem_append_left _ member)

/-- A line is a request line exactly if its parts can be stripped. -/
theorem strip_requestLine {line token rest : Text} :
    (∃ behind, line.dropPrefix? "GET ".toList = some behind ∧
      ∃ target, behind.dropSuffix? " HTTP/1.1".toList = some target ∧
      ∃ inside, target.dropPrefix? ['/'] = some inside ∧ inside.dropPrefix? token = some rest) ↔
        line = requestLine ('/' :: token ++ rest) := by
  simp only [List.dropPrefix?_eq_some_iff, List.dropSuffix?_eq_some_iff, beq_iff_eq, requestLine]
  constructor
  · rintro ⟨_, ⟨_, rfl, rfl⟩, _, ⟨_, rfl, rfl⟩, _, ⟨_, rfl, rfl⟩, _, rfl, rfl⟩
    simp
  · rintro rfl
    exact ⟨'/' :: token ++ rest ++ " HTTP/1.1".toList, ⟨_, by simp, rfl⟩, '/' :: token ++ rest,
      ⟨_, by simp, rfl⟩, token ++ rest, ⟨_, rfl, rfl⟩, _, rfl, rfl⟩

/-- What `admit` returns for a rest that is bounded. -/
theorem admitted_eq (path rest : Text) (tail : Bytes) :
    (let target := path ++ (rest.dropPrefix? path).getD rest
      let target := if target.head? = some '/' then target else '/' :: target
      encode ("GET ".toList ++ target ++ " HTTP/1.1\r\n".toList) ++ tail) =
        encode (requestLine (relayTarget path rest) ++ "\r\n".toList) ++ tail := by
  have target := append_dropPrefix path rest
  simp only [target, requestLine, List.append_assoc]
  rfl

theorem admitHead_eq_some_iff {head : Bytes} {token path : Text} {out : Bytes} :
    admitHead head token path = some out ↔ ∃ rest tail, Requests token head rest tail ∧
      out = encode (requestLine (relayTarget path rest) ++ "\r\n".toList) ++ tail := by
  simp only [admitHead, Option.bind_eq_bind, Option.bind_eq_some_iff]
  constructor
  · rintro ⟨_, ends, lineEnd, found, text, read, behind, getting, target, versioned, inside,
      rooted, rest, holds, answer⟩
    have line := strip_requestLine.mp ⟨behind, getting, target, versioned, inside, rooted, holds⟩
    have firstLine := firstLine_iff.mpr ⟨lineEnd, text, found, read, line, rfl⟩
    have complete : blankLine <:+: head := by
      by_contra absent
      rw [(windowPosition_eq_none_iff (by decide)).mpr absent] at ends
      cases ends
    split at answer
    next bounded =>
      refine ⟨rest, _, ⟨complete, firstLine, bounded⟩, ?_⟩
      rw [← admitted_eq]
      exact (Option.some.inj answer).symm
    next => cases answer
  · rintro ⟨rest, tail, ⟨complete, firstLine, bounded⟩, rfl⟩
    obtain ⟨index, ends⟩ := exists_windowPosition complete (by decide)
    obtain ⟨lineEnd, text, found, read, line, rfl⟩ := firstLine_iff.mp firstLine
    obtain ⟨behind, getting, target, versioned, inside, rooted, holds⟩ :=
      strip_requestLine.mpr line
    refine ⟨index, ends, lineEnd, found, text, read, behind, getting, target, versioned, inside,
      rooted, rest, holds, ?_⟩
    rw [if_pos bounded, ← admitted_eq]
    rfl

/-! ### The local URL -/

theorem exists_ok_of_bind {Error Value Result : Type} {computed : Except Error Value}
    {next : Value → Except Error Result} {result : Result}
    (returned : (computed >>= next) = .ok result) :
    ∃ value, computed = .ok value ∧ next value = .ok result := by
  cases computed with
  | error => cases returned
  | ok value => exact ⟨value, rfl, returned⟩

theorem hex16_unbroken (word : UInt64) : '\n' ∉ hex16 word := by
  have digits : ∀ digit < 16, Nat.digitChar digit ≠ '\n' := by decide
  intro member
  obtain ⟨place, -, digit⟩ := List.mem_map.mp member
  exact digits _ (Nat.mod_lt _ (by decide)) digit

/-- The path of a relay URL is empty or begins with a slash. -/
theorem parseMeshRelay_path {npubs : Npubs Npub Address} {url : Text} {npub : Npub} {port : Nat}
    {path : Text} (parsed : parseMeshRelay npubs url = some (npub, port, path)) :
    path = [] ∨ path.head? = some '/' := by
  simp only [parseMeshRelay, Option.bind_eq_bind, Option.bind_eq_some_iff] at parsed
  obtain ⟨rest, -, host, -, label, -, key, -, returned⟩ := parsed
  have path_eq : rest.dropWhile (· ≠ '/') = path := by
    injection returned with returned
    exact congrArg (fun parts => parts.2.2) returned
  have front := List.head?_dropWhile_not (fun char => decide (char ≠ '/')) rest
  rw [path_eq] at front
  cases path with
  | nil => exact .inl rfl
  | cons char path =>
      refine .inr (congrArg some ?_)
      simpa using front

/-- A proxy listens for the path of its URL behind a token of hexadecimal digits. -/
theorem start_spec {npubs : Npubs Npub Address} {loopback : Loopback} {url : Text}
    {relay : Relay Address} {proxy : MeshRelayProxy}
    (started : start npubs loopback url = .ok (relay, proxy)) :
    (relay.path = [] ∨ relay.path.head? = some '/') ∧ '\n' ∉ relay.token ∧
      proxy.localUrl = "ws://".toList ++ proxy.«local» ++ ('/' :: relay.token ++ relay.path) := by
  unfold start at started
  cases parsed : parseMeshRelay npubs url with
  | none => simp [parsed] at started
  | some parts =>
      obtain ⟨npub, port, path⟩ := parts
      have rooted := parseMeshRelay_path parsed
      simp only [parsed] at started
      obtain ⟨_, -, started⟩ := exists_ok_of_bind started
      obtain ⟨address, -, started⟩ := exists_ok_of_bind started
      obtain ⟨_, -, started⟩ := exists_ok_of_bind started
      cases started
      refine ⟨rooted, ?_, by simp⟩
      simp [newToken, hex16_unbroken]

theorem relayTarget_self {path : Text} (rooted : path = [] ∨ path.head? = some '/') :
    relayTarget path path = if path = [] then ['/'] else path := by
  rcases rooted with rfl | rooted
  · rfl
  · have nonempty : path ≠ [] := by
      rintro rfl
      cases rooted
    simp [relayTarget, rooted, nonempty]

/-- A request that is on one line has that for its first line. -/
theorem firstLine_request {target : Text} (unbroken : '\n' ∉ target) (fields : Bytes) :
    FirstLine (encode (requestLine target ++ "\r\n".toList) ++ fields)
      (encode (requestLine target)) fields := by
  refine ⟨⟨1, ?_⟩, ?_, encode_requestLine_trimmed target⟩
  · rw [encode_append, List.append_assoc, List.append_assoc]
    rfl
  · intro member
    have broken := (mem_encode_iff (show '\n'.toNat < 0x80 by decide)).mp member
    simp [requestLine, unbroken] at broken

/-- Exactly the requests for the token are admitted, and with what is behind their
first line unchanged; the client of the local URL reaches the relay's path. -/
theorem admits_token_holder_only (npubs : Npubs Npub Address) (loopback : Loopback) :
    (∀ head token path out, admitHead head token path = some out ↔ ∃ rest tail,
      Requests token head rest tail ∧
        out = encode (requestLine (relayTarget path rest) ++ "\r\n".toList) ++ tail) ∧
    (∀ path rest, (relayTarget path rest).head? = some '/') ∧
    ∀ url relay proxy, start npubs loopback url = .ok (relay, proxy) → '\n' ∉ relay.path →
      ∀ target fields, proxy.localUrl = "ws://".toList ++ proxy.«local» ++ target →
        blankLine <:+: encode (requestLine target ++ "\r\n".toList) ++ fields →
        admitHead (encode (requestLine target ++ "\r\n".toList) ++ fields) relay.token relay.path =
          some (encode (requestLine (if relay.path = [] then ['/'] else relay.path) ++
            "\r\n".toList) ++ fields) := by
  refine ⟨fun _ _ _ _ => admitHead_eq_some_iff, relayTarget_rooted, ?_⟩
  intro url relay proxy started unbroken target fields dialled complete
  obtain ⟨rooted, solid, localUrl⟩ := start_spec started
  rw [localUrl] at dialled
  obtain rfl := List.append_cancel_left dialled
  rw [← relayTarget_self rooted, admitHead_eq_some_iff]
  refine ⟨relay.path, fields, ⟨complete, firstLine_request ?_ fields, ?_⟩, rfl⟩
  · simp [unbroken, solid]
  · rcases rooted with empty | slash
    · exact .inl empty
    · exact .inr (.inl slash)

private def oneNpub : Npubs Unit Unit where
  parse text := if text = "npub1relay".toList then some () else none
  toText _ := "npub1relay".toList
  fipsAddress _ := ()

private def freePort : Loopback where
  listener := .ok ()
  localAddr := .ok "127.0.0.1:4869".toList
  random := (0x5eed, 0xfeed)
  thread := .ok ()

private def relayUrl : Text := "ws://NPUB1relay.fips:7777/nostr".toList

private def relayToken : Text := "0000000000005eed000000000000feed".toList

private def startedRelay : Relay Unit :=
  ⟨"npub1relay".toList, (), 7777, "/nostr".toList, relayToken, relayUrl⟩

private def startedProxy : MeshRelayProxy :=
  ⟨"ws://127.0.0.1:4869/0000000000005eed000000000000feed/nostr".toList, "127.0.0.1:4869".toList⟩

/-- The resolver dials the local URL of a relay with a path of its own. -/
theorem local_url_reaches_path :
    start oneNpub freePort relayUrl = .ok (startedRelay, startedProxy) ∧
      admitHead (encode (requestLine ('/' :: relayToken ++ "/nostr".toList) ++ "\r\n".toList) ++
        [13, 10, 1, 2, 3]) relayToken "/nostr".toList =
          some (encode (requestLine "/nostr".toList ++ "\r\n".toList) ++ [13, 10, 1, 2, 3]) := by
  have started : start oneNpub freePort relayUrl = .ok (startedRelay, startedProxy) := by rfl
  have dialled : startedProxy.localUrl =
      "ws://".toList ++ startedProxy.«local» ++ ('/' :: relayToken ++ "/nostr".toList) := by rfl
  have unbroken : '\n' ∉ startedRelay.path := by decide +kernel
  obtain ⟨-, -, reaches⟩ := admits_token_holder_only oneNpub freePort
  exact ⟨started, reaches _ _ _ started unbroken _ _ dialled (by decide +kernel)⟩

end Fips2Go.MeshRelay
