import Fips2Go.AddressText
import Fips2Go.HostsFetch
import Fips2Go.HttpExchangeExits

/-!
# What the names sync makes of a request

`mesh_http_get_json` of the engine writes down what a request over the mesh came to
as JSON, and `fetch` of `HostsSync.kt` reads it.  The writer and the parser are two
libraries; what is asked of them is that the fields arrive.

A stopped engine, a node that cannot be reached and one that answers badly stay
apart on the way: they are told as an interruption, a failure that is retried once
a day, and one that is retried at the next interval.
-/

namespace Fips2Go.MeshFetch

open AddressText (parseWith readIpv6Addr)
open GuardedRuns
open HostsFetch (Failure Fetched Platform fetch fetchBody fetchEntries requestFailure)
open HttpExchange (Ending Exchange Pass Settled ToldApart maxBody settled_of_run step unreachables
  unreachableLimit)
open Ipv6Text (decimal display)
open Machine (Checked Target)
open MeshHttp (Response parseResponse)
open MeshTcp (FetchError TcpStack)
open MeshUdp (Endpoint)
open OrgJson (Object Value getInt getString opt optArray optBoolean optString)
open Utf8Text (Text fromUtf8Lossy trim)

/-- The closure `error` of `mesh_http_get_json`. -/
def error (message : Text) (unreachable : Bool) : Object :=
  [("error".toList, .string message), ("unreachable".toList, .bool unreachable)]

/-- What `meshhttp::get` came to. -/
def answer : Except FetchError Response → Object
  | .ok response =>
      [("status".toList, .number response.status (decimal response.status)),
        ("body".toList, .string (fromUtf8Lossy response.body))]
  | .error e =>
      [("error".toList, .string e.message.toList), ("unreachable".toList, .bool e.unreachable),
        ("restarted".toList, .bool e.restarted)]

/-- What is there of the running engine and of its libraries: the own address, the
keys that fips reads, headers that parse, and a free port for the flow. -/
structure Mesh where
  ourAddr : Option (FixedBytes 16)
  fromNpub : Text → Except Text (Text × FixedBytes 16)
  parseHeaders : Text → Except Text (List (Text × Value))
  freePort : Bool

/-- `resolve_npub`. -/
def resolveNpub (mesh : Mesh) (npub : Text) : Except Text (Text × Text) :=
  match mesh.fromNpub (trim npub) with
  | .ok (npub, address) => .ok (npub, display address)
  | .error e => .error ("invalid npub: ".toList ++ e)

/-- Only strings are headers. -/
def headersOf (fields : List (Text × Value)) : List (Text × Text) :=
  fields.filterMap fun (name, value) =>
    match value with
    | .string text => some (name, text)
    | _ => none

structure Request where
  ourAddr : FixedBytes 16
  npub : Text
  addr : FixedBytes 16
  headers : List (Text × Text)

/-- The checks ahead of the request. -/
def request (mesh : Mesh) (npub : Text) (port : UInt16) (path headersJson : Text) :
    Except Object Request :=
  match mesh.ourAddr with
  | none => .error (error "not connected".toList false)
  | some ourAddr =>
      match resolveNpub mesh npub with
      | .error e => .error (error e false)
      | .ok (npub, address) =>
          match parseWith readIpv6Addr address with
          | none => .error (error ("bad mesh address ".toList ++ address) false)
          | some addr =>
              if port = 0 ∨ path.head? ≠ some '/' then
                .error (error "bad port or path".toList false)
              else
                let headersJson := if trim headersJson = [] then "\x7b\x7d".toList else headersJson
                match mesh.parseHeaders headersJson with
                | .error e => .error (error ("bad headers: ".toList ++ e) false)
                | .ok fields => .ok ⟨ourAddr, npub, addr, headersOf fields⟩

/-- `meshhttp::get`, given what its exchange comes to. -/
def get (mesh : Mesh) (request : Request) (exchanged : Checked (Except FetchError Response)) :
    Checked (Except FetchError Response) :=
  if request.addr = request.ourAddr then
    .ok (.error (.other "that is this node's own address"))
  else if mesh.freePort then exchanged
  else .ok (.error (.other "no free local port"))

/-- `u16::try_from(port).unwrap_or(0)`. -/
def portOf (port : Int) : UInt16 :=
  if 0 ≤ port ∧ port < 65536 then UInt16.ofNat port.toNat else 0

/-- `meshHttpGet` of the native library, around `mesh_http_get_json`. -/
def meshHttpGet (mesh : Mesh) (exchange : Request → Checked (Except FetchError Response))
    (npub : Text) (port : Int) (path headersJson : Text) : Object :=
  match request mesh npub (portOf port) path headersJson with
  | .error object => object
  | .ok request =>
      match get mesh request (exchange request) with
      | .ok result => answer result
      | .error _ => error "panic in meshHttpGet".toList false

/-- What is written of an object is parsed to one with its fields. -/
def Carries (platform : Platform) (serialize : Object → Text) (object : Object) : Prop :=
  ∃ read, platform.parse (serialize object) = some read ∧ ∀ name, opt read name = opt object name

/-! ### What `fetch` reads -/

section Read

variable {platform : Platform} {serialize : Object → Text} {source : Text} {port : Nat}
  {status : Option Text}

variable (platform) in
theorem read_congr {read object : Object} (same : ∀ name, opt read name = opt object name)
    (name : Text) : optBoolean read name = optBoolean object name ∧
      getString platform.toPlatform read name = getString platform.toPlatform object name ∧
      getInt platform.toPlatform read name = getInt platform.toPlatform object name := by
  unfold optBoolean getString getInt
  rw [same]
  exact ⟨rfl, rfl, rfl⟩

/-- `fetch` sees the fields only. -/
theorem fetch_eq {object : Object} (carries : Carries platform serialize object) :
    fetch platform source port status (serialize object) =
      if optBoolean object "restarted".toList then .error .restarted
      else if (opt object "error".toList).isSome then
        .error (requestFailure platform port object)
      else
        match getInt platform.toPlatform object "status".toList with
        | none => .error .jsonException
        | some code => fetchBody platform source status code
            ((getString platform.toPlatform object "body".toList).bind platform.parse) := by
  obtain ⟨read, parsed, same⟩ := carries
  have fields := read_congr platform same
  have failure : requestFailure platform port read = requestFailure platform port object := by
    unfold requestFailure optString
    rw [(fields "error".toList).2.1, (fields "unreachable".toList).1]
  have status := (fields "status".toList).2.2
  cases code : getInt platform.toPlatform object "status".toList with
  | none =>
      simp only [fetch, parsed, (fields "restarted".toList).1, same, failure, status, code]
  | some code =>
      simp only [fetch, parsed, (fields "restarted".toList).1, same, failure, status, code,
        (fields "body".toList).2.1]

theorem fetch_error {message : Text} {unreachable : Bool}
    (carries : Carries platform serialize (error message unreachable)) :
    ∃ told, fetch platform source port status (serialize (error message unreachable)) =
      .error (.syncError told unreachable) := by
  rw [fetch_eq carries]
  cases unreachable <;> exact ⟨_, rfl⟩

theorem fetch_fetchError {e : FetchError}
    (carries : Carries platform serialize (answer (.error e))) :
    (e.restarted = true ∧
      fetch platform source port status (serialize (answer (.error e))) = .error .restarted) ∨
    (e.restarted = false ∧ ∃ told,
      fetch platform source port status (serialize (answer (.error e))) =
        .error (.syncError told e.unreachable)) := by
  rw [fetch_eq carries]
  obtain ⟨message, unreachable, restarted⟩ := e
  cases restarted with
  | true => exact .inl ⟨rfl, rfl⟩
  | false =>
      refine .inr ⟨rfl, ?_⟩
      cases unreachable <;> exact ⟨_, rfl⟩

theorem fetch_response {response : Response}
    (carries : Carries platform serialize (answer (.ok response))) :
    fetch platform source port status (serialize (answer (.ok response))) =
      fetchBody platform source status response.status
        (platform.parse (fromUtf8Lossy response.body)) := by
  rw [fetch_eq carries]
  rfl

/-- What a response can come to. -/
theorem fetchBody_cases (code : Int) (body : Option Object) :
    (∃ message, fetchBody platform source status code body = .error (.syncError message false)) ∨
    (code = 403 ∧ ∃ message,
      fetchBody platform source status code body = .error (.syncError message true)) ∨
    (code = 200 ∧ ∃ fields entries, body = some fields ∧
      optArray fields "entries".toList = some entries ∧
      optString platform.toPlatform fields "error".toList = [] ∧
      fetchBody platform source status code body =
        fetchEntries platform source status fields entries) := by
  by_cases refused : code = 403
  · refine .inr (.inl ⟨refused, ?_⟩)
    unfold fetchBody
    simp only [if_pos refused]
    exact ⟨_, rfl⟩
  · cases body with
    | none =>
        refine .inl ?_
        unfold fetchBody
        simp only [if_neg refused]
        exact ⟨_, rfl⟩
    | some fields =>
        cases listed : optArray fields "entries".toList with
        | none =>
            refine .inl ?_
            unfold fetchBody
            simp only [if_neg refused, listed]
            exact ⟨_, rfl⟩
        | some entries =>
            by_cases accepted : code = 200
            · by_cases clean : optString platform.toPlatform fields "error".toList = []
              · subst accepted
                exact .inr (.inr ⟨rfl, fields, entries, rfl, listed, clean,
                  HostsFetch.fetchBody_eq platform clean listed⟩)
              · refine .inl ?_
                have told : (some (optString platform.toPlatform fields "error".toList)).filter
                    (fun error => error ≠ []) =
                      some (optString platform.toPlatform fields "error".toList) := by
                  rw [Option.filter_some, if_pos (decide_eq_true clean)]
                unfold fetchBody
                simp only [if_neg refused, listed, if_neg (not_not_intro accepted), Option.map_some,
                  told]
                exact ⟨_, rfl⟩
            · refine .inl ?_
              unfold fetchBody
              simp only [if_neg refused, listed, if_pos accepted]
              exact ⟨_, rfl⟩

/-- Entries that are not taken are refused for good. -/
theorem fetchEntries_cases (fields : Object) (entries : List Value) :
    (∃ names, fetchEntries platform source status fields entries = .ok names) ∨
      ∃ message, fetchEntries platform source status fields entries =
        .error (.syncError message false) := by
  unfold fetchEntries
  simp only
  split
  · exact .inr ⟨_, rfl⟩
  · split
    · exact .inr ⟨_, rfl⟩
    · exact .inl ⟨_, rfl⟩

end Read

/-! ### What is told of an exchange -/

/-- A check that fails is told as a failure of no particular kind. -/
theorem request_error {mesh : Mesh} {npub path headersJson : Text} {port : UInt16}
    {object : Object} (refused : request mesh npub port path headersJson = .error object) :
    ∃ message, object = error message false := by
  unfold request at refused
  cases engine : mesh.ourAddr with
  | none =>
      rw [engine] at refused
      cases refused
      exact ⟨_, rfl⟩
  | some ourAddr =>
      cases resolved : resolveNpub mesh npub with
      | error e =>
          simp only [engine, resolved] at refused
          cases refused
          exact ⟨_, rfl⟩
      | ok key =>
          cases parsed : parseWith readIpv6Addr key.2 with
          | none =>
              simp only [engine, resolved, parsed] at refused
              cases refused
              exact ⟨_, rfl⟩
          | some addr =>
              simp only [engine, resolved, parsed] at refused
              by_cases bad : port = 0 ∨ path.head? ≠ some '/'
              · rw [if_pos bad] at refused
                cases refused
                exact ⟨_, rfl⟩
              · rw [if_neg bad] at refused
                cases headers : mesh.parseHeaders
                    (if trim headersJson = [] then "\x7b\x7d".toList else headersJson) with
                | error e =>
                    rw [headers] at refused
                    cases refused
                    exact ⟨_, rfl⟩
                | ok fields =>
                    rw [headers] at refused
                    cases refused

theorem meshHttpGet_cases (mesh : Mesh) (result : Except FetchError Response) (npub : Text)
    (port : Int) (path headersJson : Text) :
    (∃ message, meshHttpGet mesh (fun _ => .ok result) npub port path headersJson =
        error message false) ∨
      (∃ message, meshHttpGet mesh (fun _ => .ok result) npub port path headersJson =
        answer (.error (.other message))) ∨
      meshHttpGet mesh (fun _ => .ok result) npub port path headersJson = answer result := by
  unfold meshHttpGet
  simp only
  split
  next object refused =>
    obtain ⟨message, rfl⟩ := request_error refused
    exact .inl ⟨message, rfl⟩
  next asked _ =>
    refine .inr ?_
    unfold get
    by_cases own : asked.addr = asked.ourAddr
    · simp only [if_pos own]
      exact .inl ⟨_, rfl⟩
    · by_cases free : mesh.freePort = true
      · simp only [if_neg own, if_pos free]
        exact .inr trivial
      · simp only [if_neg own, if_neg free]
        exact .inl ⟨_, rfl⟩

/-- The mesh address of a key is always read back. -/
theorem parseWith_display (address : FixedBytes 16) :
    parseWith readIpv6Addr (display address) = some address := by
  have read := AddressText.readIpv6Addr_display address AddressText.behind_nil
  rw [List.append_nil] at read
  unfold parseWith
  rw [read]

/-- Nothing speaks against the request beforehand. -/
structure Ready (mesh : Mesh) (npub : Text) (port : Int) (path headersJson : Text) : Prop where
  running : mesh.ourAddr.isSome = true
  known : ∃ key address, mesh.fromNpub (trim npub) = .ok (key, address) ∧
    mesh.ourAddr ≠ some address
  port : 0 < port ∧ port < 65536
  path : path.head? = some '/'
  headers : ∃ fields, mesh.parseHeaders
    (if trim headersJson = [] then "\x7b\x7d".toList else headersJson) = .ok fields
  free : mesh.freePort = true

theorem portOf_ne_zero {port : Int} (fits : 0 < port ∧ port < 65536) : portOf port ≠ 0 := by
  unfold portOf
  rw [if_pos ⟨by omega, fits.2⟩]
  intro zero
  have value := congrArg UInt16.toNat zero
  have back : (UInt16.ofNat port.toNat).toNat = port.toNat :=
    UInt16.toNat_ofNat_of_lt' (by have := fits.2; simp only [UInt16.size]; omega)
  rw [back] at value
  have none : port.toNat = 0 := value
  omega

/-- A request that nothing speaks against is made, and told as it comes out. -/
theorem Ready.meshHttpGet_eq {mesh : Mesh} {npub path headersJson : Text} {port : Int}
    (ready : Ready mesh npub port path headersJson) (result : Except FetchError Response) :
    meshHttpGet mesh (fun _ => .ok result) npub port path headersJson = answer result := by
  obtain ⟨ourAddr, running⟩ := Option.isSome_iff_exists.mp ready.running
  obtain ⟨key, address, known, other⟩ := ready.known
  obtain ⟨fields, headers⟩ := ready.headers
  have resolved : resolveNpub mesh npub = .ok (key, display address) := by
    unfold resolveNpub
    rw [known]
  have good : ¬ (portOf port = 0 ∨ path.head? ≠ some '/') := by
    rintro (zero | relative)
    · exact portOf_ne_zero ready.port zero
    · exact relative ready.path
  have asked : request mesh npub (portOf port) path headersJson =
      .ok ⟨ourAddr, key, address, headersOf fields⟩ := by
    unfold request
    simp only [running, resolved, parseWith_display, if_neg good, headers]
  have notOwn : address ≠ ourAddr := by
    rintro rfl
    exact other running
  unfold meshHttpGet get
  rw [asked]
  simp only [if_neg notOwn, ready.free, if_true]

section Exchanged

variable {Socket : Type} {stack : TcpStack Socket} {endpoint : Endpoint} {bytes : Bytes}
  {target : Target} {start state final : Exchange Socket} {platform : Platform}
  {serialize : Object → Text}

/-- What `fetch` tells of an exchange whose last pass is `last`. -/
structure Told (stack : TcpStack Socket) (target : Target) (platform : Platform) (source : Text)
    (status : Option Text) (before : List Pass) (last : Pass) (final : Exchange Socket)
    (fetched : Except Failure Fetched) : Prop where
  understood : fetched ≠ .error .jsonException
  interrupted : fetched = .error .restarted →
    last.alive = false ∨ .forward false ∈ last.transmitted ∨ last.wait = .disconnected
  offline : ∀ message, fetched = .error (.syncError message true) →
    .respond ∈ last.transmitted ∨ last.late = true ∨
      (final.established = false ∧ ((stack.state final.socket).isOpen = false ∨
        unreachableLimit ≤ unreachables (before ++ [last]))) ∨
      ∃ response, parseResponse target final.arrived = .ok (.ok response) ∧ response.status = 403
  names : ∀ names, fetched = .ok names →
    final.established = true ∧ final.arrived.length ≤ maxBody ∧
      ∃ response fields entries, parseResponse target final.arrived = .ok (.ok response) ∧
        response.status = 200 ∧ platform.parse (fromUtf8Lossy response.body) = some fields ∧
        optArray fields "entries".toList = some entries ∧
        fetchEntries platform source status fields entries = .ok names

/-- A failure of no particular kind tells nothing. -/
theorem Told.ofFailure {source : Text} {status : Option Text} {before : List Pass} {last : Pass}
    {fetched : Except Failure Fetched}
    (failed : ∃ message, fetched = .error (.syncError message false)) :
    Told stack target platform source status before last final fetched := by
  obtain ⟨message, rfl⟩ := failed
  constructor
  · rintro ⟨⟩
  · rintro ⟨⟩
  · rintro _ ⟨⟩
  · rintro _ ⟨⟩

theorem Told.ofResponse {source : Text} {port : Nat} {status : Option Text} {before : List Pass}
    {last : Pass} {response : Response} (established : final.established = true)
    (small : final.arrived.length ≤ maxBody)
    (parsed : parseResponse target final.arrived = .ok (.ok response))
    (carries : Carries platform serialize (answer (.ok response))) :
    Told stack target platform source status before last final
      (fetch platform source port status (serialize (answer (.ok response)))) := by
  rw [fetch_response carries]
  rcases fetchBody_cases (response.status : Int) (platform.parse (fromUtf8Lossy response.body)) with
    failed | ⟨refused, message, failed⟩ | ⟨accepted, fields, entries, body, listed, -, taken⟩
  · exact .ofFailure failed
  · rw [failed]
    constructor
    · rintro ⟨⟩
    · rintro ⟨⟩
    · rintro _ -
      exact .inr (.inr (.inr ⟨response, parsed, by omega⟩))
    · rintro _ ⟨⟩
  · rw [taken]
    rcases fetchEntries_cases fields entries with ⟨names, ok⟩ | failed
    · constructor
      · intro same
        rw [ok] at same
        cases same
      · intro same
        rw [ok] at same
        cases same
      · intro message same
        rw [ok] at same
        cases same
      · intro names same
        exact ⟨established, small, response, fields, entries, parsed, by omega, body, listed, same⟩
    · exact .ofFailure failed

variable {endpoint : Endpoint} {bytes : Bytes} {start state : Exchange Socket}

/-- A failed exchange is told by what happened in its last pass. -/
theorem Told.ofError {source : Text} {port : Nat} {status : Option Text} {before : List Pass}
    {last : Pass} {e : FetchError} (told : ToldApart stack endpoint before last final e)
    (carries : Carries platform serialize (answer (.error e))) :
    Told stack target platform source status before last final
      (fetch platform source port status (serialize (answer (.error e)))) := by
  rcases fetch_fetchError carries with ⟨restarted, read⟩ | ⟨-, message, read⟩
  · rw [read]
    refine ⟨nofun, fun _ => (told.restarted restarted).2, nofun, nofun⟩
  · cases reached : e.unreachable with
    | false =>
        rw [reached] at read
        exact .ofFailure ⟨message, read⟩
    | true =>
        rw [read]
        refine ⟨nofun, nofun, fun _ _ => ?_, nofun⟩
        rcases told.unreachable reached with refused | late | opening
        · exact .inl refused
        · exact .inr (.inl late)
        · exact .inr (.inr (.inl opening))

variable (mesh : Mesh) (source npub path headersJson : Text) (port : Int) (status : Option Text)

/-- Of an exchange whose connection could be begun, once a pass returns (one that panics
does not), what the names sync is told is what happened: an interruption only where the
engine stopped or its channel closed; an offline node only where the node refused to
send, the time ran out, no connection came about, or the far node answered 403; and
names only where the stream received is a response with status 200 that lists them.  A
stopped engine is told as an interruption. -/
theorem fetch_tells_exchange (correct : stack.Correct) (atMost : stack.TakesAtMost)
    {socket : Socket} (isOpen : (stack.state socket).isOpen = true)
    (unread : stack.unread socket = []) (opens : Exchange.opened (.ok socket) = .ok start)
    {before : List Pass}
    (run : Run (step stack endpoint bytes target) anyStep start before state)
    {last : Pass} {result : Except FetchError Response}
    (passed : state.pass stack endpoint bytes target last = .ok (final, .returns result))
    (carries : Carries platform serialize
      (meshHttpGet mesh (fun _ => .ok result) npub port path headersJson)) :
    Told stack target platform source status before last final
        (fetch platform source port.toNat status
          (serialize (meshHttpGet mesh (fun _ => .ok result) npub port path headersJson))) ∧
      (Ready mesh npub port path headersJson → last.alive = false →
        fetch platform source port.toNat status
          (serialize (meshHttpGet mesh (fun _ => .ok result) npub port path headersJson)) =
            .error .restarted) := by
  have kept := settled_of_run correct atMost isOpen unread opens run
  constructor
  · rcases meshHttpGet_cases mesh result npub port path headersJson with
      ⟨message, told⟩ | ⟨message, told⟩ | told
    · rw [told] at carries ⊢
      exact .ofFailure (fetch_error carries)
    · rw [told] at carries ⊢
      rcases fetch_fetchError carries with ⟨restarted, -⟩ | ⟨-, failed⟩
      · cases restarted
      · exact .ofFailure failed
    · rw [told] at carries ⊢
      cases result with
      | error e => exact .ofError (kept.toldApart correct atMost passed) carries
      | ok response =>
          obtain ⟨established, small, parsed⟩ := kept.response correct atMost passed
          exact .ofResponse established small parsed carries
  · intro ready stopped
    have restarted : result = .error .engineRestarted := by
      simp only [Exchange.pass, stopped, if_true] at passed
      cases passed
      rfl
    subst restarted
    rw [ready.meshHttpGet_eq] at carries ⊢
    rcases fetch_fetchError carries with ⟨-, read⟩ | ⟨alive, -⟩
    · exact read
    · cases alive

end Exchanged

/-! ### A node that refuses this device -/

private def forbidden : Bytes :=
  Utf8Text.encode "HTTP/1.1 403 Forbidden\r\nContent-Length: 2\r\n\r\nno".toList

private def waiting (wait : MeshUdp.Wait) : Pass := ⟨true, 0, [.forward true], false, wait⟩

private def refusing : List Pass :=
  [waiting (.packets (MeshTcp.relayed 18 []) []),
    waiting (.packets (MeshTcp.relayed 16 forbidden) [])]

private theorem length_exampleAddr (last : UInt8) :
    (List.replicate 15 (0xfd : UInt8) ++ [last]).length = 16 := rfl

private def exampleAddr (last : UInt8) : FixedBytes 16 :=
  ⟨List.replicate 15 0xfd ++ [last], length_exampleAddr last⟩

private def upstreamAddr : FixedBytes 16 := exampleAddr 7

private def upstreamStart : Exchange MeshTcp.Connection :=
  ⟨MeshTcp.opened, [], 0, false, 0, [], [], [], []⟩

private def upstreamPass (state : Exchange MeshTcp.Connection) (input : Pass) :
    Checked (Exchange MeshTcp.Connection × Ending) :=
  state.pass MeshTcp.Connection.tcp ⟨upstreamAddr, 8080⟩ [71] ⟨.bits64, true⟩ input

private def upstreamStep (state : Exchange MeshTcp.Connection) (input : Pass) :
    Option (Exchange MeshTcp.Connection) :=
  step MeshTcp.Connection.tcp ⟨upstreamAddr, 8080⟩ [71] ⟨.bits64, true⟩ state input

private def gives (response : Response) :
    Checked (Exchange MeshTcp.Connection × Ending) → Bool
  | .ok (_, .returns (.ok other)) => other = response
  | _ => false

private def noResponse : Response := ⟨403, [110, 111]⟩

private def exampleMesh : Mesh where
  ourAddr := some (exampleAddr 8)
  fromNpub npub := .ok (npub, upstreamAddr)
  parseHeaders _ := .ok []
  freePort := true

/-- A writer of this answer, and a parser of what it writes. -/
private def examplePlatform : Platform where
  parse text := if text = "403".toList then some (answer (.ok noResponse)) else none
  parseInt _ := none
  display _ := []
  lowercase := HostsStore.lowercase

/-- The sync is told that the node is offline, so that it is left alone for a day. -/
theorem refusal_is_told : ∃ before state final,
    Run upstreamStep anyStep upstreamStart before state ∧
    upstreamPass state (waiting .timeout) = .ok (final, .returns (.ok noResponse)) ∧
    Told MeshTcp.Connection.tcp ⟨.bits64, true⟩ examplePlatform [] none before
      (waiting .timeout) final
      (fetch examplePlatform [] 8080 none "403".toList) := by
  obtain ⟨state, run, passed⟩ : ∃ state, Run upstreamStep anyStep upstreamStart refusing state ∧
      gives noResponse (upstreamPass state (waiting .timeout)) = true :=
    exists_run_of_execute _ (by decide +kernel)
  obtain ⟨final, passed⟩ : ∃ final, upstreamPass state (waiting .timeout) =
      .ok (final, .returns (.ok noResponse)) := by
    revert passed
    match upstreamPass state (waiting .timeout) with
    | .ok (final, .returns (.ok response)) =>
        intro passed
        have same : response = noResponse := by simpa [gives] using passed
        exact ⟨final, same ▸ rfl⟩
    | .ok (_, .returns (.error _)) => exact nofun
    | .ok (_, .goesOn) => exact nofun
    | .error _ => exact nofun
  have ready : Ready exampleMesh [] 8080 "/api/hosts".toList [] :=
    ⟨rfl, ⟨[], upstreamAddr, rfl, by decide⟩, by decide, rfl, ⟨[], rfl⟩, rfl⟩
  have written := ready.meshHttpGet_eq (.ok noResponse)
  have carries : Carries examplePlatform (fun _ => "403".toList)
      (meshHttpGet exampleMesh (fun _ => .ok (.ok noResponse)) [] 8080 "/api/hosts".toList []) := by
    rw [written]
    exact ⟨_, rfl, fun _ => rfl⟩
  have opens : Exchange.opened (.ok MeshTcp.opened) = .ok upstreamStart := rfl
  obtain ⟨told, -⟩ := fetch_tells_exchange exampleMesh [] [] "/api/hosts".toList [] 8080 none
    MeshTcp.Connection.correct (fun _ _ => Nat.le_refl _) rfl rfl opens run passed carries
  exact ⟨refusing, state, final, run, passed, told⟩

end Fips2Go.MeshFetch
