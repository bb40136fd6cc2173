import Fips2Go.HostsStoreRuns
import Fips2Go.OrgJson

/-!
# The names of another node

`fetch` of `HostsSync.kt`: what is taken of another node's answer.  The other node
controls every field; what is kept are hosts that the store can write and read
back.
-/

namespace Fips2Go.HostsFetch

open HostsStore
open OrgJson (Object Value getInt getString opt optArray optBoolean optString)
open TextLines (Text unlines)

def maxEntries : Nat := 2000

def maxChain : Nat := 16

inductive Failure where
  | restarted
  | syncError (message : Text) (offline : Bool)
  | jsonException

structure Fetched where
  hosts : List Host
  skipped : Nat
  chain : List Text
  confirmed : Bool

/-- What `fetch` works with; `lowercase` is that of a Kotlin string. -/
structure Platform extends OrgJson.Platform where
  lowercase : Text → Text

variable (platform : Platform)

/-- The variables of the loop over the entries. -/
structure Taken where
  byName : List Host
  skipped : Nat

/-- One pass of the loop over the entries. -/
def takeEntry (taken : Taken) (entry : Value) : Taken :=
  let e := entry.object?
  let name := (e.map fun e => platform.lowercase
    (optString platform.toPlatform e "hostname".toList)).getD []
  let npub := (e.map fun e => optString platform.toPlatform e "npub".toList).getD []
  if nameError name ≠ none ∨ ¬IsNpub npub then { taken with skipped := taken.skipped + 1 }
  else { taken with byName := put taken.byName ⟨name, npub⟩ }

def takeEntries (entries : List Value) : Taken :=
  (entries.take maxEntries).foldl (takeEntry platform) ⟨[], entries.length - maxEntries⟩

/-- The nodes that the other node syncs from, itself first. -/
def chainOf (source : Text) (body : Object) : List Text :=
  match optArray body "chain".toList with
  | some values => (values.map (Value.text platform.toPlatform)).filter fun npub => IsNpub npub
  | none => [source]

/-- The npub that the engine tells. -/
def ownNpub (status : Option Text) : Option Text :=
  (status.bind platform.parse).map fun status =>
    optString platform.toPlatform status "npub".toList

def inParens (text : Option Text) : Text :=
  match text with
  | some text => " (".toList ++ text ++ [')']
  | none => []

/-- The failure of the request itself. -/
def requestFailure (port : Nat) (res : Object) : Failure :=
  let error := optString platform.toPlatform res "error".toList
  if optBoolean res "unreachable".toList then
    .syncError (error ++ ". On that node, is fips-ui's \"Web UI over the mesh\" on port ".toList ++
      Nat.toDigits 10 port ++ (", with this device's npub as a viewer? " ++
      "Retrying once a day, or use Sync now").toList) true
  else .syncError error false

/-- An answer with status 403. -/
def refusal (status : Option Text) (bodyError : Option Text) : Failure :=
  let own := ((ownNpub platform status).filter fun own => own ≠ []).getD
    "this device's npub".toList
  .syncError ("The upstream node refused this device".toList ++ inParens bodyError ++
    ": on it, add ".toList ++ own ++
    " as a viewer under Access → Web UI over the mesh, then use Sync now".toList) true

/-- What is taken of an answer with entries. -/
def fetchEntries (source : Text) (status : Option Text) (body : Object) (entries : List Value) :
    Except Failure Fetched :=
  let taken := takeEntries platform entries
  let chain := chainOf platform source body
  let own := (ownNpub platform status).getD []
  if own ≠ [] ∧ own ∈ chain then
    .error (.syncError ("Sync loop: the upstream node syncs its names from this device; " ++
      "keeping the current names").toList false)
  else if chain.length > maxChain then
    .error (.syncError ("The chain of upstream nodes is longer than 16 nodes; " ++
      "keeping the current names").toList false)
  else
    .ok { hosts := taken.byName
          skipped := taken.skipped
          chain := chain
          confirmed := (optArray body "chain".toList).isSome &&
            optBoolean body "chainComplete".toList }

/-- An answer that is none. -/
def answered (code : Int) (bodyError : Option Text) : Failure :=
  .syncError ("The upstream node answered ".toList ++ (toString code).toList ++
    ((bodyError.map fun error => ": ".toList ++ error).getD [])) false

/-- What is taken of an answer by its status and its body. -/
def fetchBody (source : Text) (status : Option Text) (code : Int) (body : Option Object) :
    Except Failure Fetched :=
  let bodyError := (body.map fun body => optString platform.toPlatform body "error".toList).filter
    fun error => error ≠ []
  if code = 403 then .error (refusal platform status bodyError)
  else
    match body with
    | none => .error (answered code bodyError)
    | some body =>
        match optArray body "entries".toList with
        | none => .error (answered code bodyError)
        | some entries =>
            if code ≠ 200 then .error (answered code bodyError)
            else
              match bodyError with
              | some bodyError =>
                  .error (.syncError ("The upstream node cannot read its hosts file (".toList ++
                    bodyError ++ "); keeping the names synced last".toList) false)
              | none => fetchEntries platform source status body entries

/-- `answer` is what `meshHttpGet` returns, and `status` what the engine tells if it
does. -/
def fetch (source : Text) (port : Nat) (status : Option Text) (answer : Text) :
    Except Failure Fetched :=
  match platform.parse answer with
  | none => .error .jsonException
  | some res =>
      if optBoolean res "restarted".toList then .error .restarted
      else if (opt res "error".toList).isSome then .error (requestFailure platform port res)
      else
        match getInt platform.toPlatform res "status".toList with
        | none => .error .jsonException
        | some code => fetchBody platform source status code
            ((getString platform.toPlatform res "body".toList).bind platform.parse)

/-! ### What is kept -/

/-- The host that an entry stands for; of one that is no object it has no name. -/
def candidate (entry : Value) : Host :=
  match entry.object? with
  | some fields =>
      { name := platform.lowercase (optString platform.toPlatform fields "hostname".toList)
        npub := optString platform.toPlatform fields "npub".toList }
  | none => ⟨[], []⟩

def Acceptable (host : Host) : Prop := nameError host.name = none ∧ IsNpub host.npub

instance : DecidablePred Acceptable := fun _ => inferInstanceAs (Decidable (_ ∧ _))

/-- Of each name the last host, in the order of these. -/
def lastOfName : List Host → List Host
  | [] => []
  | host :: rest =>
      if host.name ∈ rest.map Host.name then lastOfName rest else host :: lastOfName rest

/-- The hosts that entries stand for, as far as they are acceptable. -/
def acceptable (entries : List Value) : List Host :=
  (entries.map (candidate platform)).filter fun host => Acceptable host

theorem takeEntry_eq (taken : Taken) (entry : Value) :
    takeEntry platform taken entry =
      if Acceptable (candidate platform entry) then
        { taken with byName := put taken.byName (candidate platform entry) }
      else { taken with skipped := taken.skipped + 1 } := by
  have read : takeEntry platform taken entry =
      if nameError (candidate platform entry).name ≠ none ∨
          ¬IsNpub (candidate platform entry).npub then
        { taken with skipped := taken.skipped + 1 }
      else { taken with byName := put taken.byName (candidate platform entry) } := by
    unfold takeEntry candidate
    cases entry.object? <;> rfl
  rw [read]
  by_cases kept : Acceptable (candidate platform entry)
  · rw [if_pos kept, if_neg (not_or.mpr ⟨not_not.mpr kept.1, not_not.mpr kept.2⟩)]
  · rw [if_neg kept, if_pos (not_and_or.mp kept)]

theorem foldl_takeEntry (entries : List Value) (taken : Taken) :
    entries.foldl (takeEntry platform) taken =
      { byName := (acceptable platform entries).foldl put taken.byName
        skipped := taken.skipped +
          entries.countP fun entry => ¬Acceptable (candidate platform entry) } := by
  induction entries generalizing taken with
  | nil => rfl
  | cons entry entries ih =>
      rw [List.foldl_cons, takeEntry_eq, ih]
      by_cases kept : Acceptable (candidate platform entry)
      · simp [acceptable, kept]
      · simp [acceptable, kept, Nat.add_assoc, Nat.add_comm 1]

theorem mem_lastOfName {hosts : List Host} {host : Host} (member : host ∈ lastOfName hosts) :
    host ∈ hosts := by
  induction hosts with
  | nil => exact member
  | cons first rest ih =>
      unfold lastOfName at member
      split at member
      · exact List.mem_cons_of_mem first (ih member)
      · rcases List.mem_cons.mp member with rfl | later
        · exact List.mem_cons_self
        · exact List.mem_cons_of_mem first (ih later)

theorem nodup_lastOfName (hosts : List Host) : ((lastOfName hosts).map Host.name).Nodup := by
  induction hosts with
  | nil => exact List.nodup_nil
  | cons first rest ih =>
      unfold lastOfName
      split
      · exact ih
      next fresh =>
        rw [List.map_cons, List.nodup_cons]
        refine ⟨fun later => fresh ?_, ih⟩
        obtain ⟨host, member, same⟩ := List.mem_map.mp later
        exact List.mem_map.mpr ⟨host, mem_lastOfName member, same⟩

/-- Removing a name before it is put leaves the last host of each name. -/
theorem foldl_put_eq_lastOfName (hosts taken : List Host) :
    hosts.foldl put taken =
      (taken.filter fun host => host.name ∉ hosts.map Host.name) ++ lastOfName hosts := by
  induction hosts generalizing taken with
  | nil => simp [lastOfName]
  | cons first rest ih =>
      rw [List.foldl_cons, ih, put, List.filter_append, List.filter_filter, lastOfName]
      have others : taken.filter (fun host => decide (host.name ∉ rest.map Host.name) &&
          decide (host.name ≠ first.name)) =
          taken.filter fun host => host.name ∉ (first :: rest).map Host.name := by
        apply List.filter_congr
        intro host _
        simp only [decide_not, List.map_cons, List.mem_cons, Bool.decide_or, Bool.not_or,
          Bool.and_comm]
      rw [others]
      by_cases later : first.name ∈ rest.map Host.name
      · rw [if_pos later, List.filter_cons_of_neg (by simpa using later), List.filter_nil,
          List.append_nil]
      · rw [if_neg later, List.filter_cons_of_pos (by simpa using later), List.filter_nil,
          List.append_assoc]
        rfl

/-- The hosts that are kept of an answer. -/
def sanitised (entries : List Value) : List Host :=
  lastOfName (acceptable platform (entries.take maxEntries))

theorem takeEntries_eq (entries : List Value) :
    takeEntries platform entries =
      { byName := sanitised platform entries
        skipped := (entries.length - maxEntries) + (entries.take maxEntries).countP fun entry =>
          ¬Acceptable (candidate platform entry) } := by
  rw [takeEntries, foldl_takeEntry, foldl_put_eq_lastOfName, List.filter_nil, List.nil_append]
  rfl

theorem lowercase_of_noUpper {name : Text}
    (noUpper : ∀ char ∈ name, char.isUpper = false) : HostsStore.lowercase name = name := by
  have unchanged : ∀ char ∈ name, char.toLower = char := fun char member =>
    Utf8Text.toLower_of_not_isUpper (noUpper char member)
  exact (List.map_congr_left unchanged).trans (List.map_id name)

theorem entries_sanitised
    (lowers : ∀ text, ∀ char ∈ platform.lowercase text, char.isUpper = false)
    (entries : List Value) : Entries (sanitised platform entries) := by
  refine ⟨fun host member => ?_, nodup_lastOfName _⟩
  obtain ⟨named, accepted⟩ := List.mem_filter.mp (mem_lastOfName member)
  obtain ⟨valid, npub⟩ := of_decide_eq_true accepted
  obtain ⟨entry, -, rfl⟩ := List.mem_map.mp named
  refine ⟨valid, lowercase_of_noUpper fun char inName => ?_, npub⟩
  unfold candidate at inName
  cases read : entry.object? with
  | none =>
      rw [read] at inName
      cases inName
  | some fields =>
      rw [read] at inName
      exact lowers _ char inName

/-- An answer with entries is taken if neither guard of the chain refuses it. -/
theorem fetchEntries_eq {source : Text} {status : Option Text} {body : Object}
    {entries : List Value}
    (noLoop : (ownNpub platform status).getD [] = [] ∨
      (ownNpub platform status).getD [] ∉ chainOf platform source body)
    (short : (chainOf platform source body).length ≤ maxChain) :
    fetchEntries platform source status body entries =
      .ok { hosts := sanitised platform entries
            skipped := (entries.length - maxEntries) + (entries.take maxEntries).countP fun entry =>
              ¬Acceptable (candidate platform entry)
            chain := chainOf platform source body
            confirmed := (optArray body "chain".toList).isSome &&
              optBoolean body "chainComplete".toList } := by
  unfold fetchEntries
  rw [takeEntries_eq]
  simp only
  rw [if_neg (not_and_or.mpr (noLoop.imp_left not_not.mpr)), if_neg (Nat.not_lt.mpr short)]

/-- Such an answer is one whose body has entries and no error. -/
theorem fetchBody_eq {source : Text} {status : Option Text} {body : Object}
    {entries : List Value} (noError : optString platform.toPlatform body "error".toList = [])
    (listed : optArray body "entries".toList = some entries) :
    fetchBody platform source status 200 (some body) =
      fetchEntries platform source status body entries := by
  have other : ¬(200 : Int) = 403 := by decide
  unfold fetchBody
  simp only [if_neg other, listed, Option.map_some, noError, Option.filter_some]
  rfl

variable {platform}

/-- Of an answer with status 200, no error and a chain that the guards let through,
the last acceptable host of each name among the first entries is kept, the others
are counted, and the store reads back what it writes of them: the user's lines, and
the block with one line for each host. -/
theorem synced_names_are_sanitised
    (lowers : ∀ text, ∀ char ∈ platform.lowercase text, char.isUpper = false)
    {source answer text : Text} {port : Nat} {status : Option Text} {res body : Object}
    {entries : List Value} (parsed : platform.parse answer = some res)
    (uninterrupted : optBoolean res "restarted".toList = false)
    (succeeded : opt res "error".toList = none)
    (code : getInt platform.toPlatform res "status".toList = some 200)
    (sent : getString platform.toPlatform res "body".toList = some text)
    (parsedBody : platform.parse text = some body)
    (noError : optString platform.toPlatform body "error".toList = [])
    (listed : optArray body "entries".toList = some entries)
    (noLoop : (ownNpub platform status).getD [] = [] ∨
      (ownNpub platform status).getD [] ∉ chainOf platform source body)
    (short : (chainOf platform source body).length ≤ maxChain) :
    ∃ fetched, fetch platform source port status answer = .ok fetched ∧
      fetched.hosts = lastOfName (((entries.take maxEntries).map (candidate platform)).filter
        fun host => Acceptable host) ∧
      (fetched.hosts.map Host.name).Nodup ∧
      fetched.skipped = (entries.length - maxEntries) +
        (entries.take maxEntries).countP (fun entry => ¬Acceptable (candidate platform entry)) ∧
      ∀ ops master label, IsNpub master → (∀ name, label = some name → nameError name = none) →
        loadSynced (saveSynced (run ops) master label (some fetched.hosts)).1 =
            some ⟨master, fetched.hosts⟩ ∧
          load (saveSynced (run ops) master label (some fetched.hosts)).1 = load (run ops) ∧
          (saveSynced (run ops) master label (some fetched.hosts)).1.getD [] =
            unlines ((load (run ops)).map hostLine ++ [] :: (beginLine master label ::
              fetched.hosts.map hostLine ++ [syncEndLine])) := by
  have taken : fetch platform source port status answer =
      fetchEntries platform source status body entries := by
    have proceeds : ¬(opt res "error".toList).isSome = true := by
      rw [succeeded]
      decide
    have begun : ¬optBoolean res "restarted".toList = true := by
      rw [uninterrupted]
      decide
    unfold fetch
    simp only [parsed, if_neg begun, if_neg proceeds, code, sent, Option.bind_some, parsedBody]
    exact fetchBody_eq platform noError listed
  have clean := entries_sanitised platform lowers entries
  refine ⟨_, taken.trans (fetchEntries_eq platform noLoop short), rfl, clean.distinct, rfl, ?_⟩
  intro ops master label npub named
  have layout : Layout (saveSynced (run ops) master label (some (sanitised platform entries))).1
      (lastSaved ops) (some ⟨master, label, sanitised platform entries⟩) := by
    refine (layout_run ops).saveSynced fun written given => ?_
    cases given
    exact ⟨npub, named, clean⟩
  have own : load (run ops) = lastSaved ops := (layout_run ops).load_eq
  rw [own]
  exact ⟨layout.loadSynced_eq, layout.load_eq, layout.content⟩

/-! ### An answer with two entries -/

private def masterNpub : Text :=
  "npub1qyqszqgpqyqszqgpqyqszqgpqyqszqgpqyqszqgpqyqszqgpqyqs8j9gdm".toList

private def sampleBody : Text :=
  "\x7b\"entries\":[\x7b\"hostname\":\"NAS\",\"npub\":\"".toList ++ masterNpub ++
    "\"\x7d,\x7b\"hostname\":\"a\\nb\"\x7d]\x7d".toList

private def sampleAnswer : Text :=
  "\x7b\"status\":200,\"body\":\"\x7b\\\"entries\\\":[\x7b\\\"hostname\\\":\\\"NAS\\\",".toList ++
    "\\\"npub\\\":\\\"".toList ++ masterNpub ++
    "\\\"\x7d,\x7b\\\"hostname\\\":\\\"a\\\\nb\\\"\x7d]\x7d\"\x7d".toList

private def sampleEntries : List Value :=
  [.object [("hostname".toList, .string "NAS".toList), ("npub".toList, .string masterNpub)],
    .object [("hostname".toList, .string "a\nb".toList)]]

private def sampleResponse : Object :=
  [("status".toList, .number 200 "200".toList), ("body".toList, .string sampleBody)]

private def sampleObject : Object := [("entries".toList, .array sampleEntries)]

/-- A parser of these two texts. -/
private def sampleParse (text : Text) : Option Object :=
  if text = sampleAnswer then some sampleResponse
  else if text = sampleBody then some sampleObject
  else none

private theorem sampleParse_answer {text : Text} (answer : text = sampleAnswer) :
    sampleParse text = some sampleResponse :=
  if_pos answer

private theorem sampleParse_body {text : Text} (other : text ≠ sampleAnswer)
    (body : text = sampleBody) : sampleParse text = some sampleObject :=
  (if_neg other).trans (if_pos body)

private def samplePlatform : Platform where
  parse := sampleParse
  parseInt _ := none
  display _ := []
  lowercase := HostsStore.lowercase

private theorem samplePlatform_parse : samplePlatform.parse = sampleParse := rfl

/-- The second entry has a line break in its name, and no key. -/
theorem line_break_is_left_out : ∃ fetched,
    fetch samplePlatform masterNpub 8080 none sampleAnswer = .ok fetched ∧
      fetched.hosts = [⟨"nas".toList, masterNpub⟩] ∧ fetched.skipped = 1 ∧
      loadSynced (saveSynced (run []) masterNpub none (some fetched.hosts)).1 =
        some ⟨masterNpub, fetched.hosts⟩ := by
  have lowers : ∀ text, ∀ char ∈ samplePlatform.lowercase text, char.isUpper = false := by
    intro text char member
    obtain ⟨own, -, rfl⟩ := List.mem_map.mp member
    exact Utf8Text.isUpper_toLower own
  have parsed : samplePlatform.parse sampleAnswer = some sampleResponse := by
    rw [samplePlatform_parse]
    exact sampleParse_answer (Eq.refl sampleAnswer)
  have parsedBody : samplePlatform.parse sampleBody = some sampleObject := by
    rw [samplePlatform_parse]
    exact sampleParse_body (by decide +kernel) (Eq.refl sampleBody)
  have uninterrupted : optBoolean sampleResponse "restarted".toList = false := by decide +kernel
  have succeeded : opt sampleResponse "error".toList = none :=
    Option.isNone_iff_eq_none.mp (by decide +kernel)
  have code : getInt samplePlatform.toPlatform sampleResponse "status".toList = some 200 := by
    decide +kernel
  have sent : getString samplePlatform.toPlatform sampleResponse "body".toList =
      some sampleBody := by
    decide +kernel
  have noError : optString samplePlatform.toPlatform sampleObject "error".toList = [] := by
    decide +kernel
  have noLoop : (ownNpub samplePlatform none).getD [] = [] ∨
      (ownNpub samplePlatform none).getD [] ∉ chainOf samplePlatform masterNpub sampleObject :=
    Or.inl rfl
  have short : (chainOf samplePlatform masterNpub sampleObject).length ≤ maxChain := by
    decide +kernel
  obtain ⟨fetched, taken, hosts, -, skipped, reads⟩ := synced_names_are_sanitised lowers parsed
    uninterrupted succeeded code sent parsedBody noError rfl noLoop short
  refine ⟨fetched, taken, hosts.trans (by decide +kernel), skipped.trans (by decide +kernel), ?_⟩
  have npub : IsNpub masterNpub := by decide +kernel
  exact (reads [] masterNpub none npub fun _ absent => nomatch absent).1

end Fips2Go.HostsFetch
