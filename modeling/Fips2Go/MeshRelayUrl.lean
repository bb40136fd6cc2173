import Fips2Go.Ipv6Text
import Fips2Go.MeshRelay
import Fips2Go.NpubText
import Fips2Go.TextLines

/-!
# Mesh relays as the settings accept them

`normalizeMeshRelay` of `ConfigStore.kt` against `parse_mesh_relay` of
`shim/src/meshtcp.rs`: what the settings keep for a relay is read by the shim as
the relay that was meant.  `java.net.URI` and `lowercase` are parameters with what
is documented of them.
-/

namespace Fips2Go.ConfigStore

open Ipv6Text (decimal)
open MeshRelay (Npubs hostAndPort parseMeshRelay)
open TextLines (isWhitespace trim)
open Utf8Text (Text codes_of_isAlphanum codes_of_isDigit codes_of_isLower fromStrRadix
  isAlphanum_iff rsplitOnce toAsciiLowercase trimEndMatches)

/-- The parts of a URI; the port is -1 where none is given. -/
structure Uri where
  scheme : Option Text
  userInfo : Option Text
  host : Option Text
  port : Int
  rawPath : Option Text
  rawQuery : Option Text
  fragment : Option Text

/-- `java.net.URI` and `lowercase`. -/
structure Platform where
  uri : Text → Option Uri
  lowercase : Text → Text

def withScheme (raw : Text) : Text :=
  if "://".toList <:+: raw then raw else "ws://".toList ++ raw

def portText (port : Int) : Text := if port = -1 then [] else ':' :: decimal port.toNat

/-- What is kept of a URI whose host is known, in lower case. -/
def meshRelayAt (uri : Uri) (host : Text) : Option Text :=
  let label := (host.dropSuffix? ".fips".toList).getD host
  if label = host ∨ isNpub label = false then none
  else if uri.port ≠ -1 ∧ ¬(1 ≤ uri.port ∧ uri.port ≤ 65535) then none
  else
    let path := trimEndMatches '/' (uri.rawPath.getD [])
    some ("ws://".toList ++ host ++ portText uri.port ++ path)

def normalizeMeshRelay (platform : Platform) (input : Text) : Option Text :=
  let raw := trim input
  if raw = [] ∨ raw.any isWhitespace then none
  else do
    let uri ← platform.uri (withScheme raw)
    if uri.scheme.map platform.lowercase ≠ some "ws".toList then none
    else if uri.userInfo.isSome ∨ uri.fragment.isSome ∨ uri.rawQuery.isSome then none
    else
      let host ← uri.host.map platform.lowercase
      meshRelayAt uri host

/-! ### What is documented of the platform -/

/-- A character beyond ASCII that is neither a control nor a space. -/
def isOther (char : Char) : Bool := 0x9f < char.toNat && !isWhitespace char

def isPathChar (char : Char) : Bool :=
  char.isAlphanum || "-_.!~*'()%:@&=+$,;/".toList.contains char || isOther char

def isHexDigit (char : Char) : Bool := (Utf8Text.toDigit 16 char).isSome

/-- Behind every percent sign there are two hexadecimal digits. -/
def escapesPaired : Text → Bool
  | [] => true
  | char :: rest =>
      (char ≠ '%' || ((rest.take 2).length = 2 && (rest.take 2).all isHexDigit)) &&
        escapesPaired rest

/-- An absolute path of RFC 2396, or none. -/
def IsPath (path : Text) : Prop :=
  path = [] ∨ (path.head? = some '/' ∧ path.all isPathChar ∧ escapesPaired path)

instance : DecidablePred IsPath := fun _ => inferInstanceAs (Decidable (_ ∨ _))

/-- A host name of a label of letters and digits and a top label of letters. -/
def IsHostname (host : Text) : Prop :=
  ∃ label top, host = label ++ '.' :: top ∧ label ≠ [] ∧ label.all Char.isAlphanum ∧
    top ≠ [] ∧ top.all Char.isAlpha

/-- A URI with a host has a path as in RFC 2396; a scheme, a host name, a port and
a path put together are read as these parts; and on ASCII texts `lowercase` lowers
the ASCII letters. -/
structure Platform.Documented (platform : Platform) : Prop where
  path_of_host : ∀ text uri, platform.uri text = some uri → uri.host.isSome →
    IsPath (uri.rawPath.getD [])
  reads_parts : ∀ host port path, IsHostname host →
    port = -1 ∨ (0 ≤ port ∧ port ≤ 65535) → IsPath path →
    platform.uri ("ws://".toList ++ host ++ portText port ++ path) =
      some { scheme := some "ws".toList
             userInfo := none
             host := some host
             port := port
             rawPath := some path
             rawQuery := none
             fragment := none }
  lowercase_ascii : ∀ text : Text, (∀ char ∈ text, char.toNat < 0x80) →
    platform.lowercase text = toAsciiLowercase text

/-! ### Hosts and paths -/

/-- A character of the host of a mesh relay. -/
def IsHostChar (char : Char) : Prop := char.isLower = true ∨ char.isDigit = true ∨ char = '.'

theorem IsHostChar.spec {char : Char} (inHost : IsHostChar char) :
    char.toLower = char ∧ char ≠ '/' ∧ char ≠ ':' ∧ isWhitespace char = false ∧
      char.toNat < 0x80 := by
  have code : (97 ≤ char.toNat ∧ char.toNat ≤ 122) ∨ (48 ≤ char.toNat ∧ char.toNat ≤ 57) ∨
      char.toNat = 46 := by
    rcases inHost with lower | digit | rfl
    · exact Or.inl (codes_of_isLower lower)
    · exact Or.inr (Or.inl (codes_of_isDigit digit))
    · exact Or.inr (Or.inr rfl)
  refine ⟨?_, ?_, ?_, ?_, by omega⟩
  · apply Utf8Text.toLower_of_not_isUpper
    rw [Bool.eq_false_iff]
    intro upper
    have codes := Utf8Text.codes_of_isUpper upper
    omega
  · rintro rfl
    exact absurd code (by decide)
  · rintro rfl
    exact absurd code (by decide)
  · simp only [isWhitespace, decide_eq_false_iff_not]
    omega

theorem isHostChar_of_isNpub {label : Text} (accepted : isNpub label = true) :
    ∀ char ∈ label ++ ".fips".toList, IsHostChar char := by
  intro char member
  rcases List.mem_append.mp member with inLabel | suffixed
  · exact ((lower_of_isNpub accepted).2 char inLabel).imp_right Or.inl
  · have all : ".fips".toList.all (fun char => char.isLower || char.isDigit || char = '.') =
        true := by
      decide
    simpa [IsHostChar, or_assoc] using List.all_eq_true.mp all char suffixed

theorem isHostname_of_isNpub {label : Text} (accepted : isNpub label = true) :
    IsHostname (label ++ ".fips".toList) := by
  obtain ⟨nonempty, lower⟩ := lower_of_isNpub accepted
  refine ⟨label, "fips".toList, rfl, nonempty, ?_, by decide, by decide⟩
  rw [List.all_eq_true]
  intro char member
  rcases lower char member with isLower | isDigit
  · exact isAlphanum_iff.mpr (Or.inl (Or.inr isLower))
  · exact isAlphanum_iff.mpr (Or.inr isDigit)

/-- Two hexadecimal digits are still in front where slashes behind them are taken
away. -/
theorem twoDigits_trim {path : Text} {count : Nat}
    (two : ((path ++ List.replicate count '/').take 2).length = 2 ∧
      ((path ++ List.replicate count '/').take 2).all isHexDigit = true) :
    (path.take 2).length = 2 ∧ (path.take 2).all isHexDigit = true := by
  obtain ⟨length, digits⟩ := two
  by_cases long : 2 ≤ path.length
  · rw [List.take_append_of_le_length long] at length digits
    exact ⟨length, digits⟩
  · exfalso
    have slash : '/' ∈ (path ++ List.replicate count '/').take 2 := by
      rw [List.take_append, List.mem_append, List.take_replicate, List.mem_replicate]
      rw [List.length_take, List.length_append, List.length_replicate] at length
      refine Or.inr ⟨?_, rfl⟩
      omega
    exact absurd (List.all_eq_true.mp digits _ slash) (by decide)

theorem escapesPaired_trim {path : Text} {count : Nat}
    (paired : escapesPaired (path ++ List.replicate count '/') = true) :
    escapesPaired path = true := by
  induction path with
  | nil => rfl
  | cons char path ih =>
      rw [List.cons_append, escapesPaired, Bool.and_eq_true] at paired
      rw [escapesPaired, Bool.and_eq_true]
      refine ⟨?_, ih paired.2⟩
      have front := paired.1
      simp only [Bool.or_eq_true, Bool.and_eq_true, decide_eq_true_eq] at front ⊢
      exact front.imp_right twoDigits_trim

/-- A path without its final slashes is one. -/
theorem IsPath.trim {path : Text} (valid : IsPath path) : IsPath (trimEndMatches '/' path) := by
  obtain ⟨count, parts⟩ := Utf8Text.exists_trimmed '/' path
  generalize trimEndMatches '/' path = trimmed at parts
  subst parts
  cases trimmed with
  | nil => exact Or.inl rfl
  | cons first rest =>
      rcases valid with empty | ⟨rooted, chars, paired⟩
      · cases empty
      · rw [List.all_append, Bool.and_eq_true] at chars
        exact Or.inr ⟨rooted, chars.1, escapesPaired_trim paired⟩

theorem trim_trim (path : Text) :
    trimEndMatches '/' (trimEndMatches '/' path) = trimEndMatches '/' path :=
  List.rdropWhile_idempotent _ _

theorem isWhitespace_of_isAlphanum {char : Char} (alphanumeric : char.isAlphanum = true) :
    isWhitespace char = false := by
  have codes := codes_of_isAlphanum alphanumeric
  simp only [isWhitespace, decide_eq_false_iff_not]
  omega

theorem isWhitespace_of_isPathChar {char : Char} (inPath : isPathChar char = true) :
    isWhitespace char = false := by
  simp only [isPathChar, isOther, Bool.or_eq_true, Bool.and_eq_true, Bool.not_eq_true'] at inPath
  rcases inPath with (alphanumeric | mark) | other
  · exact isWhitespace_of_isAlphanum alphanumeric
  · have marks : "-_.!~*'()%:@&=+$,;/".toList.all (fun char => !isWhitespace char) = true := by
      decide
    simpa using List.all_eq_true.mp marks char (List.contains_iff_mem.mp mark)
  · exact other.2

/-- A path has no white space. -/
theorem IsPath.solid {path : Text} (valid : IsPath path) :
    ∀ char ∈ path, isWhitespace char = false := by
  intro char member
  rcases valid with rfl | ⟨-, chars, -⟩
  · cases member
  · exact isWhitespace_of_isPathChar (List.all_eq_true.mp chars char member)

/-! ### The two readers -/

/-- A host name has none of the separators. -/
theorem IsHostname.plain {host : Text} (named : IsHostname host) : '/' ∉ host ∧ ':' ∉ host := by
  obtain ⟨label, top, rfl, -, labelChars, -, topChars⟩ := named
  have apart : ∀ char ∈ label ++ '.' :: top, char.isAlphanum = true ∨ char = '.' := by
    intro char member
    rcases List.mem_append.mp member with inLabel | inTop
    · exact Or.inl (List.all_eq_true.mp labelChars char inLabel)
    · rcases List.mem_cons.mp inTop with rfl | inTop
      · exact Or.inr rfl
      · have letter := List.all_eq_true.mp topChars char inTop
        exact Or.inl (Bool.or_eq_true_iff.mpr (Or.inl letter))
  exact ⟨fun slash => absurd (apart _ slash) (by decide),
    fun colon => absurd (apart _ colon) (by decide)⟩

theorem authority_plain {host : Text} (plain : '/' ∉ host) (port : Int) :
    '/' ∉ host ++ portText port := by
  intro member
  rcases List.mem_append.mp member with inHost | inPort
  · exact plain inHost
  · unfold portText at inPort
    split at inPort
    · cases inPort
    · rcases List.mem_cons.mp inPort with colon | digit
      · cases colon
      · cases Ipv6Text.isDigit_of_mem_decimal digit

theorem rsplitOnce_authority {host : Text} (plain : ':' ∉ host) (port : Int) :
    rsplitOnce ':' (host ++ portText port) =
      if port = -1 then none else some (host, decimal port.toNat) := by
  unfold portText
  split
  · rw [List.append_nil]
    exact if_neg plain
  · refine Utf8Text.rsplitOnce_append (fun member => ?_) host
    cases Ipv6Text.isDigit_of_mem_decimal member

section Readers

variable {Npub Address : Type} {npubs : Npubs Npub Address} {label path : Text} {npub : Npub}
  {port : Int}

theorem dropPrefix_ws (rest : Text) :
    ("ws://".toList ++ rest).dropPrefix? "ws://".toList = some rest :=
  List.dropPrefix?_append_of_beq rest (by decide)

theorem dropSuffix_fips (label : Text) :
    (label ++ ".fips".toList).dropSuffix? ".fips".toList = some label :=
  List.dropSuffix?_eq_some_iff.mpr ⟨_, rfl, by decide⟩

theorem lowercase_host (accepted : isNpub label = true) :
    toAsciiLowercase (label ++ ".fips".toList) = label ++ ".fips".toList :=
  (List.map_congr_left fun char member =>
    (isHostChar_of_isNpub accepted char member).spec.1).trans (List.map_id _)

/-- The shim reads a host and a port back. -/
theorem hostAndPort_parts (accepted : isNpub label = true)
    (given : port = -1 ∨ (1 ≤ port ∧ port ≤ 65535)) :
    hostAndPort (label ++ ".fips".toList ++ portText port) =
      some (label ++ ".fips".toList, if port = -1 then 80 else port.toNat) := by
  rw [hostAndPort, rsplitOnce_authority (isHostname_of_isNpub accepted).plain.2]
  by_cases absent : port = -1
  · rw [if_pos absent, if_pos absent, absent]
    simp [portText]
  · have fits : port.toNat < 2 ^ 16 := by omega
    have positive : port.toNat ≠ 0 := by omega
    rw [if_neg absent, if_neg absent]
    simp only [Ipv6Text.fromStrRadix_decimal fits, Option.bind_eq_bind, Option.bind_some,
      if_pos positive]

/-- The shim reads the relay that was put together. -/
theorem parseMeshRelay_parts (accepted : isNpub label = true)
    (decodes : npubs.parse label = some npub)
    (given : port = -1 ∨ (1 ≤ port ∧ port ≤ 65535)) (valid : IsPath path) :
    parseMeshRelay npubs
        ("ws://".toList ++ (label ++ ".fips".toList) ++ portText port ++ path) =
      some (npub, if port = -1 then 80 else port.toNat, path) := by
  have bounded : path = [] ∨ path.head? = some '/' := valid.imp_right And.left
  have parts := Utf8Text.takeWhile_ne_append
    (authority_plain (isHostname_of_isNpub accepted).plain.1 port) bounded
  have url : "ws://".toList ++ (label ++ ".fips".toList) ++ portText port ++ path =
      "ws://".toList ++ (label ++ ".fips".toList ++ portText port ++ path) := by
    simp only [List.append_assoc]
  rw [parseMeshRelay, url, dropPrefix_ws]
  simp only [Option.bind_eq_bind, Option.bind_some, parts, hostAndPort_parts accepted given,
    lowercase_host accepted, dropSuffix_fips, decodes]
  rfl

variable {platform : Platform}

theorem meshRelayAt_eq_some_iff {uri : Uri} {host url : Text} :
    meshRelayAt uri host = some url ↔ ∃ label, host = label ++ ".fips".toList ∧
      isNpub label = true ∧ (uri.port = -1 ∨ (1 ≤ uri.port ∧ uri.port ≤ 65535)) ∧
      url = "ws://".toList ++ host ++ portText uri.port ++
        trimEndMatches '/' (uri.rawPath.getD []) := by
  constructor
  · intro kept
    simp only [meshRelayAt] at kept
    split at kept
    · cases kept
    next suffixed =>
      split at kept
      · cases kept
      next ranged =>
        rw [not_or, Bool.not_eq_false] at suffixed
        obtain ⟨shorter, accepted⟩ := suffixed
        refine ⟨_, ?_, accepted, by omega, (Option.some.inj kept).symm⟩
        cases dropped : host.dropSuffix? ".fips".toList with
        | none =>
            rw [dropped] at shorter
            exact absurd rfl shorter
        | some label =>
            obtain ⟨suffix, whole, equal⟩ := List.dropSuffix?_eq_some_iff.mp dropped
            rw [Option.getD_some, whole, beq_iff_eq.mp equal]
  · rintro ⟨label, rfl, accepted, given, rfl⟩
    have ranged : ¬(uri.port ≠ -1 ∧ ¬(1 ≤ uri.port ∧ uri.port ≤ 65535)) := by omega
    have refused : ¬(label = label ++ ".fips".toList ∨ isNpub label = false) := by
      simp [accepted]
    simp only [meshRelayAt, dropSuffix_fips, Option.getD_some, if_neg refused, if_neg ranged]

/-- A URL that was put together has no white space. -/
theorem solid_parts (accepted : isNpub label = true) (port : Int) (valid : IsPath path) :
    ∀ char ∈ "ws://".toList ++ (label ++ ".fips".toList) ++ portText port ++ path,
      isWhitespace char = false := by
  intro char member
  simp only [List.mem_append, or_assoc] at member
  rcases member with scheme | inLabel | suffix | inPort | inPath
  · have all : "ws://".toList.all (fun char => !isWhitespace char) = true := by decide
    simpa using List.all_eq_true.mp all char scheme
  · exact (isHostChar_of_isNpub accepted char (List.mem_append_left _ inLabel)).spec.2.2.2.1
  · exact (isHostChar_of_isNpub accepted char (List.mem_append_right _ suffix)).spec.2.2.2.1
  · unfold portText at inPort
    split at inPort
    · cases inPort
    · rcases List.mem_cons.mp inPort with rfl | digit
      · decide
      · exact isWhitespace_of_isAlphanum
          (isAlphanum_iff.mpr (Or.inr (Ipv6Text.isDigit_of_mem_decimal digit)))
  · exact valid.solid char inPath

/-- The settings keep what they would keep. -/
theorem normalizeMeshRelay_parts (documented : platform.Documented)
    (accepted : isNpub label = true) (given : port = -1 ∨ (1 ≤ port ∧ port ≤ 65535))
    (valid : IsPath path) (trimmed : trimEndMatches '/' path = path) :
    normalizeMeshRelay platform
        ("ws://".toList ++ (label ++ ".fips".toList) ++ portText port ++ path) =
      some ("ws://".toList ++ (label ++ ".fips".toList) ++ portText port ++ path) := by
  have bounded : port = -1 ∨ (0 ≤ port ∧ port ≤ 65535) := by omega
  have read := documented.reads_parts _ port path (isHostname_of_isNpub accepted) bounded valid
  have solid := solid_parts accepted port valid
  generalize written : "ws://".toList ++ (label ++ ".fips".toList) ++ portText port ++ path = url
    at read solid
  have whole : trim url = url := TextLines.trim_eq_self
    (fun char first => solid char (List.mem_of_mem_head? first))
    (fun char last => solid char (List.mem_of_getLast? last))
  have schemed : withScheme url = url := by
    refine if_pos ⟨"ws".toList, label ++ ".fips".toList ++ portText port ++ path, ?_⟩
    rw [← written]
    simp
  have unblank : ¬(url = [] ∨ url.any isWhitespace = true) := by
    rintro (empty | blank)
    · rw [empty] at written
      cases written
    · obtain ⟨char, member, white⟩ := List.any_eq_true.mp blank
      rw [solid char member] at white
      cases white
  have lowered : platform.lowercase (label ++ ".fips".toList) = label ++ ".fips".toList := by
    rw [documented.lowercase_ascii _ fun char member =>
      (isHostChar_of_isNpub accepted char member).spec.2.2.2.2]
    exact lowercase_host accepted
  have scheme : platform.lowercase "ws".toList = "ws".toList := by
    rw [documented.lowercase_ascii _ (by simp)]
    decide
  simp only [normalizeMeshRelay, whole, if_neg unblank, schemed, read, Option.bind_eq_bind,
    Option.bind_some, Option.map_some, scheme, lowered]
  refine meshRelayAt_eq_some_iff.mpr ⟨label, rfl, accepted, given, ?_⟩
  rw [Option.getD_some, trimmed, written]

/-- What a mesh relay was put together from. -/
theorem parts_of_normalizeMeshRelay (documented : platform.Documented) {input url : Text}
    (kept : normalizeMeshRelay platform input = some url) :
    ∃ uri host label path, platform.uri (withScheme (trim input)) = some uri ∧
      uri.host.map platform.lowercase = some host ∧ host = label ++ ".fips".toList ∧
      isNpub label = true ∧ (uri.port = -1 ∨ (1 ≤ uri.port ∧ uri.port ≤ 65535)) ∧
      IsPath path ∧ trimEndMatches '/' path = path ∧
      url = "ws://".toList ++ (label ++ ".fips".toList) ++ portText uri.port ++ path := by
  simp only [normalizeMeshRelay] at kept
  split at kept
  · cases kept
  obtain ⟨uri, read, kept⟩ := Option.bind_eq_some_iff.mp kept
  split at kept
  · cases kept
  split at kept
  · cases kept
  obtain ⟨host, lowered, kept⟩ := Option.bind_eq_some_iff.mp kept
  obtain ⟨label, rfl, accepted, given, rfl⟩ := meshRelayAt_eq_some_iff.mp kept
  obtain ⟨name, named, -⟩ := Option.map_eq_some_iff.mp lowered
  have valid := documented.path_of_host _ uri read (by rw [named]; rfl)
  exact ⟨uri, _, label, _, read, lowered, rfl, accepted, given, valid.trim, trim_trim _, rfl⟩

end Readers

/-- The label of the host that is read of an input. -/
def hostLabel (platform : Platform) (input : Text) : Option Text := do
  let uri ← platform.uri (withScheme (trim input))
  let host ← uri.host.map platform.lowercase
  host.dropSuffix? ".fips".toList

/-- A relay that the settings accept, and whose label is that of a key, is read by
the shim with that key, the port that was given or 80, and the path that its URL
has; and the settings keep its URL as it is. -/
theorem accepted_relay_is_usable {Npub Address : Type} {npubs : Npubs Npub Address}
    {platform : Platform} (documented : platform.Documented) {input url label : Text}
    {npub : Npub} (labelled : hostLabel platform input = some label)
    (decodes : npubs.parse label = some npub)
    (kept : normalizeMeshRelay platform input = some url) :
    ∃ given read, platform.uri (withScheme (trim input)) = some given ∧
      platform.uri url = some read ∧
      parseMeshRelay npubs url = some (npub, if given.port = -1 then 80 else given.port.toNat,
        read.rawPath.getD []) ∧
      normalizeMeshRelay platform url = some url := by
  obtain ⟨uri, host, own, path, read, lowered, rfl, accepted, given, valid, trimmed, rfl⟩ :=
    parts_of_normalizeMeshRelay documented kept
  have same : own = label := by
    simp only [hostLabel, read, lowered, Option.bind_eq_bind, Option.bind_some, dropSuffix_fips,
      Option.some.injEq] at labelled
    exact labelled
  subst same
  have bounded : uri.port = -1 ∨ (0 ≤ uri.port ∧ uri.port ≤ 65535) := by omega
  have again := documented.reads_parts _ uri.port path (isHostname_of_isNpub accepted) bounded valid
  exact ⟨uri, _, read, again, parseMeshRelay_parts accepted decodes given valid,
    normalizeMeshRelay_parts documented accepted given valid trimmed⟩

/-! ### A reader of mesh relays -/

private def wsAuthority (authority : Text) : Option (Text × Int) :=
  match rsplitOnce ':' authority with
  | some (host, port) => (fromStrRadix 10 65536 port).map fun number => (host, Int.ofNat number)
  | none => some (authority, -1)

/-- A reader of URIs with a host name and a path. -/
private def wsPlatform : Platform where
  uri text := do
    let rest ← text.dropPrefix? "ws://".toList
    let path := rest.dropWhile (· ≠ '/')
    let (host, port) ← wsAuthority (rest.takeWhile (· ≠ '/'))
    if IsPath path then
      some { scheme := some "ws".toList
             userInfo := none
             host := some host
             port := port
             rawPath := some path
             rawQuery := none
             fragment := none }
    else none
  lowercase := toAsciiLowercase

private theorem wsAuthority_parts {host : Text} (plain : ':' ∉ host) {port : Int}
    (given : port = -1 ∨ (0 ≤ port ∧ port ≤ 65535)) :
    wsAuthority (host ++ portText port) = some (host, port) := by
  rw [wsAuthority, rsplitOnce_authority plain]
  by_cases absent : port = -1
  · rw [if_pos absent, absent]
    simp [portText]
  · have fits : port.toNat < 65536 := by omega
    have whole : Int.ofNat port.toNat = port := Int.toNat_of_nonneg (by omega)
    simp only [if_neg absent, Ipv6Text.fromStrRadix_decimal fits, Option.map_some, whole]

private theorem wsPlatform_documented : wsPlatform.Documented where
  path_of_host := by
    intro text uri read hosted
    obtain ⟨rest, -, read⟩ := Option.bind_eq_some_iff.mp read
    obtain ⟨⟨host, port⟩, -, read⟩ := Option.bind_eq_some_iff.mp read
    simp only at read
    split at read
    next valid =>
      cases read
      exact valid
    · cases read
  reads_parts := by
    intro host port path named given valid
    have bounded : path = [] ∨ path.head? = some '/' := valid.imp_right And.left
    have parts := Utf8Text.takeWhile_ne_append (authority_plain named.plain.1 port) bounded
    have url : "ws://".toList ++ host ++ portText port ++ path =
        "ws://".toList ++ (host ++ portText port ++ path) := by
      simp only [List.append_assoc]
    simp only [wsPlatform, url, dropPrefix_ws, Option.bind_eq_bind, Option.bind_some, parts,
      wsAuthority_parts named.plain.2 given, if_pos valid]
  lowercase_ascii text _ := rfl

private def wsNpubs : Npubs Unit Unit where
  parse text := if isNpub text then some () else none
  toText _ := []
  fipsAddress _ := ()

private def wsNpub : Text :=
  "npub1qyqszqgpqyqszqgpqyqszqgpqyqszqgpqyqszqgpqyqszqgpqyqs8j9gdm".toList

/-- A relay typed without a scheme, with a port and a final slash. -/
theorem typed_relay_is_usable :
    normalizeMeshRelay wsPlatform (wsNpub ++ ".fips:7777/nostr/".toList) =
        some ("ws://".toList ++ wsNpub ++ ".fips:7777/nostr".toList) ∧
      ∃ given read,
        wsPlatform.uri (withScheme (trim (wsNpub ++ ".fips:7777/nostr/".toList))) = some given ∧
        wsPlatform.uri ("ws://".toList ++ wsNpub ++ ".fips:7777/nostr".toList) = some read ∧
        parseMeshRelay wsNpubs ("ws://".toList ++ wsNpub ++ ".fips:7777/nostr".toList) =
          some ((), if given.port = -1 then 80 else given.port.toNat, read.rawPath.getD []) ∧
        normalizeMeshRelay wsPlatform ("ws://".toList ++ wsNpub ++ ".fips:7777/nostr".toList) =
          some ("ws://".toList ++ wsNpub ++ ".fips:7777/nostr".toList) := by
  have kept : normalizeMeshRelay wsPlatform (wsNpub ++ ".fips:7777/nostr/".toList) =
      some ("ws://".toList ++ wsNpub ++ ".fips:7777/nostr".toList) := by decide +kernel
  have labelled : hostLabel wsPlatform (wsNpub ++ ".fips:7777/nostr/".toList) = some wsNpub := by
    decide +kernel
  have decodes : wsNpubs.parse wsNpub = some () := by decide +kernel
  exact ⟨kept, accepted_relay_is_usable wsPlatform_documented labelled decodes kept⟩

end Fips2Go.ConfigStore
