import Fips2Go.FirstOccurrences
import Fips2Go.HostsStore
import Fips2Go.JsonRecord
import Fips2Go.MeshRelayUrl

/-!
# The settings and the config built from them

`ConfigStore.kt`: the preferences with their defaults, the lists that are
validated on the way out, and the JSON that a connect or a rebind hands to the
shim.  Which characters count as digits, `java.net.URI` and `lowercase` are up
to the platform.
-/

namespace Fips2Go.ConfigStore

open FirstOccurrences (firsts)
open JsonRecord (Json Record)
open TextLines (Text isWhitespace lines trim)
open Utf8Text (trimEndMatches)

/-- The stored preferences, each of which may be absent; `others` are the keys
that nothing reads. -/
structure Preferences where
  peerNpub : Option Text
  peerEndpoint : Option Text
  peerTransport : Option Text
  workerThreads : Option Int
  forwardClearnet : Option Bool
  batterySaver : Option Bool
  lanMdns : Option Bool
  publicNames : Option Bool
  namesMeshRelays : Option Text
  namesWitnesses : Option Text
  namesAttestationK : Option Int
  namesWitnessesFromHosts : Option Bool
  namesDirectServers : Option Bool
  namesDnssec : Option Bool
  hotspot : Option Bool
  inboundFilter : Option Bool
  inboundPorts : Option Text
  logLevel : Option Text
  theme : Option Text
  bootstrapFallbacks : Option Bool
  nostrDiscovery : Option Bool
  relayList : Option Text
  hostsSync : Option Bool
  hostsSyncFrom : Option Text
  autoUpdate : Option Bool
  others : List String
  deriving DecidableEq

/-- What the app runs on: the platform's texts, the hosts file as it is, and the
paths of the hosts file and of the pins next to it. -/
structure Device where
  platform : Platform
  digit : Char → Option Nat
  hostsFile : Option Text
  hostsPath : Text
  namesPinsPath : Text

/-! ### Bootstrap peers -/

structure BootstrapPeer where
  name : String
  npub : Text
  deriving DecidableEq

def BootstrapPeer.endpoint (peer : BootstrapPeer) : Text :=
  peer.name.toList ++ ".fips.network:2121".toList

def bootstrapPeers : List BootstrapPeer :=
  [⟨"test-us01", "npub1qmc3cvfz0yu2hx96nq3gp55zdan2qclealn7xshgr448d3nh6lks7zel98".toList⟩,
    ⟨"test-us02", "npub10yffd020a4ag8zcy75f9pruq3rnghvvhd5hphl9s62zgp35s560qrksp9u".toList⟩,
    ⟨"test-us03", "npub136yqae6na688fs75g95ppps3lxe07fvxefj77938zf47uhm6074sxw8ctm".toList⟩,
    ⟨"test-us03-next", "npub15m6c4ghuegx4pcde6tra8f7smn8vfv2wundyxwhkjynuerkrzmgsy09sh3".toList⟩,
    ⟨"test-us04", "npub1gd7ye2qp2lphhzx75fynnjzaxx4dqanddecet0wtt5ss5ek8h9ps62wdkf".toList⟩,
    ⟨"test-de01", "npub1260n42s06vzc7796w0fh3ny7zcpw6tlk4gq3940gmfrzl5c9pv2s3657q8".toList⟩,
    ⟨"test-es01", "npub17lpmzulpc98d8ff727k6e98atxn3phzupzsqqwe54ytduym747ws4tw5zm".toList⟩,
    ⟨"test-uk01", "npub1u0z26dc4qeneu5rvwvmpfhtwh3522ed6rlgxr9jarrfnjrc6ew4qxjysrs".toList⟩]

def defaultBootstrap : String := "test-de01"

def fallbackBootstraps : List String := ["test-uk01", "test-us01", "test-es01", "test-de01"]

def fallbackCount : Nat := 2

/-! ### Defaults -/

def defPeerTransport : Text := "udp".toList

def defWorkerThreads : Int := 1

def defLogLevel : Text := "info".toList

def defTheme : Text := "dark".toList

def defNostrDiscoveryMaxPeers : Int := 3

def defNamesAttestationK : Int := 2

def namesDirectServerCount : Int := 2

def maxRelays : Nat := 8

def maxWitnesses : Nat := 8

def maxWitnessesTotal : Nat := 32

def retiredKeys : List String :=
  ["nostr", "nostr_relays", "stun_servers", "udp_bind", "tcp_bind", "dns_upstreams",
    "enable_fips_dns", "fips_yaml"]

/-- The peer and its endpoint are seeded together, if neither is there. -/
def seedPeer (prefs : Preferences) : Preferences :=
  if prefs.peerNpub = none ∧ prefs.peerEndpoint = none then
    match bootstrapPeers.find? fun peer => peer.name = defaultBootstrap with
    | some boot => { prefs with peerNpub := some boot.npub, peerEndpoint := some boot.endpoint }
    | none => prefs
  else prefs

def applyDefaults (prefs : Preferences) : Preferences :=
  let prefs := seedPeer prefs
  { prefs with
    peerTransport := some (prefs.peerTransport.getD defPeerTransport)
    inboundFilter := some (prefs.inboundFilter.getD true)
    batterySaver := some (prefs.batterySaver.getD true)
    lanMdns := some (prefs.lanMdns.getD true)
    publicNames := some (prefs.publicNames.getD true)
    hotspot := some (prefs.hotspot.getD true)
    autoUpdate := some (prefs.autoUpdate.getD true)
    forwardClearnet := some (prefs.forwardClearnet.getD true)
    workerThreads := some (prefs.workerThreads.getD defWorkerThreads)
    logLevel := some (prefs.logLevel.getD defLogLevel)
    theme := some (prefs.theme.getD defTheme)
    bootstrapFallbacks := some (prefs.bootstrapFallbacks.getD true)
    nostrDiscovery := some (prefs.nostrDiscovery.getD false)
    others := prefs.others.filter (· ∉ retiredKeys) }

/-! ### Lists validated on the way out -/

def primaryNpub (prefs : Preferences) : Text := trim (prefs.peerNpub.getD [])

def primaryEndpoint (prefs : Preferences) : Text := trim (prefs.peerEndpoint.getD [])

def fallbackPeers (prefs : Preferences) : List BootstrapPeer :=
  if prefs.bootstrapFallbacks.getD true then
    ((fallbackBootstraps.filterMap fun name =>
        bootstrapPeers.find? fun peer => peer.name = name).filter
      fun peer => peer.npub ≠ primaryNpub prefs).take fallbackCount
  else []

/-- The canonical form of a Nostr relay as typed. -/
def normalizeRelay (platform : Platform) (input : Text) : Option Text :=
  let raw := trim input
  if raw = [] ∨ raw.any isWhitespace then none
  else do
    let uri ← platform.uri (if "://".toList <:+: raw then raw else "wss://".toList ++ raw)
    let scheme ← uri.scheme.map platform.lowercase
    let host ← uri.host.map platform.lowercase
    if scheme ≠ "wss".toList ∧ scheme ≠ "ws".toList then none
    else if uri.userInfo.isSome ∨ uri.fragment.isSome then none
    else if '.' ∉ host ∧ host ≠ "localhost".toList ∧ host.head? ≠ some '[' then none
    else if uri.port ≠ -1 ∧ ¬(1 ≤ uri.port ∧ uri.port ≤ 65535) then none
    else
      let path := trimEndMatches '/' (uri.rawPath.getD [])
      let query := uri.rawQuery.elim [] fun query => '?' :: query
      some (scheme ++ "://".toList ++ host ++ portText uri.port ++ path ++ query)

/-- The customised list; with none fips uses its own relays. -/
def customRelays (platform : Platform) (prefs : Preferences) : Option (List Text) :=
  match prefs.relayList with
  | none => none
  | some list =>
      let relays := firsts [] ((lines list).filterMap (normalizeRelay platform))
      if relays = [] then none else some relays

def meshRelays (platform : Platform) (prefs : Preferences) : List Text :=
  (firsts [] ((lines (prefs.namesMeshRelays.getD [])).filterMap
    (normalizeMeshRelay platform))).take maxRelays

def validWitnesses (text : Text) : List Text :=
  (firsts [] (((lines text).map trim).filter fun line => isNpub line)).take maxWitnesses

/-- The witnesses that the hosts file implies: the node the names sync from,
and each name's node. -/
def hostWitnesses (device : Device) (prefs : Preferences) : List Text :=
  let (master, hosts) := HostsStore.masterAndEffective device.hostsFile
  let source := if prefs.hostsSync.getD false then some (prefs.hostsSyncFrom.getD []) else none
  let candidates := source :: master :: hosts.map fun host => some host.npub
  firsts [] ((candidates.filterMap fun candidate =>
    candidate.map fun text => device.platform.lowercase (trim text)).filter fun npub => isNpub npub)

def combinedWitnesses (typed fromHosts : List Text) : List Text :=
  (firsts [] (typed ++ fromHosts)).take maxWitnessesTotal

def allWitnesses (device : Device) (prefs : Preferences) : List Text :=
  combinedWitnesses (validWitnesses (prefs.namesWitnesses.getD []))
    (if prefs.namesWitnessesFromHosts.getD false then hostWitnesses device prefs else [])

/-- `coerceIn`. -/
def coerceIn (value low high : Int) : Int :=
  if value < low then low else if high < value then high else value

def attestationThreshold (prefs : Preferences) : Int :=
  coerceIn (prefs.namesAttestationK.getD defNamesAttestationK) 0 maxWitnesses

/-- The number that a text of digits writes. -/
def digits (digit : Char → Option Nat) (text : Text) : Option Nat :=
  if text = [] then none
  else text.foldlM (fun number char => (digit char).map fun value => 10 * number + value) 0

/-- `toIntOrNull`: an optional sign, digits, and a value of 32 bits. -/
def toIntOrNull (digit : Char → Option Nat) (text : Text) : Option Int :=
  match text with
  | '-' :: rest =>
      (digits digit rest).bind fun number =>
        if number ≤ 2 ^ 31 then some (-number) else none
  | '+' :: rest =>
      (digits digit rest).bind fun number =>
        if number < 2 ^ 31 then some (number : Int) else none
  | rest =>
      (digits digit rest).bind fun number =>
        if number < 2 ^ 31 then some (number : Int) else none

def isSeparator (char : Char) : Bool := char = '\n' || char = ',' || char = ' '

def inboundPorts (device : Device) (prefs : Preferences) : List Int :=
  (((prefs.inboundPorts.getD []).splitOnP isSeparator).filterMap fun part =>
    toIntOrNull device.digit (trim part)).filter fun port => 1 ≤ port ∧ port ≤ 65535

/-! ### The config -/

def peerJson (npub endpoint transport : Text) : Json :=
  .object (((Record.empty.put "npub" (.string npub)).put "endpoint"
    (.string endpoint)).put "transport" (.string transport)).1

/-- The configured peer, if it is complete, and the fallbacks. -/
def peersJson (prefs : Preferences) : List Json :=
  (if primaryNpub prefs ≠ [] ∧ primaryEndpoint prefs ≠ [] then
      [peerJson (primaryNpub prefs) (primaryEndpoint prefs)
        (prefs.peerTransport.getD defPeerTransport)]
    else []) ++
  (fallbackPeers prefs).map fun peer => peerJson peer.npub peer.endpoint defPeerTransport

/-- A list is sent only if there is something in it. -/
def nonEmpty (texts : List Text) : Option Json :=
  if texts = [] then none else some (.array (texts.map .string))

/-- The fields for public names. -/
def putNames (device : Device) (prefs : Preferences) (config : Record) : Record :=
  if prefs.publicNames.getD true then
    let config := config.put "names_pins_path" (.string device.namesPinsPath)
    let config := config.putSome "names_mesh_relays"
      (nonEmpty (meshRelays device.platform prefs))
    let config := config.putSome "names_witnesses" (nonEmpty (allWitnesses device prefs))
    let config := config.putSome "names_attestation_threshold"
      (if allWitnesses device prefs = [] then none else some (.int (attestationThreshold prefs)))
    let config := config.put "names_dnssec" (.bool (prefs.namesDnssec.getD true))
    config.put "names_server_peers"
      (.int (if prefs.namesDirectServers.getD true then namesDirectServerCount else 0))
  else config

def hotspotJson (addr : Text) (prefixLen : Int) : Json :=
  .object ((Record.empty.put "addr" (.string addr)).put "prefix_len" (.int prefixLen)).1

def buildConfig (device : Device) (prefs : Preferences) (nsec : Text)
    (hotspotAddr : Option Text) (hotspotPrefixLen : Int) : Record :=
  let config := Record.empty
    |>.put "nsec" (.string nsec)
    |>.put "peers" (.array (peersJson prefs))
    |>.put "enable_nostr" (.bool true)
    |>.put "nostr_discovery" (.bool (prefs.nostrDiscovery.getD false))
    |>.put "nostr_discovery_max_peers" (.int defNostrDiscoveryMaxPeers)
    |>.put "enable_fips_dns" (.bool true)
    |>.put "worker_threads" (.int (prefs.workerThreads.getD defWorkerThreads))
    |>.put "forward_clearnet" (.bool (prefs.forwardClearnet.getD true))
    |>.put "battery_saver" (.bool (prefs.batterySaver.getD true))
    |>.put "enable_lan_mdns" (.bool (prefs.lanMdns.getD true))
    |>.put "inbound_filter" (.bool (prefs.inboundFilter.getD true))
    |>.put "log_level" (.string (prefs.logLevel.getD defLogLevel))
    |>.put "hosts_path" (.string device.hostsPath)
  let config := putNames device prefs config
  let config := config.putSome "nostr_relays"
    ((customRelays device.platform prefs).map fun relays =>
      .array ((relays.take maxRelays).map .string))
  let config := config.put "inbound_ports" (.array ((inboundPorts device prefs).map .int))
  config.putSome "hotspot" (hotspotAddr.map fun addr => hotspotJson addr hotspotPrefixLen)

def buildConfigJson (device : Device) (prefs : Preferences) (nsec : Text)
    (hotspotAddr : Option Text) (hotspotPrefixLen : Int) : Json :=
  .object (buildConfig device prefs nsec hotspotAddr hotspotPrefixLen).1

end Fips2Go.ConfigStore
