import Fips2Go.AddressText
import Fips2Go.JsonRecord
import Fips2Go.Machine
import Fips2Go.PinnedServers

/-!
# The shim's config

`shim/src/config.rs`: the JSON that the app sends as a `ShimConfig`, with the
defaults of the fields that are left out, and the config of the fips node that
is made of it.  fips itself, the YAML reader and the pin file are other crates';
of a node's config the fields that the shim sets are named, and the others are
carried along.
-/

namespace Fips2Go

open AddressText (IpAddr SocketAddr parseIpAddr parseSocketAddr)
open Ipv6Text (decimal)
open JsonRecord (Fields Json bool? list? nat? option? record? required string? withDefault)
open PinnedServers (Binding Npubs pinnedServers)
open Utf8Text (Text trim)

/-! ### Reading the JSON -/

structure HotspotConfig where
  addr : Text
  prefixLen : Nat
  deriving DecidableEq

structure PeerEntry where
  npub : Text
  endpoint : Text
  transport : Text
  deriving DecidableEq

structure ShimConfig where
  nsec : Text
  peers : List PeerEntry
  dnsUpstreams : List Text
  enableNostr : Bool
  nostrDiscovery : Bool
  nostrDiscoveryMaxPeers : Nat
  enableFipsDns : Bool
  workerThreads : Nat
  forwardClearnet : Bool
  batterySaver : Bool
  enableLanMdns : Bool
  logLevel : Option Text
  nostrRelays : List Text
  stunServers : List Text
  udpBind : Option Text
  tcpBind : Option Text
  inboundFilter : Bool
  inboundPorts : List Nat
  hotspot : Option HotspotConfig
  hostsPath : Option Text
  namesPinsPath : Option Text
  namesServerPeers : Nat
  namesMeshRelays : List Text
  namesAllowUnverifiedOffline : Bool
  namesWitnesses : List Text
  namesAttestationThreshold : Option Nat
  namesDnssec : Option Bool
  fipsYaml : Option Text
  deriving DecidableEq

namespace ShimConfig

def defaultTransport : Text := "udp".toList

def defaultWorkerThreads : Nat := 1

def defaultNamesServerPeers : Nat := 2

def defaultNostrDiscoveryMaxPeers : Nat := 3

def defaultDnsUpstreams : List Text := ["1.1.1.1:53".toList, "9.9.9.9:53".toList]

def decodeHotspot : Json → Option HotspotConfig :=
  record? ["addr", "prefix_len"] fun fields => do
    let addr ← required string? "addr" fields
    let prefixLen ← required (nat? 256) "prefix_len" fields
    return ⟨addr, prefixLen⟩

def decodePeer : Json → Option PeerEntry :=
  record? ["npub", "endpoint", "transport"] fun fields => do
    let npub ← required string? "npub" fields
    let endpoint ← required string? "endpoint" fields
    let transport ← withDefault defaultTransport string? "transport" fields
    return ⟨npub, endpoint, transport⟩

/-- A list of texts, empty where it is left out. -/
def texts (name : String) (fields : Fields) : Option (List Text) :=
  withDefault [] (list? string?) name fields

/-- A text that may be left out. -/
def text? (name : String) (fields : Fields) : Option (Option Text) :=
  withDefault none (option? string?) name fields

def flag (default : Bool) (name : String) (fields : Fields) : Option Bool :=
  withDefault default bool? name fields

/-- The fields in the order of their declaration. -/
def fieldNames : List String :=
  ["nsec", "peers", "dns_upstreams", "enable_nostr", "nostr_discovery",
    "nostr_discovery_max_peers", "enable_fips_dns", "worker_threads", "forward_clearnet",
    "battery_saver", "enable_lan_mdns", "log_level", "nostr_relays", "stun_servers", "udp_bind",
    "tcp_bind", "inbound_filter", "inbound_ports", "hotspot", "hosts_path", "names_pins_path",
    "names_server_peers", "names_mesh_relays", "names_allow_unverified_offline",
    "names_witnesses", "names_attestation_threshold", "names_dnssec", "fips_yaml"]

def decode (target : Machine.Target) (fields : Fields) : Option ShimConfig := do
  let usize := nat? target.wordEnd
  let nsec ← required string? "nsec" fields
  let peers ← withDefault [] (list? decodePeer) "peers" fields
  let dnsUpstreams ← withDefault defaultDnsUpstreams (list? string?) "dns_upstreams" fields
  let enableNostr ← flag false "enable_nostr" fields
  let nostrDiscovery ← flag false "nostr_discovery" fields
  let nostrDiscoveryMaxPeers ←
    withDefault defaultNostrDiscoveryMaxPeers usize "nostr_discovery_max_peers" fields
  let enableFipsDns ← flag true "enable_fips_dns" fields
  let workerThreads ← withDefault defaultWorkerThreads usize "worker_threads" fields
  let forwardClearnet ← flag true "forward_clearnet" fields
  let batterySaver ← flag true "battery_saver" fields
  let enableLanMdns ← flag false "enable_lan_mdns" fields
  let logLevel ← text? "log_level" fields
  let nostrRelays ← texts "nostr_relays" fields
  let stunServers ← texts "stun_servers" fields
  let udpBind ← text? "udp_bind" fields
  let tcpBind ← text? "tcp_bind" fields
  let inboundFilter ← flag true "inbound_filter" fields
  let inboundPorts ← withDefault [] (list? (nat? 65536)) "inbound_ports" fields
  let hotspot ← withDefault none (option? decodeHotspot) "hotspot" fields
  let hostsPath ← text? "hosts_path" fields
  let namesPinsPath ← text? "names_pins_path" fields
  let namesServerPeers ← withDefault defaultNamesServerPeers usize "names_server_peers" fields
  let namesMeshRelays ← texts "names_mesh_relays" fields
  let namesAllowUnverifiedOffline ← flag false "names_allow_unverified_offline" fields
  let namesWitnesses ← texts "names_witnesses" fields
  let namesAttestationThreshold ←
    withDefault none (option? usize) "names_attestation_threshold" fields
  let namesDnssec ← withDefault none (option? bool?) "names_dnssec" fields
  let fipsYaml ← text? "fips_yaml" fields
  return ⟨nsec, peers, dnsUpstreams, enableNostr, nostrDiscovery, nostrDiscoveryMaxPeers,
    enableFipsDns, workerThreads, forwardClearnet, batterySaver, enableLanMdns, logLevel,
    nostrRelays, stunServers, udpBind, tcpBind, inboundFilter, inboundPorts, hotspot, hostsPath,
    namesPinsPath, namesServerPeers, namesMeshRelays, namesAllowUnverifiedOffline, namesWitnesses,
    namesAttestationThreshold, namesDnssec, fipsYaml⟩

/-- The JSON reader: the value of a text or what is wrong with it, and what is
wrong with a value that is no config. -/
structure Serde where
  read : Text → Except Text Json
  dataError : Json → Text

def fromJson (serde : Serde) (target : Machine.Target) (json : Text) : Except Text ShimConfig :=
  match serde.read json with
  | .error error => .error ("config parse: ".toList ++ error)
  | .ok value =>
      match record? fieldNames (decode target) value with
      | some config => .ok config
      | none => .error ("config parse: ".toList ++ serde.dataError value)

end ShimConfig

/-! ### The node's config -/

structure UdpConfig where
  bindAddr : Option Text
  dialPrefixes : Option (List Text)
  sharePort : Option Bool
  deriving DecidableEq

structure TcpConfig where
  bindAddr : Option Text
  deriving DecidableEq

inductive TransportInstances (α : Type) where
  | single (config : α)
  | named (configs : List (String × α))
  deriving DecidableEq

inductive NostrRendezvousPolicy where
  | configuredOnly
  | openToAll
  | other
  deriving DecidableEq

structure NostrRendezvousConfig where
  enabled : Bool
  policy : NostrRendezvousPolicy
  openDiscoveryMaxPending : Nat
  openDiscoveryMaxPeers : Nat
  advertRelays : List Text
  dmRelays : List Text
  stunServers : List Text
  deriving DecidableEq

structure LanConfig where
  enabled : Bool
  excludeAddrs : List IpAddr
  deriving DecidableEq

structure PeerConfig where
  npub : Text
  addresses : List (Text × Text)
  viaNostr : Bool
  deriving DecidableEq

/-- What the shim sets of a node's config, and the rest of it. -/
structure FipsConfig (Rest : Type) where
  nsec : Option Text
  controlEnabled : Bool
  tickIntervalSecs : Nat
  heartbeatIntervalSecs : Nat
  linkDeadTimeoutSecs : Nat
  nostr : NostrRendezvousConfig
  lan : LanConfig
  udp : TransportInstances UdpConfig
  tcp : TransportInstances TcpConfig
  tunEnabled : Bool
  dnsEnabled : Bool
  peers : List PeerConfig
  rest : Rest

structure IdentityInfo where
  nsec : Text
  npub : Text
  address : Text

/-- What the shim uses of fips and of the YAML reader; `generated` is the
identity that is drawn where none is given. -/
structure Fips (Rest : Type) where
  new : FipsConfig Rest
  udpConfig : UdpConfig
  tcpConfig : TcpConfig
  peerConfig : PeerConfig
  udpIsEmpty : TransportInstances UdpConfig → Bool
  fromYaml : Text → Except Text (FipsConfig Rest)
  validate : FipsConfig Rest → Except Text Unit
  generated : IdentityInfo
  fromSecretStr : Text → Except Text IdentityInfo

/-- The device: the port that a throwaway socket gets, the pin file, and how a
text is shown for debugging. -/
structure ShimHost (Npub : Type) where
  probe : IpAddr → Except Text Nat
  pins : Text → Option (List (Binding Npub))
  npubs : Npubs Npub
  debug : Text → Text

def withContext {α : Type} (context : String) : Except Text α → Except Text α
  | .ok value => .ok value
  | .error error => .error (context.toList ++ error)

def deriveIdentity {Rest : Type} (fips : Fips Rest) (nsec : Text) : Except Text IdentityInfo :=
  if trim nsec = [] then .ok fips.generated
  else withContext "invalid nsec: " (fips.fromSecretStr (trim nsec))

/-- A text that is there and not blank. -/
def notBlank (text : Option Text) : Option Text := text.filter fun text => trim text ≠ []

def anyUdp : Text := "0.0.0.0:0".toList

/-- `TUN_IPV4`. -/
def tunIpv4 : IpAddr := .v4 ⟨[10, 111, 222, 1], AddressText.length_ipv4 10 111 222 1⟩

variable {Npub Rest : Type}

def maxLen : IpAddr → Nat
  | .v4 _ => 32
  | .v6 _ => 128

def hotspotBinds (host : ShimHost Npub) (udpBind : Text) (hs : HotspotConfig) :
    Except Text (Text × Text × Text) :=
  match parseIpAddr (trim hs.addr) with
  | none => .error ("bad hotspot addr ".toList ++ host.debug hs.addr ++
      ": invalid IP address syntax".toList)
  | some addr =>
      if maxLen addr < hs.prefixLen then
        .error ("bad hotspot prefix_len ".toList ++ decimal hs.prefixLen)
      else
        match parseSocketAddr udpBind with
        | none => .error ("bad udp_bind ".toList ++ host.debug udpBind ++
            ": invalid socket address syntax".toList)
        | some main =>
            match if main.port ≠ 0 then .ok main.port
                else withContext "port probe: " (host.probe main.ip) with
            | .error error => .error error
            | .ok port =>
                .ok (SocketAddr.display ⟨main.ip, 0, port⟩, SocketAddr.display ⟨addr, 0, port⟩,
                  addr.display ++ '/' :: decimal hs.prefixLen)

namespace ShimConfig

/-- The config that a `fips.yaml` gives. -/
def yamlConfig (fips : Fips Rest) (identity : IdentityInfo) (yaml : Text) :
    Except Text (FipsConfig Rest) := do
  let config ← withContext "fips.yaml parse: " (fips.fromYaml yaml)
  let config := { config with
    nsec := some identity.nsec
    tunEnabled := true
    controlEnabled := false
    udp :=
      if fips.udpIsEmpty config.udp then .single { fips.udpConfig with bindAddr := some anyUdp }
      else config.udp }
  withContext "config validate: " (fips.validate config)
  return config

def udpInstances (fips : Fips Rest) (host : ShimHost Npub) (self : ShimConfig) :
    Except Text (TransportInstances UdpConfig) :=
  let udpBind := (notBlank self.udpBind).getD anyUdp
  match self.hotspot with
  | none => .ok (.single { fips.udpConfig with bindAddr := some udpBind })
  | some hs => do
      let (mainBind, hotspotBind, dialPrefix) ←
        withContext "hotspot config: " (hotspotBinds host udpBind hs)
      return .named
        [("main", { fips.udpConfig with bindAddr := some mainBind, sharePort := some true }),
          ("hotspot", { fips.udpConfig with
            bindAddr := some hotspotBind
            dialPrefixes := some [dialPrefix]
            sharePort := some true })]

/-- `node.rendezvous.nostr`. -/
def nostrConfig (self : ShimConfig) (nostr : NostrRendezvousConfig) : NostrRendezvousConfig :=
  let nostr := { nostr with enabled := self.enableNostr }
  let nostr :=
    if self.enableNostr && self.nostrDiscovery then
      let cap :=
        if self.nostrDiscoveryMaxPeers = 0 then defaultNostrDiscoveryMaxPeers
        else self.nostrDiscoveryMaxPeers
      { nostr with
        policy := .openToAll
        openDiscoveryMaxPending := cap
        openDiscoveryMaxPeers := cap }
    else nostr
  let nostr :=
    if self.nostrRelays ≠ [] then
      { nostr with advertRelays := self.nostrRelays, dmRelays := self.nostrRelays }
    else nostr
  if self.stunServers ≠ [] then { nostr with stunServers := self.stunServers } else nostr

/-- `node.rendezvous.lan`. -/
def lanConfig (self : ShimConfig) (ownAddress : Text) (lan : LanConfig) :
    Except Text LanConfig :=
  let lanMdns := self.enableLanMdns || self.hotspot.isSome
  if lanMdns then
    match parseIpAddr ownAddress with
    | none => .error "own address unparseable: invalid IP address syntax".toList
    | some ownAddr => .ok ⟨true, [ownAddr, tunIpv4]⟩
  else .ok { lan with enabled := false }

/-- The configured peers, and what is pinned of others. -/
def peerConfigs [DecidableEq Npub] (fips : Fips Rest) (host : ShimHost Npub)
    (self : ShimConfig) (ownNpub : Text) (peers : List PeerConfig) : List PeerConfig :=
  let peers := peers ++ self.peers.map fun peer =>
    { fips.peerConfig with
      npub := peer.npub
      addresses := [(peer.transport, peer.endpoint)]
      viaNostr := self.enableNostr }
  match self.namesPinsPath with
  | some pins =>
      if self.enableNostr then
        let servers := pinnedServers host.npubs (host.pins pins) self.namesServerPeers
          (String.ofList ownNpub) (peers.map fun peer => String.ofList peer.npub)
        peers ++ servers.map fun npub =>
          { fips.peerConfig with npub := npub.toList, viaNostr := true }
      else peers
  | none => peers

def toFipsConfig [DecidableEq Npub] (fips : Fips Rest) (host : ShimHost Npub)
    (self : ShimConfig) : Except Text (FipsConfig Rest) := do
  let identity ← deriveIdentity fips self.nsec
  match (self.fipsYaml.map trim).filter fun yaml => yaml ≠ [] with
  | some yaml => yamlConfig fips identity yaml
  | none =>
      let udp ← udpInstances fips host self
      let lan ← lanConfig self identity.address fips.new.lan
      let config := { fips.new with
        nsec := some identity.nsec
        udp
        tcp :=
          match notBlank self.tcpBind with
          | some tcp => .single { fips.tcpConfig with bindAddr := some tcp }
          | none => fips.new.tcp
        tunEnabled := true
        dnsEnabled := self.enableFipsDns
        controlEnabled := false
        nostr := nostrConfig self fips.new.nostr
        lan
        tickIntervalSecs := if self.batterySaver then 5 else fips.new.tickIntervalSecs
        heartbeatIntervalSecs := if self.batterySaver then 20 else fips.new.heartbeatIntervalSecs
        linkDeadTimeoutSecs := if self.batterySaver then 60 else fips.new.linkDeadTimeoutSecs
        peers := peerConfigs fips host self identity.npub fips.new.peers }
      withContext "config validate: " (fips.validate config)
      return config

end ShimConfig

end Fips2Go
