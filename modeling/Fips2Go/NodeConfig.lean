import Fips2Go.ShimConfig

/-!
# What a node is started with

What `to_fips_config` makes of a config: the peers of the node, how it
discovers others, and with a hotspot two transports that share one port.
-/

namespace Fips2Go.ShimConfig

open PinnedServers (Npubs mem_ranking pinnedServers pinnedServers_eq ranking)
open AddressText (IpAddr SocketAddr parseIpAddr parseSocketAddr)
open Ipv6Text (decimal)
open Utf8Text (Text trim)

section Node

variable {Npub Rest : Type} [DecidableEq Npub]

/-- The pinned servers are at most so many, each another one and none of those
that are known. -/
theorem pinnedServers_spec {npubs : Npubs Npub}
    (readsBack : ∀ npub, npubs.parseAny (npubs.toString npub) = some npub)
    (opened : Option (List (PinnedServers.Binding Npub))) (max : Nat) (own : String)
    (configured : List String) :
    (pinnedServers npubs opened max own configured).length ≤ max ∧
      (pinnedServers npubs opened max own configured).Nodup ∧
      ∀ server ∈ pinnedServers npubs opened max own configured,
        server ∉ configured ∧ server ≠ own := by
  cases opened with
  | none => simp [pinnedServers]
  | some pins =>
      rw [pinnedServers_eq]
      refine ⟨?_, ?_, fun server selected => ?_⟩
      · rw [List.length_map]
        exact List.length_take_le _ _
      · have injective : Function.Injective npubs.toString := by
          intro first second same
          have reads := readsBack first
          rw [same, readsBack second] at reads
          exact (Option.some.inj reads).symm
        exact ((FirstOccurrences.nodup_firsts _ _).sublist (List.take_sublist _ _)).map injective
      · obtain ⟨npub, ranked, rfl⟩ := List.mem_map.mp selected
        have eligible := mem_ranking.mp (List.mem_of_mem_take ranked)
        have other (text : String) (known : text ∈ configured ++ [own]) :
            npubs.toString npub ≠ text :=
          fun same => eligible.other text known (same ▸ readsBack npub)
        exact ⟨fun known => other _ (List.mem_append_left _ known) rfl,
          other own (List.mem_append_right _ (List.mem_singleton_self own))⟩

variable {fips : Fips Rest} {host : ShimHost Npub}
  {self : ShimConfig} {config : FipsConfig Rest}

theorem bind_eq_ok_iff {ε α β : Type} {outcome : Except ε α} {next : α → Except ε β} {value : β} :
    (outcome >>= next) = .ok value ↔ ∃ given, outcome = .ok given ∧ next given = .ok value := by
  cases outcome with
  | ok given =>
      constructor
      · exact fun passed => ⟨given, rfl, passed⟩
      · rintro ⟨_, ⟨⟩, passed⟩
        exact passed
  | error error =>
      constructor
      · rintro ⟨⟩
      · rintro ⟨_, ⟨⟩, -⟩

theorem withContext_eq_ok_iff {α : Type} {context : String} {outcome : Except Text α} {value : α} :
    withContext context outcome = .ok value ↔ outcome = .ok value := by
  cases outcome with
  | ok given => exact Iff.rfl
  | error error =>
      constructor
      · rintro ⟨⟩
      · rintro ⟨⟩

/-- A blank `fips.yaml` counts as none. -/
theorem filter_map_trim {yaml : Option Text} (blank : notBlank yaml = none) :
    ((yaml.map trim).filter fun yaml => yaml ≠ []) = none := by
  cases yaml with
  | none => rfl
  | some text => simpa [notBlank, Option.filter] using blank

/-- Without a `fips.yaml` the node's config is made of the fields. -/
theorem toFipsConfig_structured (structured : notBlank self.fipsYaml = none)
    (built : self.toFipsConfig fips host = .ok config) :
    ∃ identity, deriveIdentity fips self.nsec = .ok identity ∧
      config.nsec = some identity.nsec ∧
      self.udpInstances fips host = .ok config.udp ∧
      self.lanConfig identity.address fips.new.lan = .ok config.lan ∧
      config.nostr = self.nostrConfig fips.new.nostr ∧
      config.peers = self.peerConfigs fips host identity.npub fips.new.peers ∧
      config.tunEnabled = true ∧ config.controlEnabled = false ∧
      config.dnsEnabled = self.enableFipsDns ∧ config.rest = fips.new.rest := by
  unfold toFipsConfig at built
  obtain ⟨identity, derived, built⟩ := bind_eq_ok_iff.mp built
  simp only [filter_map_trim structured] at built
  obtain ⟨udp, instances, built⟩ := bind_eq_ok_iff.mp built
  obtain ⟨lan, discovery, built⟩ := bind_eq_ok_iff.mp built
  obtain ⟨_, -, built⟩ := bind_eq_ok_iff.mp built
  cases built
  exact ⟨identity, derived, rfl, instances, discovery, rfl, rfl, rfl, rfl, rfl, rfl⟩

/-- The configured peers as the node's config has them. -/
def configuredPeers (fips : Fips Rest) (self : ShimConfig) : List PeerConfig :=
  self.peers.map fun peer =>
    { fips.peerConfig with
      npub := peer.npub
      addresses := [(peer.transport, peer.endpoint)]
      viaNostr := self.enableNostr }

theorem map_npub_configuredPeers (fips : Fips Rest) (self : ShimConfig) :
    (configuredPeers fips self).map PeerConfig.npub = self.peers.map PeerEntry.npub := by
  rw [configuredPeers, List.map_map]
  rfl

theorem viaNostr_of_mem_configuredPeers {peer : PeerConfig}
    (listed : peer ∈ configuredPeers fips self) : peer.viaNostr = self.enableNostr := by
  obtain ⟨entry, -, rfl⟩ := List.mem_map.mp listed
  rfl

/-- The servers of pinned domains that the node peers with. -/
def directServers (fips : Fips Rest) (host : ShimHost Npub) (self : ShimConfig) (own : Text) :
    List String :=
  match self.namesPinsPath with
  | some pins =>
      if self.enableNostr then
        pinnedServers host.npubs (host.pins pins) self.namesServerPeers (String.ofList own)
          ((configuredPeers fips self).map fun peer => String.ofList peer.npub)
      else []
  | none => []

theorem peerConfigs_eq (own : Text) :
    self.peerConfigs fips host own [] = configuredPeers fips self ++
      (directServers fips host self own).map fun npub =>
        { fips.peerConfig with npub := npub.toList, viaNostr := true } := by
  unfold peerConfigs directServers
  cases self.namesPinsPath with
  | none => exact (List.append_nil _).symm
  | some pins =>
      dsimp only
      split
      · rfl
      · exact (List.append_nil _).symm

/-- They are at most so many, none of them twice, and neither the node itself
nor a configured peer. -/
theorem directServers_spec (fips : Fips Rest) (self : ShimConfig)
    (readsBack : ∀ npub, host.npubs.parseAny (host.npubs.toString npub) = some npub)
    (own : Text) :
    (directServers fips host self own).length ≤ self.namesServerPeers ∧
      (directServers fips host self own).Nodup ∧
      ∀ server ∈ directServers fips host self own, self.enableNostr = true ∧
        server.toList ≠ own ∧ server.toList ∉ self.peers.map PeerEntry.npub := by
  have none : ([] : List String).length ≤ self.namesServerPeers ∧ ([] : List String).Nodup ∧
      ∀ server ∈ ([] : List String), self.enableNostr = true ∧ server.toList ≠ own ∧
        server.toList ∉ self.peers.map PeerEntry.npub := by
    simp
  unfold directServers
  cases self.namesPinsPath with
  | none => exact none
  | some pins =>
      dsimp only
      split
      next nostr =>
        obtain ⟨short, nodup, fresh⟩ := pinnedServers_spec readsBack (host.pins pins)
          self.namesServerPeers (String.ofList own)
          ((configuredPeers fips self).map fun peer => String.ofList peer.npub)
        refine ⟨short, nodup, fun server selected => ⟨nostr, fun same => ?_, fun known => ?_⟩⟩
        · exact (fresh server selected).2 (by rw [← same, String.ofList_toList])
        · rw [← map_npub_configuredPeers fips self] at known
          obtain ⟨peer, listed, same⟩ := List.mem_map.mp known
          refine (fresh server selected).1 (List.mem_map.mpr ⟨peer, listed, ?_⟩)
          rw [same, String.ofList_toList]
      next => exact none

/-- No two peers of the node are the same. -/
theorem nodup_peerConfigs
    (readsBack : ∀ npub, host.npubs.parseAny (host.npubs.toString npub) = some npub)
    (distinct : (self.peers.map PeerEntry.npub).Nodup) (own : Text) :
    ((self.peerConfigs fips host own []).map PeerConfig.npub).Nodup := by
  obtain ⟨-, nodup, fresh⟩ := directServers_spec fips self readsBack own
  rw [peerConfigs_eq, List.map_append, List.map_map, map_npub_configuredPeers]
  refine distinct.append (nodup.map fun first second same => String.toList_inj.mp same) ?_
  intro npub configured pinned
  obtain ⟨server, selected, rfl⟩ := List.mem_map.mp pinned
  exact (fresh server selected).2.2 configured

theorem viaNostr_of_mem_peerConfigs
    (readsBack : ∀ npub, host.npubs.parseAny (host.npubs.toString npub) = some npub)
    {own : Text} {peer : PeerConfig} (listed : peer ∈ self.peerConfigs fips host own []) :
    peer.viaNostr = self.enableNostr := by
  rw [peerConfigs_eq] at listed
  rcases List.mem_append.mp listed with configured | pinned
  · exact viaNostr_of_mem_configuredPeers configured
  · obtain ⟨server, selected, rfl⟩ := List.mem_map.mp pinned
    obtain ⟨-, -, fresh⟩ := directServers_spec fips self readsBack own
    exact (fresh server selected).1.symm

theorem lanConfig_spec {ownAddress : Text} {lan given : LanConfig}
    (discovery : self.lanConfig ownAddress given = .ok lan) :
    (lan.enabled = true ↔ self.enableLanMdns = true ∨ self.hotspot.isSome = true) ∧
      (lan.enabled = true → ∃ own, AddressText.parseIpAddr ownAddress = some own ∧
        lan.excludeAddrs = [own, tunIpv4]) := by
  rw [← Bool.or_eq_true]
  unfold lanConfig at discovery
  cases wanted : self.enableLanMdns || self.hotspot.isSome with
  | false =>
      rw [wanted] at discovery
      cases discovery
      exact ⟨Iff.rfl, fun on => Bool.noConfusion on⟩
  | true =>
      rw [wanted] at discovery
      cases parsed : AddressText.parseIpAddr ownAddress with
      | none =>
          rw [parsed] at discovery
          cases discovery
      | some own =>
          rw [parsed] at discovery
          cases discovery
          exact ⟨Iff.rfl, fun _ => ⟨own, rfl, rfl⟩⟩

/-- The discovery over Nostr, and what it may grow to. -/
theorem nostrConfig_spec (self : ShimConfig) (given : NostrRendezvousConfig) :
    (self.nostrConfig given).enabled = self.enableNostr ∧
      ((self.nostrConfig given).policy, (self.nostrConfig given).openDiscoveryMaxPending,
        (self.nostrConfig given).openDiscoveryMaxPeers) =
          if self.enableNostr && self.nostrDiscovery then
            let cap :=
              if self.nostrDiscoveryMaxPeers = 0 then defaultNostrDiscoveryMaxPeers
              else self.nostrDiscoveryMaxPeers
            (.openToAll, cap, cap)
          else (given.policy, given.openDiscoveryMaxPending, given.openDiscoveryMaxPeers) := by
  unfold nostrConfig
  cases self.enableNostr && self.nostrDiscovery <;>
    by_cases relays : self.nostrRelays = [] <;>
      by_cases stun : self.stunServers = [] <;> simp [relays, stun]

/-! ### The hotspot -/

/-- The part of a config that the shim needs of a hotspot: an address, a prefix
length for it, and an address to bind to. -/
structure Usable (shim : ShimConfig) (hs : HotspotConfig) (main : SocketAddr) (addr : IpAddr) :
    Prop where
  udpBind : parseSocketAddr ((notBlank shim.udpBind).getD anyUdp) = some main
  hotspot : parseIpAddr (trim hs.addr) = some addr
  prefixLen : hs.prefixLen ≤ maxLen addr

/-- The port for both transports: the configured one, or else a free one. -/
def sharedPort (host : ShimHost Npub) (main : SocketAddr) : Except Text Nat :=
  if main.port ≠ 0 then .ok main.port else withContext "port probe: " (host.probe main.ip)

omit [DecidableEq Npub] in
theorem hotspotBinds_of_usable {hs : HotspotConfig} {main : SocketAddr} {addr : IpAddr}
    (usable : Usable self hs main addr) :
    hotspotBinds host ((notBlank self.udpBind).getD anyUdp) hs =
      match sharedPort host main with
      | .error error => .error error
      | .ok port => .ok (SocketAddr.display ⟨main.ip, 0, port⟩, SocketAddr.display ⟨addr, 0, port⟩,
          addr.display ++ '/' :: decimal hs.prefixLen) := by
  unfold hotspotBinds
  rw [usable.hotspot]
  simp only [if_neg (Nat.not_lt.mpr usable.prefixLen), usable.udpBind]
  rfl

omit [DecidableEq Npub] in
theorem exists_usable {hs : HotspotConfig} {binds : Text × Text × Text}
    (bound : hotspotBinds host ((notBlank self.udpBind).getD anyUdp) hs = .ok binds) :
    ∃ main addr, Usable self hs main addr := by
  unfold hotspotBinds at bound
  cases addr : parseIpAddr (trim hs.addr) with
  | none =>
      rw [addr] at bound
      cases bound
  | some ip =>
      rw [addr] at bound
      by_cases long : maxLen ip < hs.prefixLen
      · simp only [if_pos long] at bound
        cases bound
      · cases main : parseSocketAddr ((notBlank self.udpBind).getD anyUdp) with
        | none =>
            simp only [if_neg long, main] at bound
            cases bound
        | some main' => exact ⟨main', ip, main, addr, Nat.not_lt.mp long⟩

omit [DecidableEq Npub] in
/-- The shared port is one that can be bound, and the configured one if there is one. -/
theorem sharedPort_spec {main : SocketAddr} {port : Nat}
    (probed : ∀ ip port, host.probe ip = .ok port → 0 < port ∧ port < 65536)
    (main? : main.port < 65536) (shared : sharedPort host main = .ok port) :
    0 < port ∧ port < 65536 ∧ (main.port ≠ 0 → port = main.port) := by
  unfold sharedPort at shared
  split at shared
  next concrete =>
    cases shared
    exact ⟨Nat.pos_of_ne_zero concrete, main?, fun _ => rfl⟩
  next free =>
    obtain ⟨positive, small⟩ := probed main.ip port (withContext_eq_ok_iff.mp shared)
    exact ⟨positive, small, fun concrete => absurd concrete free⟩

/-- With a hotspot the node is started with exactly two UDP transports, one where
it was meant to be anyway and one on the hotspot's address, which dials only on
the hotspot's link; both bind the same port, which is not left open, and both
share it.  A hotspot that cannot be used stops the start.  Both are said of a config
made of the fields; with a `fips.yaml` its own transports stand. -/
theorem hotspot_shares_one_port
    (probed : ∀ ip port, host.probe ip = .ok port → 0 < port ∧ port < 65536)
    (structured : notBlank self.fipsYaml = none) {hs : HotspotConfig}
    (joined : self.hotspot = some hs)
    {identity : IdentityInfo} (derived : deriveIdentity fips self.nsec = .ok identity) :
    (∀ config, self.toFipsConfig fips host = .ok config →
        ∃ main addr port mainBind hotspotBind link,
        Usable self hs main addr ∧ 0 < port ∧ (main.port ≠ 0 → port = main.port) ∧
        config.udp = .named
          [("main", { fips.udpConfig with bindAddr := some mainBind, sharePort := some true }),
            ("hotspot", { fips.udpConfig with
              bindAddr := some hotspotBind
              dialPrefixes := some [link ++ '/' :: decimal hs.prefixLen]
              sharePort := some true })] ∧
        parseSocketAddr mainBind = some ⟨main.ip, 0, port⟩ ∧
        parseSocketAddr hotspotBind = some ⟨addr, 0, port⟩ ∧
        parseIpAddr link = some addr ∧ config.lan.enabled = true) ∧
      ((∀ main addr, ¬Usable self hs main addr) → ∃ error,
        self.toFipsConfig fips host = .error ("hotspot config: ".toList ++ error)) := by
  have instances : self.udpInstances fips host =
      (withContext "hotspot config: "
        (hotspotBinds host ((notBlank self.udpBind).getD anyUdp) hs) >>= fun binds =>
          .ok (.named
            [("main", { fips.udpConfig with bindAddr := some binds.1, sharePort := some true }),
              ("hotspot", { fips.udpConfig with
                bindAddr := some binds.2.1
                dialPrefixes := some [binds.2.2]
                sharePort := some true })])) := by
    unfold udpInstances
    rw [joined]
    rfl
  constructor
  · intro config built
    obtain ⟨identity', -, -, udp, discovery, -⟩ := toFipsConfig_structured structured built
    rw [instances] at udp
    obtain ⟨binds, bound, udp⟩ := bind_eq_ok_iff.mp udp
    have bound := withContext_eq_ok_iff.mp bound
    obtain ⟨main, addr, usable⟩ := exists_usable bound
    rw [hotspotBinds_of_usable usable] at bound
    cases shared : sharedPort host main with
    | error error =>
        rw [shared] at bound
        cases bound
    | ok port =>
        rw [shared] at bound
        cases bound
        obtain ⟨positive, small, same⟩ := sharedPort_spec probed
          (AddressText.port_of_parseSocketAddr usable.udpBind) shared
        refine ⟨main, addr, port, _, _, addr.display, usable, positive, same,
          (Except.ok.inj udp).symm, AddressText.parseSocketAddr_display main.ip small,
          AddressText.parseSocketAddr_display addr small, AddressText.parseIpAddr_display addr, ?_⟩
        refine (lanConfig_spec discovery).1.mpr (Or.inr ?_)
        rw [joined]
        rfl
  · intro unusable
    cases bound : hotspotBinds host ((notBlank self.udpBind).getD anyUdp) hs with
    | ok binds =>
        obtain ⟨main, addr, usable⟩ := exists_usable bound
        exact absurd usable (unusable main addr)
    | error error =>
        refine ⟨error, ?_⟩
        unfold toFipsConfig
        rw [derived]
        simp only [filter_map_trim structured]
        rw [instances, bound]
        rfl

end Node

/-! ### A phone on a hotspot -/

def sampleIdentity : IdentityInfo where
  nsec := "nsec1vl029mgpspedva04g90vltkh6fvh240zqtv9k0t9af8935ke9laqsnlfe5".toList
  npub := "npub10elfcs4fr0l0r8af98jlmgdh9c8tcxjvz9qkw038js35mp4dma8qzvjptg".toList
  address := "fd3a:9f1c:44e2::1".toList

/-- A node as fips configures it, which takes every config. -/
def sampleFips : Fips Unit where
  new :=
    { nsec := none
      controlEnabled := true
      tickIntervalSecs := 1
      heartbeatIntervalSecs := 10
      linkDeadTimeoutSecs := 30
      nostr := ⟨false, .configuredOnly, 64, 0, [], [], []⟩
      lan := ⟨true, []⟩
      udp := .named []
      tcp := .named []
      tunEnabled := false
      dnsEnabled := false
      peers := []
      rest := () }
  udpConfig := ⟨none, none, none⟩
  tcpConfig := ⟨none⟩
  peerConfig := ⟨[], [], false⟩
  udpIsEmpty := fun
    | .single _ => false
    | .named configs => configs.isEmpty
  fromYaml _ := .error "unsupported".toList
  validate _ := .ok ()
  generated := sampleIdentity
  fromSecretStr _ := .ok sampleIdentity

def sampleHost : ShimHost PinnedServers.SampleKey where
  probe _ := .ok 40123
  pins _ := some PinnedServers.samplePins
  npubs := PinnedServers.sampleNpubs
  debug text := '"' :: text ++ ['"']

def sampleHotspot : HotspotConfig := ⟨"192.168.49.23".toList, 24⟩

def sampleShim : ShimConfig where
  nsec := []
  peers := []
  dnsUpstreams := defaultDnsUpstreams
  enableNostr := false
  nostrDiscovery := false
  nostrDiscoveryMaxPeers := defaultNostrDiscoveryMaxPeers
  enableFipsDns := true
  workerThreads := defaultWorkerThreads
  forwardClearnet := true
  batterySaver := true
  enableLanMdns := false
  logLevel := none
  nostrRelays := []
  stunServers := []
  udpBind := none
  tcpBind := none
  inboundFilter := true
  inboundPorts := []
  hotspot := some sampleHotspot
  hostsPath := none
  namesPinsPath := none
  namesServerPeers := defaultNamesServerPeers
  namesMeshRelays := []
  namesAllowUnverifiedOffline := false
  namesWitnesses := []
  namesAttestationThreshold := none
  namesDnssec := none
  fipsYaml := some "  ".toList

/-- One free port, on every address and on that of the hotspot. -/
theorem joined_hotspot_binds : ∃ config port mainBind hotspotBind link,
    sampleShim.toFipsConfig sampleFips sampleHost = .ok config ∧ 0 < port ∧
      config.udp = .named
        [("main", ⟨some mainBind, none, some true⟩),
          ("hotspot", ⟨some hotspotBind, some [link], some true⟩)] ∧
      parseSocketAddr mainBind =
        some ⟨.v4 ⟨[0, 0, 0, 0], AddressText.length_ipv4 0 0 0 0⟩, 0, port⟩ ∧
      parseSocketAddr hotspotBind =
        some ⟨.v4 ⟨[192, 168, 49, 23], AddressText.length_ipv4 192 168 49 23⟩, 0, port⟩ := by
  have probed : ∀ ip port, sampleHost.probe ip = .ok port → 0 < port ∧ port < 65536 := by
    rintro ip port ⟨⟩
    decide
  have structured : notBlank sampleShim.fipsYaml = none := rfl
  have joined : sampleShim.hotspot = some sampleHotspot := rfl
  have derived : deriveIdentity sampleFips sampleShim.nsec = .ok sampleIdentity := rfl
  obtain ⟨config, built⟩ : ∃ config, sampleShim.toFipsConfig sampleFips sampleHost = .ok config :=
    ⟨_, by rfl⟩
  obtain ⟨main, addr, port, mainBind, hotspotBind, link, usable, bound, -, udp, here, there, -⟩ :=
    (hotspot_shares_one_port probed structured joined derived).1 config built
  have wildcard : parseSocketAddr anyUdp =
      some ⟨.v4 ⟨[0, 0, 0, 0], AddressText.length_ipv4 0 0 0 0⟩, 0, 0⟩ := by decide +kernel
  have link? : parseIpAddr sampleHotspot.addr =
      some (.v4 ⟨[192, 168, 49, 23], AddressText.length_ipv4 192 168 49 23⟩) := by decide +kernel
  obtain rfl := Option.some.inj (wildcard.symm.trans usable.udpBind)
  obtain rfl := Option.some.inj (link?.symm.trans usable.hotspot)
  exact ⟨config, port, mainBind, hotspotBind, _, built, bound, udp, here, there⟩

end Fips2Go.ShimConfig
