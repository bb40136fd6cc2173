import Fips2Go.NodeConfig
import Fips2Go.Settings

/-!
# The settings as the shim reads them

What `ConfigStore.buildConfigJson` writes against what `ShimConfig::from_json`
reads of it and `to_fips_config` makes of that.
-/

namespace Fips2Go.ConfigStore

open JsonRecord
open ShimConfig (configuredPeers directServers_spec lanConfig_spec nodup_peerConfigs
  nostrConfig_spec peerConfigs_eq toFipsConfig_structured viaNostr_of_mem_peerConfigs)

/-- The hotspot that the service passes on. -/
def meantHotspot (hotspotAddr : Option Text) (hotspotPrefixLen : Int) : Option HotspotConfig :=
  hotspotAddr.map fun addr => ⟨addr, hotspotPrefixLen.toNat⟩

/-- The peers that the settings mean, the configured one first. -/
def meantPeers (prefs : Preferences) : List PeerEntry :=
  (if primaryNpub prefs ≠ [] ∧ primaryEndpoint prefs ≠ [] then
      [⟨primaryNpub prefs, primaryEndpoint prefs, prefs.peerTransport.getD defPeerTransport⟩]
    else []) ++
  (fallbackPeers prefs).map fun peer => ⟨peer.npub, peer.endpoint, defPeerTransport⟩

/-- The config that the settings mean. -/
def meantConfig (device : Device) (prefs : Preferences) (nsec : Text)
    (hotspotAddr : Option Text) (hotspotPrefixLen : Int) : ShimConfig :=
  let names := prefs.publicNames.getD true
  { nsec
    peers := meantPeers prefs
    dnsUpstreams := ["1.1.1.1:53".toList, "9.9.9.9:53".toList]
    enableNostr := true
    nostrDiscovery := prefs.nostrDiscovery.getD false
    nostrDiscoveryMaxPeers := 3
    enableFipsDns := true
    workerThreads := (prefs.workerThreads.getD defWorkerThreads).toNat
    forwardClearnet := prefs.forwardClearnet.getD true
    batterySaver := prefs.batterySaver.getD true
    enableLanMdns := prefs.lanMdns.getD true
    logLevel := some (prefs.logLevel.getD defLogLevel)
    nostrRelays := ((customRelays device.platform prefs).getD []).take maxRelays
    stunServers := []
    udpBind := none
    tcpBind := none
    inboundFilter := prefs.inboundFilter.getD true
    inboundPorts := (inboundPorts device prefs).map Int.toNat
    hotspot := meantHotspot hotspotAddr hotspotPrefixLen
    hostsPath := some device.hostsPath
    namesPinsPath := if names then some device.namesPinsPath else none
    namesServerPeers := if names ∧ prefs.namesDirectServers.getD true = false then 0 else 2
    namesMeshRelays := if names then meshRelays device.platform prefs else []
    namesAllowUnverifiedOffline := false
    namesWitnesses := if names then allWitnesses device prefs else []
    namesAttestationThreshold :=
      if names ∧ allWitnesses device prefs ≠ [] then some (attestationThreshold prefs).toNat
      else none
    namesDnssec := if names then some (prefs.namesDnssec.getD true) else none
    fipsYaml := none }

section Fields

variable {device : Device} {prefs : Preferences} {nsec : Text} {hotspotAddr : Option Text}
  {hotspotPrefixLen : Int} {target : Machine.Target}

/-- The fields for public names leave the others alone. -/
theorem values_putNames_of_not_mem (config : Record) {name : String}
    (other : name ∉ ["names_pins_path", "names_mesh_relays", "names_witnesses",
      "names_attestation_threshold", "names_dnssec", "names_server_peers"]) :
    values (putNames device prefs config).1 name = values config.1 name := by
  simp only [List.mem_cons, List.not_mem_nil, or_false, not_or] at other
  obtain ⟨pins, relays, witnesses, threshold, dnssec, servers⟩ := other
  unfold putNames
  split
  · simp [pins, relays, witnesses, threshold, dnssec, servers]
  · rfl

theorem texts_of_nonEmpty {fields : Fields} {name : String} {texts : List Text}
    (there : values fields name = (nonEmpty texts).toList) :
    ShimConfig.texts name fields = some texts := by
  by_cases none : texts = []
  · rw [nonEmpty, if_pos none] at there
    rw [none]
    exact withDefault_of_nil there
  · rw [nonEmpty, if_neg none] at there
    exact (withDefault_of_values there).trans (list?_strings texts)

theorem decode_peerJson (npub endpoint transport : Text) :
    ShimConfig.decodePeer (peerJson npub endpoint transport) =
      some ⟨npub, endpoint, transport⟩ := by
  simp [peerJson, record?, ShimConfig.decodePeer, required, withDefault, string?]

theorem decode_peersJson :
    list? ShimConfig.decodePeer (.array (peersJson prefs)) = some (meantPeers prefs) := by
  refine list?_append ?_ (list?_map fun peer _ => decode_peerJson _ _ _)
  split
  · rw [list?, List.mapM_cons, decode_peerJson]
    rfl
  · rfl

theorem mem_inboundPorts {port : Int} (listed : port ∈ inboundPorts device prefs) :
    1 ≤ port ∧ port ≤ 65535 :=
  of_decide_eq_true (List.mem_filter.mp listed).2

theorem decode_inboundPorts :
    list? (nat? 65536) (.array ((inboundPorts device prefs).map .int)) =
      some ((inboundPorts device prefs).map Int.toNat) := by
  refine list?_map fun port listed => ?_
  have bounds := mem_inboundPorts listed
  exact nat?_eq_some_iff.mpr (by omega)

theorem attestationThreshold_bounds (prefs : Preferences) :
    0 ≤ attestationThreshold prefs ∧ attestationThreshold prefs ≤ 8 := by
  unfold attestationThreshold coerceIn maxWitnesses
  grind

theorem nat?_usize {number : Int} (nonneg : 0 ≤ number) (small : number ≤ 8) :
    nat? target.wordEnd (.int number) = some number.toNat := by
  have large := target.memory_large
  have double := target.wordEnd_eq
  exact nat?_eq_some_iff.mpr (by omega)

/-- A hotspot is read where its prefix length is an octet. -/
theorem decode_hotspotJson (addr : Text) :
    ShimConfig.decodeHotspot (hotspotJson addr hotspotPrefixLen) =
      if 0 ≤ hotspotPrefixLen ∧ hotspotPrefixLen < 256 then
        some ⟨addr, hotspotPrefixLen.toNat⟩
      else none := by
  simp only [hotspotJson, record?, ShimConfig.decodeHotspot, required, values_put, values_empty]
  simp only [String.reduceEq, if_true, if_false, string?, nat?]
  split <;> simp_all

theorem decode_relays :
    ShimConfig.texts "nostr_relays" (buildConfig device prefs nsec hotspotAddr hotspotPrefixLen).1 =
      some (((customRelays device.platform prefs).getD []).take maxRelays) := by
  unfold ShimConfig.texts
  cases custom : customRelays device.platform prefs with
  | none =>
      refine withDefault_of_nil ?_
      simp [buildConfig, values_putNames_of_not_mem, custom]
  | some relays =>
      refine (withDefault_of_values ?_).trans (list?_strings (relays.take maxRelays))
      simp [buildConfig, custom]

theorem decode_hotspot :
    withDefault none (option? ShimConfig.decodeHotspot) "hotspot"
        (buildConfig device prefs nsec hotspotAddr hotspotPrefixLen).1 =
      if hotspotAddr = none ∨ (0 ≤ hotspotPrefixLen ∧ hotspotPrefixLen < 256) then
        some (meantHotspot hotspotAddr hotspotPrefixLen)
      else none := by
  cases hotspotAddr with
  | none =>
      rw [if_pos (Or.inl rfl)]
      refine withDefault_of_nil ?_
      simp [buildConfig, values_putNames_of_not_mem]
  | some addr =>
      have written : values (buildConfig device prefs nsec (some addr) hotspotPrefixLen).1
          "hotspot" = [hotspotJson addr hotspotPrefixLen] := by
        simp [buildConfig]
      have present : option? ShimConfig.decodeHotspot
          (hotspotJson addr hotspotPrefixLen) =
            (ShimConfig.decodeHotspot (hotspotJson addr hotspotPrefixLen)).map some := rfl
      rw [withDefault_of_values written, present, decode_hotspotJson]
      by_cases octet : 0 ≤ hotspotPrefixLen ∧ hotspotPrefixLen < 256
      · rw [if_pos octet, if_pos (Or.inr octet)]
        rfl
      · rw [if_neg octet, if_neg (by simpa using octet)]
        rfl

/-- The fields for public names, as they are read. -/
theorem decode_names (device : Device) (prefs : Preferences) (nsec : Text)
    (hotspotAddr : Option Text) (hotspotPrefixLen : Int) (target : Machine.Target) :
    let fields := (buildConfig device prefs nsec hotspotAddr hotspotPrefixLen).1
    let meant := meantConfig device prefs nsec hotspotAddr hotspotPrefixLen
    ShimConfig.text? "names_pins_path" fields = some meant.namesPinsPath ∧
      withDefault ShimConfig.defaultNamesServerPeers (nat? target.wordEnd) "names_server_peers"
        fields = some meant.namesServerPeers ∧
      ShimConfig.texts "names_mesh_relays" fields = some meant.namesMeshRelays ∧
      ShimConfig.texts "names_witnesses" fields = some meant.namesWitnesses ∧
      withDefault none (option? (nat? target.wordEnd)) "names_attestation_threshold" fields =
        some meant.namesAttestationThreshold ∧
      withDefault none (option? bool?) "names_dnssec" fields = some meant.namesDnssec := by
  dsimp only
  cases names : prefs.publicNames.getD true with
  | false =>
      simp [ShimConfig.text?, ShimConfig.texts, withDefault, buildConfig, putNames, names,
        meantConfig, ShimConfig.defaultNamesServerPeers]
  | true =>
      refine ⟨?_, ?_, texts_of_nonEmpty ?_, texts_of_nonEmpty ?_, ?_, ?_⟩
      · simp [ShimConfig.text?, withDefault, buildConfig, putNames, names, meantConfig, option?,
          string?]
      · have count : (0 : Int) ≤ (if prefs.namesDirectServers.getD true then
            namesDirectServerCount else 0) ∧
            (if prefs.namesDirectServers.getD true then namesDirectServerCount else 0) ≤ 8 := by
          unfold namesDirectServerCount
          split <;> decide
        refine (withDefault_of_values ?_).trans ((nat?_usize count.1 count.2).trans ?_)
        · simp [buildConfig, putNames, names]
        · cases direct : prefs.namesDirectServers.getD true <;>
            simp [meantConfig, names, direct, namesDirectServerCount]
      · by_cases empty : meshRelays device.platform prefs = []
        · simp [buildConfig, putNames, names, meantConfig, nonEmpty, empty]
        · simp [buildConfig, putNames, names, meantConfig, nonEmpty, empty]
      · by_cases empty : allWitnesses device prefs = []
        · simp [buildConfig, putNames, names, meantConfig, nonEmpty, empty]
        · simp [buildConfig, putNames, names, meantConfig, nonEmpty, empty]
      · by_cases empty : allWitnesses device prefs = []
        · simp [withDefault, buildConfig, putNames, names, meantConfig, empty]
        · have bounds := attestationThreshold_bounds prefs
          have written : values (buildConfig device prefs nsec hotspotAddr hotspotPrefixLen).1
              "names_attestation_threshold" = [.int (attestationThreshold prefs)] := by
            simp [buildConfig, putNames, names, empty]
          rw [withDefault_of_values written, option?, nat?_usize bounds.1 bounds.2]
          · simp [meantConfig, names, empty]
          · rintro ⟨⟩
      · simp [withDefault, buildConfig, putNames, names, meantConfig, option?, bool?]

theorem decode_workers :
    withDefault ShimConfig.defaultWorkerThreads (nat? target.wordEnd) "worker_threads"
        (buildConfig device prefs nsec hotspotAddr hotspotPrefixLen).1 =
      if 0 ≤ prefs.workerThreads.getD defWorkerThreads ∧
          prefs.workerThreads.getD defWorkerThreads < target.wordEnd then
        some (prefs.workerThreads.getD defWorkerThreads).toNat
      else none := by
  have written : values (buildConfig device prefs nsec hotspotAddr hotspotPrefixLen).1
      "worker_threads" = [.int (prefs.workerThreads.getD defWorkerThreads)] := by
    simp [buildConfig, values_putNames_of_not_mem]
  rw [withDefault_of_values written]
  rfl

/-- The numbers that the shim has room for. -/
def Sendable (target : Machine.Target) (prefs : Preferences) (hotspotAddr : Option Text)
    (hotspotPrefixLen : Int) : Prop :=
  (0 ≤ prefs.workerThreads.getD defWorkerThreads ∧
      prefs.workerThreads.getD defWorkerThreads < target.wordEnd) ∧
    (hotspotAddr = none ∨ (0 ≤ hotspotPrefixLen ∧ hotspotPrefixLen < 256))

instance : Decidable (Sendable target prefs hotspotAddr hotspotPrefixLen) :=
  inferInstanceAs (Decidable (_ ∧ _))

theorem decode_buildConfig :
    ShimConfig.decode target (buildConfig device prefs nsec hotspotAddr hotspotPrefixLen).1 =
      if Sendable target prefs hotspotAddr hotspotPrefixLen then
        some (meantConfig device prefs nsec hotspotAddr hotspotPrefixLen)
      else none := by
  obtain ⟨pins, servers, meshRelays, witnesses, threshold, dnssec⟩ := decode_names device prefs
    nsec hotspotAddr hotspotPrefixLen target
  have peers : withDefault [] (list? ShimConfig.decodePeer) "peers"
      (buildConfig device prefs nsec hotspotAddr hotspotPrefixLen).1 = some (meantPeers prefs) := by
    refine (withDefault_of_values ?_).trans decode_peersJson
    simp [buildConfig, values_putNames_of_not_mem]
  have ports : withDefault [] (list? (nat? 65536)) "inbound_ports"
      (buildConfig device prefs nsec hotspotAddr hotspotPrefixLen).1 =
        some ((inboundPorts device prefs).map Int.toNat) := by
    refine (withDefault_of_values ?_).trans decode_inboundPorts
    simp [buildConfig]
  have maxPeers : withDefault ShimConfig.defaultNostrDiscoveryMaxPeers (nat? target.wordEnd)
      "nostr_discovery_max_peers"
      (buildConfig device prefs nsec hotspotAddr hotspotPrefixLen).1 = some 3 := by
    have small : nat? target.wordEnd (.int 3) = some 3 := nat?_usize (by decide) (by decide)
    refine (withDefault_of_values ?_).trans small
    simp [buildConfig, values_putNames_of_not_mem, defNostrDiscoveryMaxPeers]
  have decoded : ShimConfig.decode target
      (buildConfig device prefs nsec hotspotAddr hotspotPrefixLen).1 =
      (if 0 ≤ prefs.workerThreads.getD defWorkerThreads ∧
          prefs.workerThreads.getD defWorkerThreads < target.wordEnd then
        some (prefs.workerThreads.getD defWorkerThreads).toNat
      else none).bind fun workers =>
        (if hotspotAddr = none ∨ (0 ≤ hotspotPrefixLen ∧ hotspotPrefixLen < 256) then
          some (meantHotspot hotspotAddr hotspotPrefixLen)
        else none).bind fun hotspot =>
          some { meantConfig device prefs nsec hotspotAddr hotspotPrefixLen with
            workerThreads := workers
            hotspot } := by
    simp only [ShimConfig.decode, peers, maxPeers, decode_workers, decode_relays, ports,
      decode_hotspot, pins, servers, meshRelays, witnesses, threshold, dnssec]
    simp [ShimConfig.flag, ShimConfig.text?, ShimConfig.texts, required, withDefault, buildConfig,
      values_putNames_of_not_mem, option?, bool?, string?, meantConfig,
      ShimConfig.defaultDnsUpstreams]
  rw [decoded]
  by_cases within : 0 ≤ prefs.workerThreads.getD defWorkerThreads ∧
      prefs.workerThreads.getD defWorkerThreads < target.wordEnd
  · by_cases octet : hotspotAddr = none ∨ (0 ≤ hotspotPrefixLen ∧ hotspotPrefixLen < 256)
    · have sendable : Sendable target prefs hotspotAddr hotspotPrefixLen := ⟨within, octet⟩
      rw [if_pos within, if_pos octet, if_pos sendable]
      rfl
    · have refused : ¬Sendable target prefs hotspotAddr hotspotPrefixLen :=
        fun sendable => octet sendable.2
      rw [if_pos within, if_neg octet, if_neg refused]
      rfl
  · have refused : ¬Sendable target prefs hotspotAddr hotspotPrefixLen :=
      fun sendable => within sendable.1
    rw [if_neg within, if_neg refused]
    rfl

end Fields

section Contract

variable {serde : ShimConfig.Serde} {text : Text} {target : Machine.Target}
  {device : Device} {prefs : Preferences} {nsec : Text} {hotspotAddr : Option Text}
  {hotspotPrefixLen : Int}

theorem fromJson_of_sendable (written : serde.read text =
      .ok (buildConfigJson device prefs nsec hotspotAddr hotspotPrefixLen))
    (sendable : Sendable target prefs hotspotAddr hotspotPrefixLen) :
    ShimConfig.fromJson serde target text =
      .ok (meantConfig device prefs nsec hotspotAddr hotspotPrefixLen) := by
  have read : record? ShimConfig.fieldNames (ShimConfig.decode target)
      (buildConfigJson device prefs nsec hotspotAddr hotspotPrefixLen) =
        some (meantConfig device prefs nsec hotspotAddr hotspotPrefixLen) :=
    decode_buildConfig.trans (if_pos sendable)
  simp only [ShimConfig.fromJson, written, read]

theorem fromJson_of_not_sendable (written : serde.read text =
      .ok (buildConfigJson device prefs nsec hotspotAddr hotspotPrefixLen))
    (refused : ¬Sendable target prefs hotspotAddr hotspotPrefixLen) :
    ShimConfig.fromJson serde target text =
      .error ("config parse: ".toList ++ serde.dataError
        (buildConfigJson device prefs nsec hotspotAddr hotspotPrefixLen)) := by
  have read : record? ShimConfig.fieldNames (ShimConfig.decode target)
      (buildConfigJson device prefs nsec hotspotAddr hotspotPrefixLen) = none :=
    decode_buildConfig.trans (if_neg refused)
  simp only [ShimConfig.fromJson, written, read]

theorem eq_meantConfig (written : serde.read text =
      .ok (buildConfigJson device prefs nsec hotspotAddr hotspotPrefixLen))
    {shim : ShimConfig} (accepted : ShimConfig.fromJson serde target text = .ok shim) :
    shim = meantConfig device prefs nsec hotspotAddr hotspotPrefixLen := by
  by_cases sendable : Sendable target prefs hotspotAddr hotspotPrefixLen
  · rw [fromJson_of_sendable written sendable] at accepted
    exact (Except.ok.inj accepted).symm
  · rw [fromJson_of_not_sendable written sendable] at accepted
    cases accepted

end Contract

/-- Whatever the settings are, the shim takes the config that is built of them
exactly if it has room for the number of worker threads and for the prefix
length of the hotspot, and then reads just what they mean. -/
theorem shim_reads_settings (serde : ShimConfig.Serde) (target : Machine.Target)
    (device : Device) (prefs : Preferences) (nsec : Text) (hotspotAddr : Option Text)
    (hotspotPrefixLen : Int) {text : Text} (written : serde.read text =
      .ok (buildConfigJson device prefs nsec hotspotAddr hotspotPrefixLen)) :
    (∀ config, ShimConfig.fromJson serde target text = .ok config ↔
        Sendable target prefs hotspotAddr hotspotPrefixLen ∧
          config = meantConfig device prefs nsec hotspotAddr hotspotPrefixLen) ∧
      ∀ error, ShimConfig.fromJson serde target text = .error error →
        "config parse: ".toList <+: error := by
  by_cases sendable : Sendable target prefs hotspotAddr hotspotPrefixLen
  · rw [fromJson_of_sendable written sendable]
    refine ⟨fun config => ⟨?_, ?_⟩, ?_⟩
    · rintro ⟨⟩
      exact ⟨sendable, rfl⟩
    · rintro ⟨-, rfl⟩
      rfl
    · rintro error ⟨⟩
  · rw [fromJson_of_not_sendable written sendable]
    refine ⟨fun config => ⟨?_, ?_⟩, ?_⟩
    · rintro ⟨⟩
    · rintro ⟨accepted, -⟩
      exact absurd accepted sendable
    · rintro error ⟨⟩
      exact List.prefix_append _ _

/-! ### The links of the node -/

section Links

variable {device : Device} {prefs : Preferences}

theorem nodup_fallbackPeers : ((fallbackPeers prefs).map BootstrapPeer.npub).Nodup := by
  have known : ((fallbackBootstraps.filterMap fun name =>
      bootstrapPeers.find? fun peer => peer.name = name).map BootstrapPeer.npub).Nodup := by
    decide +kernel
  unfold fallbackPeers
  split
  · exact known.sublist (((List.take_sublist _ _).trans List.filter_sublist).map _)
  · exact List.nodup_nil

theorem length_fallbackPeers (prefs : Preferences) : (fallbackPeers prefs).length ≤ 2 := by
  unfold fallbackPeers
  split
  · exact List.length_take_le _ _
  · exact Nat.zero_le 2

theorem npub_of_mem_fallbackPeers {peer : BootstrapPeer} (listed : peer ∈ fallbackPeers prefs) :
    peer.npub ≠ primaryNpub prefs := by
  unfold fallbackPeers at listed
  split at listed
  · exact of_decide_eq_true (List.mem_filter.mp (List.mem_of_mem_take listed)).2
  · cases listed

/-- The configured peers are at most three, each another one. -/
theorem meantPeers_spec (prefs : Preferences) :
    (meantPeers prefs).length ≤ 3 ∧ ((meantPeers prefs).map PeerEntry.npub).Nodup := by
  have fallbacks := length_fallbackPeers prefs
  have npubs : ((fallbackPeers prefs).map fun peer =>
      (⟨peer.npub, peer.endpoint, defPeerTransport⟩ : PeerEntry)).map PeerEntry.npub =
        (fallbackPeers prefs).map BootstrapPeer.npub := by
    rw [List.map_map]
    rfl
  unfold meantPeers
  rw [List.map_append, npubs, List.length_append, List.length_map]
  split
  · refine ⟨Nat.add_comm 1 _ ▸ Nat.succ_le_succ fallbacks, ?_⟩
    refine List.nodup_cons.mpr ⟨fun listed => ?_, nodup_fallbackPeers⟩
    obtain ⟨peer, listed, same⟩ := List.mem_map.mp listed
    exact npub_of_mem_fallbackPeers listed same
  · exact ⟨(Nat.zero_add _).trans_le (fallbacks.trans (by decide)), nodup_fallbackPeers⟩

end Links

/-- What the shim starts from whatever settings: a node with at most five
configured links, no two with the same text for their node, each of which is found
again by its Nostr advert, and with at most three more that discovery opens, if that is
chosen; and LAN discovery where it is chosen or needed, which leaves out both
addresses of the tunnel. -/
theorem settings_bound_the_links {Npub Rest : Type} [DecidableEq Npub] {fips : Fips Rest}
    {host : ShimHost Npub} (alone : fips.new.peers = [])
    (readsBack : ∀ npub, host.npubs.parseAny (host.npubs.toString npub) = some npub)
    {serde : ShimConfig.Serde} {target : Machine.Target}
    {device : Device} {prefs : Preferences} {nsec : Text} {hotspotAddr : Option Text}
    {hotspotPrefixLen : Int} {text : Text} (written : serde.read text =
      .ok (buildConfigJson device prefs nsec hotspotAddr hotspotPrefixLen))
    {shim : ShimConfig} {config : FipsConfig Rest}
    (accepted : ShimConfig.fromJson serde target text = .ok shim)
    (built : shim.toFipsConfig fips host = .ok config) :
    config.peers.length ≤ 5 ∧ (config.peers.map PeerConfig.npub).Nodup ∧
      (∀ peer ∈ config.peers, peer.viaNostr = true) ∧
      config.nostr.enabled = true ∧
      (if prefs.nostrDiscovery.getD false then
          config.nostr.policy = .openToAll ∧ config.nostr.openDiscoveryMaxPending = 3 ∧
            config.nostr.openDiscoveryMaxPeers = 3
        else config.nostr.policy = fips.new.nostr.policy ∧
          config.nostr.openDiscoveryMaxPeers = fips.new.nostr.openDiscoveryMaxPeers) ∧
      (config.lan.enabled = true ↔
        prefs.lanMdns.getD true = true ∨ hotspotAddr.isSome = true) ∧
      (config.lan.enabled = true → ∃ identity own, deriveIdentity fips nsec = .ok identity ∧
        AddressText.parseIpAddr identity.address = some own ∧
        config.lan.excludeAddrs = [own, tunIpv4]) := by
  obtain rfl := eq_meantConfig written accepted
  obtain ⟨identity, derived, -, -, discovery, nostr, peers, -⟩ := toFipsConfig_structured rfl built
  obtain ⟨few, distinct⟩ := meantPeers_spec prefs
  obtain ⟨short, -⟩ := directServers_spec fips
    (meantConfig device prefs nsec hotspotAddr hotspotPrefixLen) readsBack identity.npub
  obtain ⟨lan, excluded⟩ := lanConfig_spec discovery
  obtain ⟨enabled, bounds⟩ := nostrConfig_spec
    (meantConfig device prefs nsec hotspotAddr hotspotPrefixLen) fips.new.nostr
  have servers : (meantConfig device prefs nsec hotspotAddr hotspotPrefixLen).namesServerPeers ≤
      2 := by
    unfold meantConfig
    dsimp only
    split <;> decide
  rw [alone] at peers
  have hotspot : (meantConfig device prefs nsec hotspotAddr hotspotPrefixLen).hotspot.isSome =
      hotspotAddr.isSome := Option.isSome_map
  refine ⟨?_, ?_, ?_, ?_, ?_, ?_, ?_⟩
  · rw [peers, peerConfigs_eq, List.length_append, List.length_map, configuredPeers,
      List.length_map]
    exact Nat.add_le_add few (short.trans servers)
  · rw [peers]
    exact nodup_peerConfigs readsBack distinct identity.npub
  · intro peer listed
    rw [peers] at listed
    exact viaNostr_of_mem_peerConfigs readsBack listed
  · rw [nostr]
    exact enabled
  · rw [nostr]
    have chosen : (meantConfig device prefs nsec hotspotAddr hotspotPrefixLen).nostrDiscovery =
        prefs.nostrDiscovery.getD false := rfl
    cases discovers : prefs.nostrDiscovery.getD false with
    | true =>
        rw [chosen, discovers] at bounds
        exact ⟨congrArg Prod.fst bounds, congrArg (·.2.1) bounds, congrArg (·.2.2) bounds⟩
    | false =>
        rw [chosen, discovers] at bounds
        exact ⟨congrArg Prod.fst bounds, congrArg (·.2.2) bounds⟩
  · rw [lan, hotspot]
    rfl
  · intro on
    obtain ⟨own, parsed, left⟩ := excluded on
    exact ⟨identity, own, derived, parsed, left⟩

/-! ### A first connect on a hotspot -/

/-- Only ASCII is lowered, and no text is a URI; nothing is typed here. -/
def samplePlatform : Platform where
  uri _ := none
  lowercase := Utf8Text.toAsciiLowercase

def sampleDevice : Device where
  platform := samplePlatform
  digit := Utf8Text.toDigit 10
  hostsFile := none
  hostsPath := "/data/user/0/org.fips.android/files/hosts".toList
  namesPinsPath := "/data/user/0/org.fips.android/files/names-pins.json".toList

/-- Nothing but two numbers was ever set. -/
def samplePreferences : Preferences where
  peerNpub := none
  peerEndpoint := none
  peerTransport := none
  workerThreads := some 2
  forwardClearnet := none
  batterySaver := none
  lanMdns := none
  publicNames := none
  namesMeshRelays := none
  namesWitnesses := none
  namesAttestationK := none
  namesWitnessesFromHosts := none
  namesDirectServers := none
  namesDnssec := none
  hotspot := none
  inboundFilter := none
  inboundPorts := some "22, 8080 99999 x".toList
  logLevel := none
  theme := none
  bootstrapFallbacks := some false
  nostrDiscovery := some true
  relayList := none
  hostsSync := none
  hostsSyncFrom := none
  autoUpdate := none
  others := []

def sampleJson : Json :=
  buildConfigJson sampleDevice (applyDefaults samplePreferences) "nsec1sample".toList
    (some "192.168.49.23".toList) 24

/-- The object as it is written. -/
def sampleText : Text :=
  ("\x7b\"nsec\":\"nsec1sample\",\"peers\":[\x7b\"npub\":" ++
    "\"npub1260n42s06vzc7796w0fh3ny7zcpw6tlk4gq3940gmfrzl5c9pv2s3657q8\"," ++
    "\"endpoint\":\"test-de01.fips.network:2121\",\"transport\":\"udp\"\x7d]," ++
    "\"enable_nostr\":true,\"nostr_discovery\":true,\"nostr_discovery_max_peers\":3," ++
    "\"enable_fips_dns\":true,\"worker_threads\":2,\"forward_clearnet\":true," ++
    "\"battery_saver\":true,\"enable_lan_mdns\":true,\"inbound_filter\":true," ++
    "\"log_level\":\"info\"," ++
    "\"hosts_path\":\"\\/data\\/user\\/0\\/org.fips.android\\/files\\/hosts\"," ++
    "\"names_pins_path\":\"\\/data\\/user\\/0\\/org.fips.android\\/files\\/names-pins.json\"," ++
    "\"names_dnssec\":true,\"names_server_peers\":2,\"inbound_ports\":[22,8080]," ++
    "\"hotspot\":\x7b\"addr\":\"192.168.49.23\",\"prefix_len\":24\x7d\x7d").toList

/-- A reader of that text. -/
def sampleSerde : ShimConfig.Serde where
  read text := if text = sampleText then .ok sampleJson else .error "expected value".toList
  dataError _ := "invalid value".toList

theorem sample_read : sampleSerde.read sampleText = .ok sampleJson := by
  simp only [sampleSerde, if_true]

/-- What was set arrives. -/
theorem set_numbers_arrive : ∃ config,
    ShimConfig.fromJson sampleSerde ⟨.bits64, false⟩ sampleText = .ok config ∧
      config.workerThreads = 2 ∧ config.inboundPorts = [22, 8080] ∧
      config.hotspot = some ⟨"192.168.49.23".toList, 24⟩ := by
  refine ⟨_, ((shim_reads_settings sampleSerde ⟨.bits64, false⟩ sampleDevice
    (applyDefaults samplePreferences) _ _ _ sample_read).1 _).mpr ⟨by decide, rfl⟩, rfl, ?_, rfl⟩
  decide +kernel

/-- A peer that is configured and two servers, and discovery for three more. -/
theorem first_connect_is_bounded : ∃ shim config,
    ShimConfig.fromJson sampleSerde ⟨.bits64, false⟩ sampleText = .ok shim ∧
      shim.toFipsConfig ShimConfig.sampleFips ShimConfig.sampleHost = .ok config ∧
      config.peers.length ≤ 5 ∧ (config.peers.map PeerConfig.npub).Nodup ∧
      config.nostr.openDiscoveryMaxPeers = 3 ∧ config.lan.enabled = true := by
  have readsBack : ∀ key, ShimConfig.sampleHost.npubs.parseAny
      (ShimConfig.sampleHost.npubs.toString key) = some key := by
    intro key
    cases key <;> decide +kernel
  have sendable : Sendable ⟨.bits64, false⟩ (applyDefaults samplePreferences)
      (some "192.168.49.23".toList) 24 := by decide
  have accepted : ShimConfig.fromJson sampleSerde ⟨.bits64, false⟩ sampleText =
      .ok (meantConfig sampleDevice (applyDefaults samplePreferences) "nsec1sample".toList
        (some "192.168.49.23".toList) 24) := fromJson_of_sendable sample_read sendable
  obtain ⟨config, built⟩ : ∃ config, (meantConfig sampleDevice (applyDefaults samplePreferences)
      "nsec1sample".toList (some "192.168.49.23".toList) 24).toFipsConfig ShimConfig.sampleFips
        ShimConfig.sampleHost = .ok config := ⟨_, by rfl⟩
  obtain ⟨few, distinct, -, -, discovery, lan, -⟩ :=
    settings_bound_the_links rfl readsBack sample_read accepted built
  exact ⟨_, config, accepted, built, few, distinct, discovery.2.2, lan.mpr (Or.inl rfl)⟩

end Fips2Go.ConfigStore
