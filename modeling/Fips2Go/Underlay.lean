import Fips2Go.GuardedRuns
import Mathlib.Data.List.MinMax

/-!
# The networks under the tunnel

What `FipsVpnService` makes of the networks Android reports while a session is
up: the choice of the underlying network, the Internet flag of the public-names
resolver, the `::/0` route, the FIPS Hotspot, and the rebind passes these ask
for.  The callbacks run on the main looper one after the other; the rebind
worker reads the same fields meanwhile, so each access to a field that both
use is one step.  What Android answers in a step is the input of that step.
Descriptors, starts and stops are the subject of `VpnService`.  Which hotspot
callbacks are registered is left open here: each of them may come at any time.
-/

namespace Fips2Go.Underlay

open GuardedRuns

abbrev Network := Nat

inductive InetAddress where
  | inet4 (first second third fourth : UInt8)
  | inet6 (octets : Vector UInt8 16)
  deriving DecidableEq

structure LinkAddress where
  address : InetAddress
  prefixLength : Nat

/-- A route by its destination. -/
structure Route where
  destination : InetAddress
  prefixLength : Nat

structure LinkProperties where
  routes : List Route
  linkAddresses : List LinkAddress

/-- The transports of a network, and `NET_CAPABILITY_VALIDATED`. -/
structure NetworkCapabilities where
  wifi : Bool
  ethernet : Bool
  cellular : Bool
  validated : Bool
  deriving DecidableEq, Repr

/-- What the `ConnectivityManager` answers at one moment. -/
structure Connectivity where
  capabilities : Network → Option NetworkCapabilities
  linkProperties : Network → Option LinkProperties
  activeNetwork : Option Network

def InetAddress.isInet6 : InetAddress → Bool
  | .inet4 .. => false
  | .inet6 _ => true

def isLinkLocalAddress (octets : Vector UInt8 16) : Bool :=
  octets[0] == 0xfe && octets[1] &&& 0xc0 == 0x80

def isLoopbackAddress (octets : Vector UInt8 16) : Bool :=
  octets.toList == List.replicate 15 0 ++ [1]

/-- An IPv6 address of the Internet, as `hasIpv6Internet` tests for one. -/
def InetAddress.isGlobal6 : InetAddress → Bool
  | .inet4 .. => false
  | .inet6 octets =>
      !isLinkLocalAddress octets && !isLoopbackAddress octets && octets[0] &&& 0xfe != 0xfc

def hasIpv6Internet (connectivity : Connectivity) (network : Option Network) : Bool :=
  match network.bind connectivity.linkProperties with
  | none => false
  | some properties =>
      properties.routes.any (fun route =>
        route.prefixLength == 0 && route.destination.isInet6) &&
      properties.linkAddresses.any fun link => link.address.isGlobal6

/-- The first IPv4 address of a link: its text and its prefix length. -/
def LinkProperties.inet4 (properties : LinkProperties) : Option (String × Nat) :=
  properties.linkAddresses.findSome? fun link =>
    match link.address with
    | .inet4 first second third fourth =>
        some (".".intercalate ([first, second, third, fourth].map fun octet =>
          toString octet.toNat), link.prefixLength)
    | .inet6 _ => none

abbrev Candidate := Network × Option NetworkCapabilities

def Candidate.validated (candidate : Candidate) : Bool :=
  candidate.2.any (·.validated)

def internetValidated (connectivity : Connectivity) (candidates : List Candidate) : Bool :=
  if candidates = [] then
    (connectivity.activeNetwork.bind connectivity.capabilities).any (·.validated)
  else candidates.any Candidate.validated

/-- How much `preferredUnderlying` likes a candidate. -/
def Candidate.score (candidate : Candidate) : Nat :=
  match candidate.2 with
  | none => 0
  | some caps =>
      let transport :=
        if caps.wifi then 3 else if caps.ethernet then 2 else if caps.cellular then 1 else 0
      if caps.validated then transport + 4 else transport

def preferredUnderlying (candidates : List Candidate) : Option Network :=
  (candidates.argmax Candidate.score).map Prod.fst

def hotspotSsid : String := "!FIPS"

/-- `removeSurrounding` of a quotation mark. -/
def removeQuotes (text : String) : String :=
  match text.toList with
  | '"' :: rest =>
      if rest.getLast? = some '"' then String.ofList rest.dropLast else text
  | _ => text

/-- A config JSON as far as networks decide it: the hotspot's address and
prefix length in it. -/
structure Config where
  hotspot : Option (String × Nat)
  deriving DecidableEq, Repr

def buildConfigJson (hotspotAddr : Option String) (hotspotPrefixLen : Nat) : Config where
  hotspot := hotspotAddr.map fun addr => (addr, hotspotPrefixLen)

/-- Where the main looper stands: before the step the name tells. -/
inductive MainPc where
  | idle
  | updateUnderlying
  | store (network : Network)
  | lock (previous : Option Network) (network : Network)
  | evaluate (previous : Option Network) (network : Network)
  | joinNetwork (network : Network) (addr : String) (prefixLen : Nat)
  | joinAddr (addr : String) (prefixLen : Nat)
  | joinPrefix (addr : String) (prefixLen : Nat)
  | joinStatus (addr : String)
  | leaveNetwork
  | leaveAddr
  | leavePrefix
  | leaveStatus
  | hotspotLock
  | request
  | claim
  deriving DecidableEq, Repr

/-- The worker of `rebindNode`, which holds `rebinding` while it is not `none`;
from `active` on it is in `rebindOnce`. -/
inductive WorkerPc where
  | none
  | poll
  | settle
  | active
  | buildAddr
  | buildPrefix (addr : Option String)
  | decide (config : Option Config)
  | establish (config : Option Config) (wantIpv6 : Bool)
  | recheck (config : Option Config) (wantIpv6 : Bool)
  | adopt (config : Option Config) (wantIpv6 : Bool)
  | readFd (config : Option Config)
  | notify (config : Option Config)
  | release
  deriving DecidableEq, Repr

/-- The callbacks of the network monitoring, of the Wi-Fi watcher and of the
hotspot's specifier request. -/
inductive Callback where
  | onAvailable (network : Network)
  | onLost (network : Network)
  | onLinkPropertiesChanged (network : Network)
  | onCapabilitiesChanged (network : Network)
  | watcherCapabilities (network : Network) (ssid : Option String)
  | watcherLinkProperties (network : Network) (properties : LinkProperties)
  | watcherLost (network : Network)
  | specifierAvailable (network : Network)
  | specifierLinkProperties (network : Network) (properties : LinkProperties)
  | specifierLost
  | specifierUnavailable

/-- The fields of the service, the threads, and after them what is only
recorded: the flags told to the resolver, the networks told to the tunnel, the
hints and the flips of the route that a change of network gave, the last
candidates and whether they were validated, the last network asked for IPv6
with the answer, and the hotspot in the config handed over last. -/
structure Session where
  tunnelActive : Bool
  tunFd : Bool
  availableNetworks : List Network
  namesOnline : Option Bool
  currentUnderlying : Option Network
  tunnelHasIpv6Clearnet : Bool
  multicastLock : Option Bool
  hotspotNetwork : Option Network
  hotspotAddr : Option String
  hotspotPrefixLen : Nat
  hotspotStatus : Option String
  rebindRequested : Bool
  main : MainPc
  worker : WorkerPc
  requesting : Nat
  rereading : Nat
  reclaiming : Nat
  pushes : List Bool
  told : List Network
  hints : Nat
  flips : Nat
  candidates : List Candidate
  validated : Bool
  looked : Option Network × Bool
  handed : Option (String × Nat)

/-- What a step may learn: Android's answers, whether LAN discovery is switched
on, whether the config could be built and a tunnel established, and whether
the selection of apps has changed. -/
structure Input where
  connectivity : Connectivity
  lanMdns : Bool
  built : Bool
  established : Bool
  appsChanged : Bool

inductive Move where
  | callback (callback : Callback) (connectivity : Connectivity)
  | main (input : Input)
  | worker (input : Input)
  | die
  | request
  | requestClaim
  | reread
  | reclaim
  | shutdown

section Callbacks

def candidateNetworks (connectivity : Connectivity) (session : Session) : List Candidate :=
  (session.availableNetworks.filter fun network => session.hotspotNetwork ≠ some network).map
    fun network => (network, connectivity.capabilities network)

/-- Tell the resolver when the Internet flag changed. -/
def Session.pushNamesOnline (session : Session) (now : Bool) : Session :=
  if session.namesOnline ≠ some now then
    { session with namesOnline := some now, pushes := session.pushes ++ [now] }
  else session

def updateMulticastLock (input : Input) (network : Option Network) (session : Session) :
    Session :=
  let onWifi := (network.bind input.connectivity.capabilities).any (·.wifi)
  let want := onWifi && input.lanMdns || session.hotspotNetwork.isSome
  { session with multicastLock := session.multicastLock.map fun _ => want }

def updateHotspot (network : Network) (properties : Option LinkProperties)
    (session : Session) : Session :=
  match properties.bind LinkProperties.inet4 with
  | none => session
  | some (addr, prefixLen) =>
      if session.hotspotNetwork = some network ∧ session.hotspotAddr = some addr ∧
          session.hotspotPrefixLen = prefixLen then session
      else { session with main := .joinNetwork network addr prefixLen }

def clearHotspot (session : Session) : Session :=
  if session.hotspotNetwork = none then session else { session with main := .leaveNetwork }

/-- A callback begins; the steps of the looper finish it. -/
def callbackStep (session : Session) (connectivity : Connectivity) : Callback → Session
  | .onAvailable network =>
      { session with
        -- A set in the order of insertion: a known network stays where it is.
        availableNetworks :=
          if network ∈ session.availableNetworks then session.availableNetworks
          else session.availableNetworks ++ [network]
        main := .updateUnderlying }
  | .onLost network =>
      { session with
        availableNetworks := session.availableNetworks.filter (· ≠ network)
        main := .updateUnderlying }
  | .onLinkPropertiesChanged _ => { session with main := .updateUnderlying }
  | .onCapabilitiesChanged _ => { session with main := .updateUnderlying }
  | .watcherCapabilities network ssid =>
      if ssid.map removeQuotes = some hotspotSsid then
        updateHotspot network (connectivity.linkProperties network) session
      else session
  | .watcherLinkProperties network properties =>
      if session.hotspotNetwork = some network then
        updateHotspot network (some properties) session
      else session
  | .watcherLost network =>
      if session.hotspotNetwork = some network then clearHotspot session else session
  | .specifierAvailable network =>
      updateHotspot network (connectivity.linkProperties network) session
  | .specifierLinkProperties network properties =>
      updateHotspot network (some properties) session
  | .specifierLost => clearHotspot session
  | .specifierUnavailable => clearHotspot session

end Callbacks

/-- `rebinding.compareAndSet(false, true)`, and the worker starts. -/
def Session.claimWorker (session : Session) : Session :=
  { session with worker := if session.worker = .none then .poll else session.worker }

/-- A step of the main looper inside a callback. -/
def mainStep (session : Session) (input : Input) : Option Session :=
  match session.main with
  | .idle => none
  | .updateUnderlying =>
      let candidates := candidateNetworks input.connectivity session
      let validated := internetValidated input.connectivity candidates
      let session := { session with candidates, validated }.pushNamesOnline validated
      match preferredUnderlying candidates with
      | none => some { session with main := .idle }
      | some network => some { session with main := .store network }
  | .store network =>
      some { session with
        told :=
          if session.currentUnderlying = some network then session.told
          else session.told ++ [network]
        currentUnderlying := some network
        main := .lock session.currentUnderlying network }
  | .lock previous network =>
      some { updateMulticastLock input (some network) session with
        main := .evaluate previous network }
  | .evaluate previous network =>
      let wantIpv6 := hasIpv6Internet input.connectivity (some network)
      let session := { session with looked := (some network, wantIpv6) }
      match previous with
      | none =>
          if wantIpv6 ≠ session.tunnelHasIpv6Clearnet then
            some { session with main := .request }
          else some { session with main := .idle }
      | some before =>
          if wantIpv6 ≠ session.tunnelHasIpv6Clearnet then
            some { session with
              flips := if before ≠ network then session.flips + 1 else session.flips
              main := .request }
          else if before ≠ network then
            some { session with hints := session.hints + 1, main := .idle }
          else some { session with main := .idle }
  | .joinNetwork network addr prefixLen =>
      some { session with hotspotNetwork := some network, main := .joinAddr addr prefixLen }
  | .joinAddr addr prefixLen =>
      some { session with hotspotAddr := some addr, main := .joinPrefix addr prefixLen }
  | .joinPrefix addr prefixLen =>
      some { session with hotspotPrefixLen := prefixLen, main := .joinStatus addr }
  | .joinStatus addr =>
      some { session with
        hotspotStatus := some (addr ++ " on " ++ hotspotSsid)
        main := .hotspotLock }
  | .leaveNetwork => some { session with hotspotNetwork := none, main := .leaveAddr }
  | .leaveAddr => some { session with hotspotAddr := none, main := .leavePrefix }
  | .leavePrefix => some { session with hotspotPrefixLen := 0, main := .leaveStatus }
  | .leaveStatus => some { session with hotspotStatus := none, main := .hotspotLock }
  | .hotspotLock =>
      some { updateMulticastLock input session.currentUnderlying session with main := .request }
  | .request => some { session with rebindRequested := true, main := .claim }
  | .claim => some { session.claimWorker with main := .idle }

def workerStep (session : Session) (input : Input) : Option Session :=
  match session.worker with
  | .none => none
  | .poll =>
      if session.rebindRequested then some { session with worker := .settle }
      else some { session with worker := .release }
  | .settle => some { session with rebindRequested := false, worker := .active }
  | .active =>
      if session.tunnelActive then some { session with worker := .buildAddr }
      else some { session with worker := .poll }
  | .buildAddr => some { session with worker := .buildPrefix session.hotspotAddr }
  | .buildPrefix addr =>
      some { session with
        worker := .decide
          (if input.built then some (buildConfigJson addr session.hotspotPrefixLen) else none) }
  | .decide config =>
      let wantIpv6 := hasIpv6Internet input.connectivity session.currentUnderlying
      let session := { session with looked := (session.currentUnderlying, wantIpv6) }
      if wantIpv6 ≠ session.tunnelHasIpv6Clearnet ∨ (session.tunFd ∧ input.appsChanged) then
        some { session with worker := .establish config wantIpv6 }
      else some { session with worker := .readFd config }
  | .establish config wantIpv6 =>
      if input.established then some { session with worker := .recheck config wantIpv6 }
      else some { session with worker := .poll }
  | .recheck config wantIpv6 =>
      if session.tunnelActive then some { session with worker := .adopt config wantIpv6 }
      else some { session with worker := .poll }
  | .adopt config wantIpv6 =>
      some { session with
        tunFd := true
        tunnelHasIpv6Clearnet := wantIpv6
        worker := .notify config }
  | .readFd config =>
      if session.tunFd then some { session with worker := .notify config }
      else some { session with worker := .poll }
  | .notify config =>
      some { session with
        handed := (config.map (·.hotspot)).getD session.handed
        worker := .poll }
  | .release =>
      some { session with worker := .none, rereading := session.rereading + 1 }

/-- What a shutdown makes of all this; its own steps are those of `VpnService`. -/
def Session.shutdown (session : Session) : Session :=
  { session with
    tunnelActive := false
    tunFd := false
    availableNetworks := []
    currentUnderlying := none
    multicastLock := none
    hotspotNetwork := none
    hotspotAddr := none
    hotspotPrefixLen := 0
    hotspotStatus := none }

/-- `request` is a call of `rebindNode` off the looper's callbacks: by the
connecting thread, or for changed settings. -/
def step (session : Session) : Move → Option Session
  | .callback callback connectivity =>
      if session.main = .idle ∧ session.tunnelActive then
        some (callbackStep session connectivity callback)
      else none
  | .main input => mainStep session input
  | .worker input => workerStep session input
  | .die => if session.worker = .none then none else some { session with worker := .none }
  | .request =>
      some { session with rebindRequested := true, requesting := session.requesting + 1 }
  | .requestClaim =>
      if 0 < session.requesting then
        some { session.claimWorker with requesting := session.requesting - 1 }
      else none
  | .reread =>
      if 0 < session.rereading then
        some { session with
          rereading := session.rereading - 1
          reclaiming := session.reclaiming + session.rebindRequested.toNat }
      else none
  | .reclaim =>
      if 0 < session.reclaiming then
        some { session.claimWorker with reclaiming := session.reclaiming - 1 }
      else none
  | .shutdown => if session.main = .idle then some session.shutdown else none

/-- A session as `connect` leaves it to its callbacks: the route follows a
first look at the default network, and the resolver was told of it. -/
def started (active : Option Network) (ipv6 online : Bool) (multicastLock : Option Bool) :
    Session where
  tunnelActive := true
  tunFd := true
  availableNetworks := []
  namesOnline := some online
  currentUnderlying := none
  tunnelHasIpv6Clearnet := ipv6
  multicastLock := multicastLock
  hotspotNetwork := none
  hotspotAddr := none
  hotspotPrefixLen := 0
  hotspotStatus := none
  rebindRequested := false
  main := .idle
  worker := .none
  requesting := 0
  rereading := 0
  reclaiming := 0
  pushes := [online]
  told := []
  hints := 0
  flips := 0
  candidates := []
  validated := online
  looked := (active, ipv6)
  handed := none

end Fips2Go.Underlay
