import Fips2Go.ThreadPrograms
import Fips2Go.Underlay

/-!
# Looking for the hotspot

How `FipsVpnService` looks for the open network "!FIPS" while a session is up:
the Wi-Fi suggestion, the watcher of the Wi-Fi networks, the scans it keeps
coming, and the specifier request it files when a scan shows the hotspot.
`startHotspot` runs on the connecting thread while the callbacks it registers
already come on the main looper, and `stopHotspot` on whichever thread shuts
down, so each access to a field that they use is one step.  What the networks'
changes make of the tunnel is the subject of `Underlay`; what a start and a stop
do besides, of `VpnService`.
-/

namespace Fips2Go.Hotspot

open GuardedRuns ThreadPrograms Underlay

/-- `SPECIFIER_BACKOFF_MS`, in milliseconds. -/
def specifierBackoff : Nat := 900000

def versionQ : Nat := 29

def versionR : Nat := 30

def versionS : Nat := 31

/-- The phone, by its version of Android. -/
structure Device where
  sdk : Nat

structure ScanResult where
  ssid : String
  bssid : String
  level : Int

/-- What Android, the settings and the engine answer in a step.  Scan results
that may not be read are none. -/
structure Answers where
  fineLocation : Bool
  hotspotEnabled : Bool
  wifiManager : Bool
  connectivity : Bool
  accepted : Bool
  running : Bool
  underlayWifi : Bool
  now : Nat
  scanResults : List ScanResult

/-- A specifier request at the platform, which serves each for one session. -/
inductive Request where
  | filed (bssid : Option String)
  | connected (network : Network)
  | lost
  deriving DecidableEq, Repr

inductive Instr where
  | startHotspot
  | addHotspotSuggestion
  | registerWifiWatcher
  | registerNetworkCallback (watcher : Nat)
  | arm
  | registerScanWatcher
  | registerScanResultsCallback (watcher : Nat)
  | startScanKick
  | setScanKick (task : Nat)
  | post (task : Nat)
  | searchOn (task : Nat)
  | dropScanKick
  | maybeFileSpecifier
  | checkJoined
  | checkBackoff
  | checkScan
  | fileSpecifierRequest (bssid : Option String)
  | setCallback (callback : Nat) (bssid : Option String)
  | requestNetwork (callback : Nat) (bssid : Option String)
  | updateHotspot (network : Network) (addr : String) (prefixLen : Nat)
  | compareAddr (network : Network) (addr : String) (prefixLen : Nat)
  | comparePrefixLen (network : Network) (addr : String) (prefixLen : Nat)
  | setHotspotNetwork (network : Network) (addr : String) (prefixLen : Nat)
  | setHotspotAddr (addr : String) (prefixLen : Nat)
  | setHotspotPrefixLen (prefixLen : Nat)
  | stopScanKick
  | backOff
  | clearHotspot
  | leave
  | clearHotspotAddr
  | clearHotspotPrefixLen
  | restartScanKick
  | teardownSpecifierRequest
  | clearCallback
  | unregisterWifiWatcher
  | clearWifiWatcher
  | unregisterScanWatcher
  | clearScanWatcher
  | removeHotspotSuggestion
  | quitScanKick
  | forget
  deriving DecidableEq, Repr

/-- The fields of the service, what is registered at the platform and posted to
the main looper, and after them what is only recorded: whether the search was
started since the last stop, the scans asked for, and the requests filed. -/
structure Service where
  hotspotCallback : Option Nat
  hotspotNetwork : Option Network
  hotspotAddr : Option String
  hotspotPrefixLen : Nat
  hotspotSuggestions : Bool
  wifiWatcher : Option Nat
  scanWatcher : Option Nat
  specifierBackoffUntil : Nat
  scanKick : Option Nat
  requests : Nat → Option Request
  wifiWatchers : List Nat
  scanWatchers : List Nat
  kicks : List Nat
  fresh : Nat
  armed : Bool
  scans : Nat
  filings : Nat

/-- `onRevoke` comes on a thread of its own. -/
inductive Thread where
  | main
  | connect (id : Nat)
  | revoke
  deriving DecidableEq, Repr

/-- What comes on the main looper. -/
inductive Callback where
  | kick (task : Nat)
  | scanResultsAvailable (watcher : Nat)
  | watcherCapabilities (watcher : Nat) (network : Network) (ssid : Option String)
      (properties : Option LinkProperties)
  | watcherLinkProperties (watcher : Nat) (network : Network) (properties : LinkProperties)
  | watcherLost (watcher : Nat) (network : Network)
  | specifierAvailable (callback : Nat) (network : Network) (properties : Option LinkProperties)
  | specifierLinkProperties (callback : Nat) (network : Network) (properties : LinkProperties)
  | specifierLost (callback : Nat)
  | specifierUnavailable (callback : Nat)

section Programs

/-- `updateHotspot`, as far as the address of the link. -/
def updateProgram (network : Network) (properties : Option LinkProperties) : List Instr :=
  match properties.bind LinkProperties.inet4 with
  | none => []
  | some (addr, prefixLen) => [.updateHotspot network addr prefixLen]

/-- `clearHotspot`, as far as its first check. -/
def clearProgram (service : Service) : List Instr :=
  if service.hotspotNetwork = none then [] else [.leave]

def stopProgram : List Instr :=
  [.teardownSpecifierRequest, .unregisterWifiWatcher, .unregisterScanWatcher,
    .removeHotspotSuggestion, .quitScanKick]

/-- The first scan result with the best signal among those of the hotspot. -/
def bestResult (results : List ScanResult) : Option ScanResult :=
  match results.filter fun result => result.ssid = hotspotSsid with
  | [] => none
  | first :: rest =>
      some (rest.foldl (fun best result =>
        if best.level < result.level then result else best) first)

def Service.setRequest (service : Service) (callback : Nat) (request : Option Request) :
    Service :=
  { service with requests := Function.update service.requests callback request }

end Programs

variable (device : Device) in
/-- One instruction: the instructions that follow from it, and the service after it. -/
def exec (answers : Answers) (instr : Instr) (service : Service) : List Instr × Service :=
  match instr with
  | .startHotspot =>
      if versionQ ≤ device.sdk ∧ answers.hotspotEnabled then
        ([.addHotspotSuggestion, .registerWifiWatcher, .arm], service)
      else ([], service)
  | .addHotspotSuggestion =>
      if versionS ≤ device.sdk ∧ answers.fineLocation ∧ answers.wifiManager ∧ answers.accepted then
        ([], { service with hotspotSuggestions := true })
      else ([], service)
  | .registerWifiWatcher =>
      if versionS ≤ device.sdk ∧ answers.fineLocation ∧ answers.connectivity then
        ([.registerNetworkCallback service.fresh],
          { service with wifiWatcher := some service.fresh, fresh := service.fresh + 1 })
      else ([], service)
  | .registerNetworkCallback watcher =>
      if answers.accepted then
        ([], { service with wifiWatchers := watcher :: service.wifiWatchers })
      else ([], { service with wifiWatcher := none })
  | .arm =>
      if answers.fineLocation then
        if versionR ≤ device.sdk then
          ([.registerScanWatcher, .startScanKick, .maybeFileSpecifier], service)
        else ([.fileSpecifierRequest none], service)
      else ([], service)
  | .registerScanWatcher =>
      if answers.wifiManager then
        ([.registerScanResultsCallback service.fresh],
          { service with scanWatcher := some service.fresh, fresh := service.fresh + 1 })
      else ([], service)
  | .registerScanResultsCallback watcher =>
      if answers.accepted then
        ([], { service with scanWatchers := watcher :: service.scanWatchers })
      else ([], { service with scanWatcher := none })
  | .startScanKick =>
      match service.scanKick with
      | some _ => ([], { service with armed := true })
      | none =>
          ([.setScanKick service.fresh],
            { service with armed := true, fresh := service.fresh + 1 })
  | .setScanKick task =>
      ([.post task], { service with scanKick := some task, armed := true })
  | .post task => ([], { service with kicks := task :: service.kicks })
  | .searchOn task =>
      if service.hotspotNetwork ≠ none ∨ answers.running = false then ([.dropScanKick], service)
      else ([.post task], { service with scans := service.scans + answers.wifiManager.toNat })
  | .dropScanKick => ([], { service with scanKick := none })
  | .maybeFileSpecifier =>
      if service.hotspotCallback = none then ([.checkJoined], service) else ([], service)
  | .checkJoined =>
      if service.hotspotNetwork = none then ([.checkBackoff], service) else ([], service)
  | .checkBackoff =>
      if answers.now < service.specifierBackoffUntil then ([], service)
      else ([.checkScan], service)
  | .checkScan =>
      if answers.hotspotEnabled ∧ answers.underlayWifi ∧ answers.wifiManager then
        match bestResult answers.scanResults with
        | none => ([], service)
        | some best => ([.fileSpecifierRequest (some best.bssid)], service)
      else ([], service)
  | .fileSpecifierRequest bssid =>
      if service.hotspotCallback = none ∧ answers.connectivity then
        ([.setCallback service.fresh bssid], { service with fresh := service.fresh + 1 })
      else ([], service)
  | .setCallback callback bssid =>
      ([.requestNetwork callback bssid], { service with hotspotCallback := some callback })
  | .requestNetwork callback bssid =>
      if answers.accepted then
        ([], { service.setRequest callback (some (.filed bssid)) with
          filings := service.filings + 1 })
      else ([], { service with hotspotCallback := none })
  | .updateHotspot network addr prefixLen =>
      if service.hotspotNetwork = some network then
        ([.compareAddr network addr prefixLen], service)
      else ([.setHotspotNetwork network addr prefixLen], service)
  | .compareAddr network addr prefixLen =>
      if service.hotspotAddr = some addr then
        ([.comparePrefixLen network addr prefixLen], service)
      else ([.setHotspotNetwork network addr prefixLen], service)
  | .comparePrefixLen network addr prefixLen =>
      if service.hotspotPrefixLen = prefixLen then ([], service)
      else ([.setHotspotNetwork network addr prefixLen], service)
  | .setHotspotNetwork network addr prefixLen =>
      ([.setHotspotAddr addr prefixLen], { service with hotspotNetwork := some network })
  | .setHotspotAddr addr prefixLen =>
      ([.setHotspotPrefixLen prefixLen], { service with hotspotAddr := some addr })
  | .setHotspotPrefixLen prefixLen =>
      ([.stopScanKick], { service with hotspotPrefixLen := prefixLen })
  | .stopScanKick => ([], { service with scanKick := none })
  | .backOff =>
      ([], { service with specifierBackoffUntil := answers.now + specifierBackoff })
  | .clearHotspot => (clearProgram service, service)
  | .leave =>
      ([.clearHotspotAddr, .clearHotspotPrefixLen, .teardownSpecifierRequest, .restartScanKick],
        { service with hotspotNetwork := none })
  | .clearHotspotAddr => ([], { service with hotspotAddr := none })
  | .clearHotspotPrefixLen => ([], { service with hotspotPrefixLen := 0 })
  | .restartScanKick =>
      if answers.fineLocation ∧ versionR ≤ device.sdk then ([.startScanKick], service)
      else ([], service)
  | .teardownSpecifierRequest =>
      match service.hotspotCallback with
      | none => ([.clearCallback], service)
      | some callback => ([.clearCallback], service.setRequest callback none)
  | .clearCallback => ([], { service with hotspotCallback := none })
  | .unregisterWifiWatcher =>
      ([.clearWifiWatcher], { service with
        wifiWatchers := service.wifiWatchers.filter fun watcher =>
          service.wifiWatcher ≠ some watcher })
  | .clearWifiWatcher => ([], { service with wifiWatcher := none })
  | .unregisterScanWatcher =>
      ([.clearScanWatcher], { service with
        scanWatchers := service.scanWatchers.filter fun watcher =>
          service.scanWatcher ≠ some watcher })
  | .clearScanWatcher => ([], { service with scanWatcher := none })
  | .removeHotspotSuggestion => ([], { service with hotspotSuggestions := false })
  | .quitScanKick => ([.forget], { service with scanKick := none })
  | .forget =>
      ([.clearHotspotAddr, .clearHotspotPrefixLen], { service with
        hotspotNetwork := none
        -- A connecting thread that comes late may have started it again.
        armed := service.scanKick.isSome })

/-- A callback comes if it is registered; the instructions it is followed by. -/
def callbackStep (service : Service) : Callback → Option (List Instr × Service)
  | .kick task =>
      if task ∈ service.kicks then
        some (if service.scanKick = some task then [.searchOn task] else [],
          { service with kicks := service.kicks.erase task })
      else none
  | .scanResultsAvailable watcher =>
      if watcher ∈ service.scanWatchers then some ([.maybeFileSpecifier], service) else none
  | .watcherCapabilities watcher network ssid properties =>
      if watcher ∈ service.wifiWatchers then
        if ssid.map removeQuotes = some hotspotSsid then
          some (updateProgram network properties, service)
        else some ([], service)
      else none
  | .watcherLinkProperties watcher network properties =>
      if watcher ∈ service.wifiWatchers then
        if service.hotspotNetwork = some network then
          some (updateProgram network (some properties), service)
        else some ([], service)
      else none
  | .watcherLost watcher network =>
      if watcher ∈ service.wifiWatchers then
        if service.hotspotNetwork = some network then some ([.clearHotspot], service)
        else some ([], service)
      else none
  | .specifierAvailable callback network properties =>
      match service.requests callback with
      | some (.filed _) | some (.connected _) =>
          some (updateProgram network properties,
            service.setRequest callback (some (.connected network)))
      | _ => none
  | .specifierLinkProperties callback network properties =>
      if service.requests callback = some (.connected network) then
        some (updateProgram network (some properties), service)
      else none
  | .specifierLost callback =>
      match service.requests callback with
      | some (.connected _) =>
          some (clearProgram service, service.setRequest callback (some .lost))
      | _ => none
  | .specifierUnavailable callback =>
      match service.requests callback with
      | some (.filed _) =>
          some ([.backOff, .clearHotspot, .teardownSpecifierRequest],
            service.setRequest callback none)
      | _ => none

abbrev State := ThreadPrograms.State Thread Instr Service

inductive Move where
  | callback (callback : Callback)
  | connect (id : Nat)
  | run (thread : Thread) (answers : Answers)
  | stop (thread : Thread)

/-- The main looper takes a message when it has finished the one before.  A stop
comes on the looper, on the thread of a connect that fails, or from `onRevoke`. -/
def step (device : Device) (state : State) : Move → Option State
  | .callback callback =>
      if state.pending .main = [] then
        (callbackStep state.shared callback).map fun (program, service) =>
          state.start .main program service
      else none
  | .connect id =>
      if state.pending (.connect id) = [] then
        some (state.start (.connect id) [.startHotspot] state.shared)
      else none
  | .run thread answers => runStep (exec device) state thread answers
  | .stop thread =>
      if state.pending thread = [] then some (state.start thread stopProgram state.shared)
      else none

def initial : State where
  shared := {
    hotspotCallback := none
    hotspotNetwork := none
    hotspotAddr := none
    hotspotPrefixLen := 0
    hotspotSuggestions := false
    wifiWatcher := none
    scanWatcher := none
    specifierBackoffUntil := 0
    scanKick := none
    requests := fun _ => none
    wifiWatchers := []
    scanWatchers := []
    kicks := []
    fresh := 0
    armed := false
    scans := 0
    filings := 0 }
  pending := fun _ => []

end Fips2Go.Hotspot
