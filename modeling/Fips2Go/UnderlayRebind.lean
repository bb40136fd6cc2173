import Fips2Go.Underlay

/-!
# Rebind passes and what they carry

The looper writes the hotspot's fields one by one and asks for a pass last; the
worker reads them one by one, and compares a look at the network of its own
with the route of the tunnel.  When nothing is asked for and nobody is at work,
the node has the hotspot of the fields, and the route is the one of the last
look, unless the looper found the old one right before the worker stored its own.
-/

namespace Fips2Go.Underlay

open GuardedRuns

/-- The steps of a pass succeed: the config is built, the tunnel established,
and no exception ends the worker. -/
def succeeds (session : Session) : Move → Bool
  | .worker input =>
      match session.worker with
      | .buildPrefix _ => input.built
      | .establish .. => input.established
      | _ => true
  | .die => false
  | _ => true

def Succeeds (session : Session) (move : Move) : Prop :=
  succeeds session move = true

instance : DecidableRel Succeeds :=
  fun _ _ => inferInstanceAs (Decidable (_ = true))

/-- The looper is about to ask for a pass. -/
def MainPc.owes : MainPc → Bool
  | .idle | .updateUnderlying | .store _ | .lock .. | .evaluate .. | .claim => false
  | _ => true

/-- The looper is about to change the hotspot's fields. -/
def MainPc.begins : MainPc → Bool
  | .joinNetwork .. | .leaveNetwork => true
  | _ => false

theorem MainPc.owes_of_begins {pc : MainPc} (begins : pc.begins = true) : pc.owes = true := by
  cases pc <;> first
    | rfl
    | exact Bool.noConfusion begins

/-- A pass that has not read anything yet is still to come. -/
def Session.Pending (session : Session) : Prop :=
  session.main.owes = true ∨ session.rebindRequested = true

/-- The config a pass would build now. -/
def Session.config (session : Session) : Config :=
  buildConfigJson session.hotspotAddr session.hotspotPrefixLen

/-- What the pass has read of the hotspot is what the fields still say; outside
of a pass, what the node was handed. -/
def WorkerPc.Carries (session : Session) : WorkerPc → Prop
  | .none | .poll | .settle | .release => session.handed = session.config.hotspot
  | .active | .buildAddr => True
  | .buildPrefix addr => addr = session.hotspotAddr
  | .decide config | .establish config _ | .recheck config _ | .adopt config _
  | .readFd config | .notify config => config = some session.config

/-- What a step of the looper, or the beginning of a callback, leaves alone. -/
structure LooperFrame (session next : Session) : Prop where
  tunnelActive : next.tunnelActive = session.tunnelActive
  tunFd : next.tunFd = session.tunFd
  route : next.tunnelHasIpv6Clearnet = session.tunnelHasIpv6Clearnet
  handed : next.handed = session.handed
  worker : next.worker = session.worker ∨ session.worker = .none ∧ next.worker = .poll
  fields : next.Pending ∨
    ¬session.Pending ∧ next.hotspotAddr = session.hotspotAddr ∧
      next.hotspotPrefixLen = session.hotspotPrefixLen

theorem claimWorker_worker (session : Session) :
    session.claimWorker.worker = session.worker ∨
      session.worker = .none ∧ session.claimWorker.worker = .poll := by
  unfold Session.claimWorker
  dsimp only
  split
  · exact .inr ⟨‹_›, rfl⟩
  · exact .inl rfl

theorem fields_of_quiet {session next : Session} (ends : session.main.owes = false)
    (requested : next.rebindRequested = session.rebindRequested)
    (addr : next.hotspotAddr = session.hotspotAddr)
    (prefixLen : next.hotspotPrefixLen = session.hotspotPrefixLen) :
    next.Pending ∨ ¬session.Pending ∧ next.hotspotAddr = session.hotspotAddr ∧
      next.hotspotPrefixLen = session.hotspotPrefixLen := by
  by_cases asked : session.rebindRequested = true
  · exact .inl (.inr (requested.trans asked))
  · refine .inr ⟨?_, addr, prefixLen⟩
    rintro (owes | already)
    · rw [ends] at owes
      exact absurd owes (by decide)
    · exact asked already

theorem pushNamesOnline_eq (session : Session) (now : Bool) :
    session.pushNamesOnline now = { session with
      namesOnline := (session.pushNamesOnline now).namesOnline
      pushes := (session.pushNamesOnline now).pushes } := by
  unfold Session.pushNamesOnline
  split <;> rfl

theorem mainStep_frame {session next : Session} {input : Input}
    (stepTo : mainStep session input = some next) : LooperFrame session next := by
  cases at_ : session.main with
  | idle => simp [mainStep, at_] at stepTo
  | updateUnderlying =>
      simp only [mainStep, at_] at stepTo
      have ends : session.main.owes = false := by rw [at_]; rfl
      rw [pushNamesOnline_eq] at stepTo
      split at stepTo <;> cases stepTo <;>
        exact ⟨rfl, rfl, rfl, rfl, .inl rfl, fields_of_quiet ends rfl rfl rfl⟩
  | store | lock =>
      simp only [mainStep, at_] at stepTo
      have ends : session.main.owes = false := by rw [at_]; rfl
      cases stepTo
      exact ⟨rfl, rfl, rfl, rfl, .inl rfl, fields_of_quiet ends rfl rfl rfl⟩
  | evaluate previous network =>
      simp only [mainStep, at_] at stepTo
      have ends : session.main.owes = false := by rw [at_]; rfl
      split at stepTo
      · split at stepTo <;> cases stepTo
        · exact ⟨rfl, rfl, rfl, rfl, .inl rfl, .inl (.inl rfl)⟩
        · exact ⟨rfl, rfl, rfl, rfl, .inl rfl, fields_of_quiet ends rfl rfl rfl⟩
      · split at stepTo
        · cases stepTo
          exact ⟨rfl, rfl, rfl, rfl, .inl rfl, .inl (.inl rfl)⟩
        · split at stepTo <;> cases stepTo <;>
            exact ⟨rfl, rfl, rfl, rfl, .inl rfl, fields_of_quiet ends rfl rfl rfl⟩
  | request =>
      simp only [mainStep, at_] at stepTo
      cases stepTo
      exact ⟨rfl, rfl, rfl, rfl, .inl rfl, .inl (.inr rfl)⟩
  | claim =>
      simp only [mainStep, at_] at stepTo
      have ends : session.main.owes = false := by rw [at_]; rfl
      cases stepTo
      exact ⟨rfl, rfl, rfl, rfl, claimWorker_worker session, fields_of_quiet ends rfl rfl rfl⟩
  | _ =>
      simp only [mainStep, at_] at stepTo
      cases stepTo
      exact ⟨rfl, rfl, rfl, rfl, .inl rfl, .inl (.inl rfl)⟩

theorem updateHotspot_cases (network : Network) (properties : Option LinkProperties)
    (session : Session) : updateHotspot network properties session = session ∨
      ∃ addr prefixLen, updateHotspot network properties session =
        { session with main := .joinNetwork network addr prefixLen } := by
  unfold updateHotspot
  split
  · exact .inl rfl
  next addr prefixLen _ =>
    split
    · exact .inl rfl
    · exact .inr ⟨addr, prefixLen, rfl⟩

theorem clearHotspot_cases (session : Session) : clearHotspot session = session ∨
    clearHotspot session = { session with main := .leaveNetwork } := by
  unfold clearHotspot
  split
  · exact .inl rfl
  · exact .inr rfl

/-- A callback goes on with the networks, leaves all as it is, or begins to
change the hotspot. -/
theorem callbackStep_cases (session : Session) (connectivity : Connectivity)
    (callback : Callback) :
    (∃ availableNetworks, callbackStep session connectivity callback =
      { session with availableNetworks, main := .updateUnderlying }) ∨
    callbackStep session connectivity callback = session ∨
    ∃ main : MainPc, main.begins = true ∧
      callbackStep session connectivity callback = { session with main } := by
  have update (network : Network) (properties : Option LinkProperties) :
      updateHotspot network properties session = session ∨
        ∃ main : MainPc, main.begins = true ∧
          updateHotspot network properties session = { session with main } := by
    obtain same | ⟨addr, prefixLen, joins⟩ := updateHotspot_cases network properties session
    · exact .inl same
    · exact .inr ⟨_, rfl, joins⟩
  have clear : clearHotspot session = session ∨ ∃ main : MainPc, main.begins = true ∧
      clearHotspot session = { session with main } := by
    obtain same | leaves := clearHotspot_cases session
    · exact .inl same
    · exact .inr ⟨_, rfl, leaves⟩
  cases callback with
  | onAvailable network => exact .inl ⟨_, rfl⟩
  | onLost network => exact .inl ⟨_, rfl⟩
  | onLinkPropertiesChanged network => exact .inl ⟨_, rfl⟩
  | onCapabilitiesChanged network => exact .inl ⟨_, rfl⟩
  | watcherCapabilities network ssid =>
      refine .inr ?_
      dsimp only [callbackStep]
      split
      · exact update network _
      · exact .inl rfl
  | watcherLinkProperties network properties =>
      refine .inr ?_
      dsimp only [callbackStep]
      split
      · exact update network _
      · exact .inl rfl
  | watcherLost network =>
      refine .inr ?_
      dsimp only [callbackStep]
      split
      · exact clear
      · exact .inl rfl
  | specifierAvailable network => exact .inr (update network _)
  | specifierLinkProperties network properties => exact .inr (update network _)
  | specifierLost => exact .inr clear
  | specifierUnavailable => exact .inr clear

theorem callbackStep_frame {session : Session} (idle : session.main = .idle)
    (connectivity : Connectivity) (callback : Callback) :
    LooperFrame session (callbackStep session connectivity callback) := by
  have ends : session.main.owes = false := by rw [idle]; rfl
  obtain ⟨_, goes⟩ | same | ⟨main, begins, goes⟩ :=
    callbackStep_cases session connectivity callback
  · rw [goes]
    exact ⟨rfl, rfl, rfl, rfl, .inl rfl, fields_of_quiet ends rfl rfl rfl⟩
  · rw [same]
    exact ⟨rfl, rfl, rfl, rfl, .inl rfl, fields_of_quiet ends rfl rfl rfl⟩
  · rw [goes]
    exact ⟨rfl, rfl, rfl, rfl, .inl rfl, .inl (.inl (MainPc.owes_of_begins begins))⟩

theorem WorkerPc.Carries.congr {session next : Session} {pc : WorkerPc}
    (addr : next.hotspotAddr = session.hotspotAddr)
    (prefixLen : next.hotspotPrefixLen = session.hotspotPrefixLen)
    (handed : next.handed = session.handed) (carries : pc.Carries session) :
    pc.Carries next := by
  have config : next.config = session.config := by
    rw [Session.config, Session.config, addr, prefixLen]
  cases pc <;> simp only [WorkerPc.Carries, config, addr, handed] at carries ⊢ <;> exact carries

/-- The node has the hotspot of the fields, or a pass with it is under way or
asked for. -/
structure Carried (session : Session) : Prop where
  tunFd : session.tunnelActive = true → session.tunFd = true
  carried : session.tunnelActive = true → session.Pending ∨ session.worker.Carries session

namespace Carried

variable {session next : Session}

theorem looper (inv : Carried session) (frame : LooperFrame session next) : Carried next where
  tunFd active := by
    rw [frame.tunFd]
    exact inv.tunFd (frame.tunnelActive ▸ active)
  carried active := by
    obtain pending | ⟨unasked, addr, prefixLen⟩ := frame.fields
    · exact .inl pending
    · obtain pending | carries := inv.carried (frame.tunnelActive ▸ active)
      · exact absurd pending unasked
      · have kept := carries.congr addr prefixLen frame.handed
        obtain same | ⟨none, poll⟩ := frame.worker
        · exact .inr (same ▸ kept)
        · rw [none] at kept
          exact .inr (poll ▸ kept)

/-- The worker goes on, and what it carries stays good. -/
theorem workerTo (inv : Carried session) {worker : WorkerPc} {looked : Option Network × Bool}
    {rereading : Nat}
    (keeps : session.worker.Carries session → worker.Carries session) :
    Carried { session with worker, looked, rereading } where
  tunFd active := inv.tunFd active
  carried active := by
    obtain pending | carries := inv.carried active
    · exact .inl pending
    · exact .inr ((keeps carries).congr rfl rfl rfl)

theorem workerStep (inv : Carried session) {input : Input}
    (good : succeeds session (.worker input) = true)
    (stepTo : workerStep session input = some next) : Carried next := by
  cases at_ : session.worker with
  | none => simp [Underlay.workerStep, at_] at stepTo
  | poll =>
      simp only [Underlay.workerStep, at_] at stepTo
      split at stepTo <;> cases stepTo <;>
        exact inv.workerTo fun carries => by rw [at_] at carries; exact carries
  | settle =>
      simp only [Underlay.workerStep, at_] at stepTo
      cases stepTo
      exact ⟨inv.tunFd, fun _ => .inr trivial⟩
  | active =>
      simp only [Underlay.workerStep, at_] at stepTo
      split at stepTo
      next active =>
        cases stepTo
        exact inv.workerTo fun _ => trivial
      next inactive =>
        cases stepTo
        exact ⟨inv.tunFd, fun active => absurd active inactive⟩
  | buildAddr =>
      simp only [Underlay.workerStep, at_] at stepTo
      cases stepTo
      exact inv.workerTo fun _ => rfl
  | buildPrefix addr =>
      simp only [Underlay.workerStep, at_] at stepTo
      have built : input.built = true := by
        simpa only [succeeds, at_] using good
      cases stepTo
      refine inv.workerTo fun carries => ?_
      rw [at_] at carries
      simp only [WorkerPc.Carries] at carries ⊢
      rw [if_pos built, carries]
      rfl
  | decide config =>
      simp only [Underlay.workerStep, at_] at stepTo
      split at stepTo <;> cases stepTo <;>
        exact inv.workerTo fun carries => by rw [at_] at carries; exact carries
  | establish config wantIpv6 =>
      simp only [Underlay.workerStep, at_] at stepTo
      have established : input.established = true := by
        simpa only [succeeds, at_] using good
      rw [if_pos established] at stepTo
      cases stepTo
      exact inv.workerTo fun carries => by rw [at_] at carries; exact carries
  | recheck config wantIpv6 =>
      simp only [Underlay.workerStep, at_] at stepTo
      split at stepTo
      next active =>
        cases stepTo
        exact inv.workerTo fun carries => by rw [at_] at carries; exact carries
      next inactive =>
        cases stepTo
        exact ⟨inv.tunFd, fun active => absurd active inactive⟩
  | adopt config wantIpv6 =>
      simp only [Underlay.workerStep, at_] at stepTo
      cases stepTo
      refine ⟨fun _ => rfl, fun active => ?_⟩
      obtain pending | carries := inv.carried active
      · exact .inl pending
      · rw [at_] at carries
        exact .inr carries
  | readFd config =>
      simp only [Underlay.workerStep, at_] at stepTo
      split at stepTo
      next up =>
        cases stepTo
        exact inv.workerTo fun carries => by rw [at_] at carries; exact carries
      next down =>
        cases stepTo
        exact ⟨inv.tunFd, fun active => absurd (inv.tunFd active) down⟩
  | notify config =>
      simp only [Underlay.workerStep, at_] at stepTo
      cases stepTo
      refine ⟨inv.tunFd, fun active => ?_⟩
      obtain pending | carries := inv.carried active
      · exact .inl pending
      · rw [at_] at carries
        have read : config = some session.config := carries
        refine .inr ?_
        rw [read]
        rfl
  | release =>
      simp only [Underlay.workerStep, at_] at stepTo
      cases stepTo
      exact inv.workerTo fun carries => by rw [at_] at carries; exact carries

theorem claimWorker (inv : Carried session) : Carried session.claimWorker where
  tunFd active := inv.tunFd active
  carried active := by
    obtain pending | carries := inv.carried active
    · exact .inl pending
    · have kept : session.worker.Carries session.claimWorker := carries.congr rfl rfl rfl
      obtain same | ⟨none, poll⟩ := claimWorker_worker session
      · exact .inr (same ▸ kept)
      · rw [none] at kept
        exact .inr (poll ▸ kept)

theorem recount (inv : Carried session) (requesting rereading reclaiming : Nat) :
    Carried { session with requesting, rereading, reclaiming } where
  tunFd active := inv.tunFd active
  carried active := (inv.carried active).imp_right fun carries => carries.congr rfl rfl rfl

theorem step (inv : Carried session) {move : Move} (good : Succeeds session move)
    (stepTo : step session move = some next) : Carried next := by
  cases move with
  | callback callback connectivity =>
      obtain ⟨⟨idle, -⟩, ⟨⟩⟩ := Option.ite_none_right_eq_some.mp stepTo
      exact inv.looper (callbackStep_frame idle connectivity callback)
  | main input => exact inv.looper (mainStep_frame stepTo)
  | worker input => exact inv.workerStep good stepTo
  | die => exact absurd good (by simp [Succeeds, succeeds])
  | request =>
      cases stepTo
      exact ⟨inv.tunFd, fun _ => .inl (.inr rfl)⟩
  | requestClaim =>
      obtain ⟨-, ⟨⟩⟩ := Option.ite_none_right_eq_some.mp stepTo
      exact inv.claimWorker.recount _ _ _
  | reread =>
      obtain ⟨-, ⟨⟩⟩ := Option.ite_none_right_eq_some.mp stepTo
      exact inv.recount _ _ _
  | reclaim =>
      obtain ⟨-, ⟨⟩⟩ := Option.ite_none_right_eq_some.mp stepTo
      exact inv.claimWorker.recount _ _ _
  | shutdown =>
      obtain ⟨-, ⟨⟩⟩ := Option.ite_none_right_eq_some.mp stepTo
      exact ⟨nofun, nofun⟩

theorem started (active : Option Network) (ipv6 online : Bool) (multicastLock : Option Bool) :
    Carried (started active ipv6 online multicastLock) where
  tunFd _ := rfl
  carried _ := .inr rfl

end Carried

/-- The hotspot's fields speak of one network, or of none. -/
structure Session.Whole (session : Session) : Prop where
  network : session.hotspotNetwork.isSome = session.hotspotAddr.isSome
  prefixLen : session.hotspotAddr = none → session.hotspotPrefixLen = 0
  status : session.hotspotStatus =
    session.hotspotAddr.map fun addr => addr ++ " on " ++ hotspotSsid

/-- And the multicast lock, where there is one, is held on a hotspot. -/
structure Session.Settled (session : Session) : Prop where
  whole : session.Whole
  held : session.hotspotNetwork.isSome = true → session.multicastLock ≠ some false

/-- The hotspot's fields while the looper writes them. -/
def MainPc.Writes (session : Session) : MainPc → Prop
  | .joinAddr .. => session.hotspotNetwork.isSome = true
  | .joinPrefix addr _ | .joinStatus addr =>
      session.hotspotNetwork.isSome = true ∧ session.hotspotAddr = some addr
  | .leaveAddr => session.hotspotNetwork = none
  | .leavePrefix => session.hotspotNetwork = none ∧ session.hotspotAddr = none
  | .leaveStatus =>
      session.hotspotNetwork = none ∧ session.hotspotAddr = none ∧ session.hotspotPrefixLen = 0
  | .hotspotLock => session.Whole
  | _ => session.Settled

/-- What nothing of this is written by. -/
structure SameHotspot (session next : Session) : Prop where
  network : next.hotspotNetwork = session.hotspotNetwork
  addr : next.hotspotAddr = session.hotspotAddr
  prefixLen : next.hotspotPrefixLen = session.hotspotPrefixLen
  status : next.hotspotStatus = session.hotspotStatus
  lock : next.multicastLock = session.multicastLock

namespace SameHotspot

variable {session next : Session}

theorem whole (whole : session.Whole) (same : SameHotspot session next) : next.Whole where
  network := by rw [same.network, same.addr, whole.network]
  prefixLen := by
    rw [same.addr, same.prefixLen]
    exact whole.prefixLen
  status := by rw [same.status, same.addr, whole.status]

theorem settled (settled : session.Settled) (same : SameHotspot session next) :
    next.Settled where
  whole := whole settled.whole same
  held := by
    rw [same.network, same.lock]
    exact settled.held

theorem writes {pc : MainPc} (writes : pc.Writes session) (same : SameHotspot session next) :
    pc.Writes next := by
  unfold MainPc.Writes at writes ⊢
  rw [same.network, same.addr, same.prefixLen]
  split at writes
  all_goals first
    | exact writes
    | exact whole writes same
    | exact settled writes same

end SameHotspot

/-- What only the looper writes about the networks. -/
structure SameNetworks (session next : Session) : Prop where
  main : next.main = session.main
  tunnelActive : next.tunnelActive = session.tunnelActive
  availableNetworks : next.availableNetworks = session.availableNetworks
  namesOnline : next.namesOnline = session.namesOnline
  currentUnderlying : next.currentUnderlying = session.currentUnderlying
  pushes : next.pushes = session.pushes
  told : next.told = session.told
  hints : next.hints = session.hints
  flips : next.flips = session.flips
  candidates : next.candidates = session.candidates
  validated : next.validated = session.validated

/-- The worker looks at the underlying network, and leaves the rest to the looper. -/
theorem workerStep_frame {session next : Session} {input : Input}
    (stepTo : workerStep session input = some next) :
    SameHotspot session next ∧ SameNetworks session next ∧
      (next.looked = session.looked ∨ next.looked.1 = session.currentUnderlying) := by
  cases at_ : session.worker with
  | none => simp [workerStep, at_] at stepTo
  | decide config =>
      simp only [workerStep, at_] at stepTo
      split at stepTo <;> cases stepTo <;>
        exact ⟨⟨rfl, rfl, rfl, rfl, rfl⟩, ⟨rfl, rfl, rfl, rfl, rfl, rfl, rfl, rfl, rfl, rfl, rfl⟩,
          .inr rfl⟩
  | _ =>
      simp only [workerStep, at_] at stepTo
      first
        | (cases stepTo
           exact ⟨⟨rfl, rfl, rfl, rfl, rfl⟩,
             ⟨rfl, rfl, rfl, rfl, rfl, rfl, rfl, rfl, rfl, rfl, rfl⟩, .inl rfl⟩)
        | (split at stepTo <;> cases stepTo <;>
            exact ⟨⟨rfl, rfl, rfl, rfl, rfl⟩,
              ⟨rfl, rfl, rfl, rfl, rfl, rfl, rfl, rfl, rfl, rfl, rfl⟩, .inl rfl⟩)

namespace MainPc.Writes

variable {session next : Session}

/-- The lock follows the hotspot. -/
theorem held (input : Input) (network : Option Network)
    (joined : session.hotspotNetwork.isSome = true) :
    (updateMulticastLock input network session).multicastLock ≠ some false := by
  unfold updateMulticastLock
  dsimp only
  rw [joined, Bool.or_true]
  cases session.multicastLock <;> simp

theorem mainStep {input : Input} (writes : session.main.Writes session)
    (stepTo : mainStep session input = some next) : next.main.Writes next := by
  cases at_ : session.main with
  | idle => simp [Underlay.mainStep, at_] at stepTo
  | updateUnderlying =>
      simp only [Underlay.mainStep, at_] at stepTo
      rw [at_] at writes
      have settled : session.Settled := writes
      rw [pushNamesOnline_eq] at stepTo
      split at stepTo <;> cases stepTo <;>
        exact SameHotspot.settled settled ⟨rfl, rfl, rfl, rfl, rfl⟩
  | store network =>
      simp only [Underlay.mainStep, at_] at stepTo
      rw [at_] at writes
      have settled : session.Settled := writes
      cases stepTo
      exact SameHotspot.settled settled ⟨rfl, rfl, rfl, rfl, rfl⟩
  | lock previous network =>
      simp only [Underlay.mainStep, at_] at stepTo
      rw [at_] at writes
      have settled : session.Settled := writes
      cases stepTo
      exact ⟨⟨settled.whole.network, settled.whole.prefixLen, settled.whole.status⟩,
        fun joined => held input (some network) joined⟩
  | evaluate previous network =>
      simp only [Underlay.mainStep, at_] at stepTo
      rw [at_] at writes
      have settled : session.Settled := writes
      split at stepTo
      · split at stepTo <;> cases stepTo <;>
          exact SameHotspot.settled settled ⟨rfl, rfl, rfl, rfl, rfl⟩
      · split at stepTo
        · cases stepTo
          exact SameHotspot.settled settled ⟨rfl, rfl, rfl, rfl, rfl⟩
        · split at stepTo <;> cases stepTo <;>
            exact SameHotspot.settled settled ⟨rfl, rfl, rfl, rfl, rfl⟩
  | joinNetwork network addr prefixLen =>
      simp only [Underlay.mainStep, at_] at stepTo
      cases stepTo
      exact rfl
  | joinAddr addr prefixLen =>
      simp only [Underlay.mainStep, at_] at stepTo
      rw [at_] at writes
      cases stepTo
      exact ⟨writes, rfl⟩
  | joinPrefix addr prefixLen =>
      simp only [Underlay.mainStep, at_] at stepTo
      rw [at_] at writes
      cases stepTo
      exact writes
  | joinStatus addr =>
      simp only [Underlay.mainStep, at_] at stepTo
      rw [at_] at writes
      obtain ⟨joined, known⟩ := writes
      cases stepTo
      refine ⟨?_, ?_, ?_⟩
      · change session.hotspotNetwork.isSome = session.hotspotAddr.isSome
        rw [joined, known]
        rfl
      · intro unset
        change session.hotspotAddr = none at unset
        rw [known] at unset
        exact absurd unset nofun
      · change _ = session.hotspotAddr.map _
        rw [known]
        rfl
  | leaveNetwork =>
      simp only [Underlay.mainStep, at_] at stepTo
      cases stepTo
      exact rfl
  | leaveAddr =>
      simp only [Underlay.mainStep, at_] at stepTo
      rw [at_] at writes
      cases stepTo
      exact ⟨writes, rfl⟩
  | leavePrefix =>
      simp only [Underlay.mainStep, at_] at stepTo
      rw [at_] at writes
      cases stepTo
      exact ⟨writes.1, writes.2, rfl⟩
  | leaveStatus =>
      simp only [Underlay.mainStep, at_] at stepTo
      rw [at_] at writes
      obtain ⟨left, unknown, zero⟩ := writes
      cases stepTo
      refine ⟨?_, fun _ => zero, ?_⟩
      · change session.hotspotNetwork.isSome = session.hotspotAddr.isSome
        rw [left, unknown]
        rfl
      · change _ = session.hotspotAddr.map _
        rw [unknown]
        rfl
  | hotspotLock =>
      simp only [Underlay.mainStep, at_] at stepTo
      rw [at_] at writes
      have whole : session.Whole := writes
      cases stepTo
      exact ⟨⟨whole.network, whole.prefixLen, whole.status⟩,
        fun joined => held input session.currentUnderlying joined⟩
  | request =>
      simp only [Underlay.mainStep, at_] at stepTo
      rw [at_] at writes
      have settled : session.Settled := writes
      cases stepTo
      exact SameHotspot.settled settled ⟨rfl, rfl, rfl, rfl, rfl⟩
  | claim =>
      simp only [Underlay.mainStep, at_] at stepTo
      rw [at_] at writes
      have settled : session.Settled := writes
      cases stepTo
      exact SameHotspot.settled settled ⟨rfl, rfl, rfl, rfl, rfl⟩

theorem callback (writes : session.main.Writes session) (idle : session.main = .idle)
    (connectivity : Connectivity) (callback : Callback) :
    (callbackStep session connectivity callback).main.Writes
      (callbackStep session connectivity callback) := by
  rw [idle] at writes
  have settled : session.Settled := writes
  obtain ⟨_, goes⟩ | same | ⟨main, begins, goes⟩ :=
    callbackStep_cases session connectivity callback
  · rw [goes]
    exact SameHotspot.settled settled ⟨rfl, rfl, rfl, rfl, rfl⟩
  · rw [same, idle]
    exact settled
  · rw [goes]
    have settled : { session with main }.Settled :=
      SameHotspot.settled settled ⟨rfl, rfl, rfl, rfl, rfl⟩
    cases main <;> first
      | exact settled
      | exact Bool.noConfusion begins

theorem step (writes : session.main.Writes session) {move : Move}
    (stepTo : step session move = some next) : next.main.Writes next := by
  cases move with
  | callback callback connectivity =>
      obtain ⟨⟨idle, -⟩, ⟨⟩⟩ := Option.ite_none_right_eq_some.mp stepTo
      exact writes.callback idle connectivity callback
  | main input => exact writes.mainStep stepTo
  | worker input =>
      obtain ⟨same, networks, -⟩ := workerStep_frame stepTo
      rw [networks.main]
      exact SameHotspot.writes writes same
  | die =>
      obtain ⟨-, ⟨⟩⟩ := Option.ite_none_left_eq_some.mp stepTo
      exact SameHotspot.writes writes ⟨rfl, rfl, rfl, rfl, rfl⟩
  | request =>
      cases stepTo
      exact SameHotspot.writes writes ⟨rfl, rfl, rfl, rfl, rfl⟩
  | requestClaim =>
      obtain ⟨-, ⟨⟩⟩ := Option.ite_none_right_eq_some.mp stepTo
      exact SameHotspot.writes writes ⟨rfl, rfl, rfl, rfl, rfl⟩
  | reread =>
      obtain ⟨-, ⟨⟩⟩ := Option.ite_none_right_eq_some.mp stepTo
      exact SameHotspot.writes writes ⟨rfl, rfl, rfl, rfl, rfl⟩
  | reclaim =>
      obtain ⟨-, ⟨⟩⟩ := Option.ite_none_right_eq_some.mp stepTo
      exact SameHotspot.writes writes ⟨rfl, rfl, rfl, rfl, rfl⟩
  | shutdown =>
      obtain ⟨idle, ⟨⟩⟩ := Option.ite_none_right_eq_some.mp stepTo
      change session.main.Writes session.shutdown
      rw [idle]
      exact ⟨⟨rfl, fun _ => rfl, rfl⟩, nofun⟩

end MainPc.Writes

/-- Whatever happens between the looper and the worker, a session that is up and at
rest has handed its node the hotspot its fields tell of; the fields speak of one
network or of none, and on a hotspot the multicast lock is held. -/
theorem hotspot_reaches_node {active : Option Network} {ipv6 online : Bool}
    {multicastLock : Option Bool} {moves : List Move} {session : Session}
    (run : Run step Succeeds (started active ipv6 online multicastLock) moves session)
    (up : session.tunnelActive = true) (idle : session.main = .idle)
    (unasked : session.rebindRequested = false) (resting : session.worker = .none) :
    session.handed = session.config.hotspot ∧ session.Settled := by
  have carried : Carried session :=
    run.invariant (Carried.started active ipv6 online multicastLock)
      fun _ _ _ inv good stepTo => inv.step good stepTo
  have writes : session.main.Writes session := by
    have initially : MainPc.idle.Writes (started active ipv6 online multicastLock) :=
      ⟨⟨rfl, fun _ => rfl, rfl⟩, nofun⟩
    clear up idle unasked resting carried
    induction run with
    | nil => exact initially
    | snoc run allowed stepTo ih => exact ih.step stepTo
  rw [idle] at writes
  refine ⟨?_, writes⟩
  obtain (owes | asked) | carries := carried.carried up
  · rw [idle] at owes
    exact absurd owes (by decide)
  · rw [unasked] at asked
    exact absurd asked (by decide)
  · rw [resting] at carries
    exact carries

section Example

private def nothing : Connectivity where
  capabilities _ := none
  linkProperties _ := none
  activeNetwork := none

private def granted : Input where
  connectivity := nothing
  lanMdns := false
  built := true
  established := true
  appsChanged := false

private def leased (last : UInt8) : LinkProperties where
  routes := []
  linkAddresses := [⟨.inet4 192 168 7 last, 24⟩]

private def joining (last : UInt8) : List Move :=
  .callback (.specifierLinkProperties 7 (leased last)) nothing :: List.replicate 7 (.main granted)

/-- Another lease comes while a pass has read the first one's address. -/
private def releasedAgain : List Move :=
  joining 9 ++ List.replicate 4 (.worker granted) ++ joining 30 ++
    List.replicate 14 (.worker granted)

/-- The first pass hands over the old address, the second one the new. -/
theorem second_lease_reaches_node : ∃ session,
    Run step Succeeds (started none false true (some false)) releasedAgain session ∧
      (session.handed = session.config.hotspot ∧ session.Settled) ∧
      session.hotspotStatus = some "192.168.7.30 on !FIPS" ∧
      session.multicastLock = some true := by
  obtain ⟨session, run, up, idle, unasked, resting, status, lock⟩ : ∃ session,
      Run step Succeeds (started none false true (some false)) releasedAgain session ∧
        session.tunnelActive = true ∧ session.main = .idle ∧
        session.rebindRequested = false ∧ session.worker = .none ∧
        session.hotspotStatus = some "192.168.7.30 on !FIPS" ∧
        session.multicastLock = some true :=
    exists_run_of_execute _ (by decide +kernel)
  exact ⟨session, run, hotspot_reaches_node run up idle unasked resting, status, lock⟩

end Example

end Fips2Go.Underlay
