import Fips2Go.HostsSync
import Mathlib.Data.Option.Basic

/-!
# When the last saved configuration decides

A run captures its configuration before the generation, compares the
generation before it writes, and cancels whatever is pending when it
reschedules.  As long as every save files its request while no run is under
way that could still write or reschedule, none of this does harm: the request
survives, its run goes by the configuration just saved, and a block is never
written from an older one.
-/

namespace Fips2Go.HostsSync

open GuardedRuns

/-- The preferences are already those of the save under way. -/
def SavePc.applied : SavePc → Bool
  | .idle | .applying _ => false
  | .settingStatus _ | .scheduling _ => true

/-- The configuration `save` has applied and not yet filed a request for. -/
def SavePc.config : SavePc → Option Config
  | .idle | .applying _ => none
  | .settingStatus cfg | .scheduling cfg => some cfg

/-- The generation a run has read, compared or not. -/
def RunPc.generationRead : RunPc → Option Nat
  | .setRunning _ gen | .fetch _ gen | .compare _ gen _ | .saveSynced _ gen _ => some gen
  | _ => none

theorem generationRead_of_captured {pc : RunPc} {gen : Nat}
    (captured : pc.captured = some gen) : pc.generationRead = some gen := by
  cases pc with
  | setRunning cfg read => exact captured
  | fetch cfg read => exact captured
  | compare cfg read outcome => exact captured
  | _ => cases captured

structure RunOk (sync : Sync) (run : Running) : Prop where
  current : run.pc.harmless sync.generation ∨ run.pc = .readConfig ∨
    sync.saved ≤ run.basis
  basis : run.basis ≤ sync.applied
  earlier : ∀ gen, run.pc.generationRead = some gen → gen ≤ sync.generation
  config : ∀ cfg, run.pc.config = some cfg → run.basis = sync.applied →
    cfg = sync.prefs
  origin : ∀ save, run.request = .bySave save →
    0 < save ∧ save ≤ sync.saved ∧ (run.pc = .readConfig ∨ save ≤ run.basis)

/-- How far the run that turns the sync off has come. -/
def Removal (block : Option Block) (status : Status) : Option Running → Prop
  | none => block = none ∨ status.error ≠ none
  | some run =>
      match run.pc with
      | .readConfig | .loadSynced | .removeBlock _ | .setRemoved (some _) => True
      | .setRemoved none => block = none
      | _ => False

theorem notHarmless {pc : RunPc} {generation : Nat} {conclusion : Prop}
    (free : pc.captured = none) (notRemoving : pc.removing = false)
    (harmless : pc.harmless generation) : conclusion := by
  rcases harmless with ⟨captured, _⟩ | removing
  · exact absurd free captured
  · rw [notRemoving] at removing
    cases removing

theorem notRemoval {sync : Sync} {run : Running} {conclusion : Prop}
    (running : sync.worker = some run) (notRemoving : run.pc.removing = false)
    (begun : run.pc ≠ .readConfig) (_ : sync.prefs.enabled = false)
    (removal : Removal sync.block sync.status sync.worker) : conclusion := by
  rw [running] at removal
  obtain ⟨request, basis, pc⟩ := run
  cases pc with
  | readConfig => exact absurd rfl begun
  | loadSynced => cases notRemoving
  | removeBlock master => cases notRemoving
  | setRemoved failure => cases notRemoving
  | _ => exact removal.elim

/-- A run that has compared generations goes by one that is not outdated. -/
theorem saved_le_basis {sync : Sync} {run : Running} (ok : RunOk sync run)
    (free : run.pc.captured = none) (notRemoving : run.pc.removing = false)
    (begun : run.pc ≠ .readConfig) : sync.saved ≤ run.basis := by
  rcases ok.current with harmless | atStart | fresh
  · exact notHarmless free notRemoving harmless
  · exact absurd atStart begun
  · exact fresh

structure Invariant (sync : Sync) : Prop where
  noStaleWrite : sync.staleWrite = false
  notCancelled : sync.requestCancelled = false
  applied : sync.applied = sync.saved + sync.ui.applied.toNat
  prefs : sync.ui.applied = false → 0 < sync.saved → sync.lastSaved = some sync.prefs
  returned : sync.lastSaved ≠ none → 0 < sync.saved
  saving : ∀ cfg, sync.ui.config = some cfg → sync.prefs = cfg
  filed : ∀ save, sync.pending = some (.bySave save) → 0 < save ∧ save = sync.saved ∧
    ∀ run, sync.worker = some run → run.pc.harmless sync.generation
  served : sync.saved = 0 ∨ sync.pending = some (.bySave sync.saved) ∨
    sync.started = sync.saved
  started : sync.started ≤ sync.saved
  run : ∀ run, sync.worker = some run → RunOk sync run
  removal : sync.ui.applied = false → 0 < sync.saved → sync.started = sync.saved →
    sync.prefs.enabled = false →
      sync.pending = none ∧ Removal sync.block sync.status sync.worker

namespace Invariant

variable {sync : Sync}

theorem initial (prefs : Config) (block : Option Block) :
    Invariant (initial prefs block) := by
  constructor
  · rfl
  · rfl
  · rfl
  · intro _ positive
    cases positive
  · intro returned
    exact absurd rfl returned
  · intro cfg saving
    cases saving
  · intro save filed
    cases filed
  · exact Or.inl rfl
  · exact Nat.le_refl _
  · intro run running
    cases running
  · intro _ positive
    cases positive

/-- A step of the worker that leaves the UI thread's state alone. -/
theorem ofWorker (invariant : Invariant sync) {status : Status} {block : Option Block}
    {worker : Option Running}
    (runOk : ∀ run, worker = some run → RunOk sync run)
    (harmless : ∀ save, sync.pending = some (.bySave save) →
      ∀ run, worker = some run → run.pc.harmless sync.generation)
    (removal : sync.prefs.enabled = false → Removal sync.block sync.status sync.worker →
      Removal block status worker) :
    Invariant { sync with status := status, block := block, worker := worker } := by
  constructor
  · exact invariant.noStaleWrite
  · exact invariant.notCancelled
  · exact invariant.applied
  · exact invariant.prefs
  · exact invariant.returned
  · exact invariant.saving
  · intro save filed
    obtain ⟨positive, latest, _⟩ := invariant.filed save filed
    exact ⟨positive, latest, harmless save filed⟩
  · exact invariant.served
  · exact invariant.started
  · intro run running
    obtain ⟨current, basis, earlier, config, origin⟩ := runOk run running
    exact ⟨current, basis, earlier, config, origin⟩
  · intro quiet positive started off
    obtain ⟨nothing, before⟩ := invariant.removal quiet positive started off
    exact ⟨nothing, removal off before⟩

theorem finish (invariant : Invariant sync) {status : Status} {block : Option Block}
    (removal : sync.prefs.enabled = false → Removal sync.block sync.status sync.worker →
      block = none ∨ status.error ≠ none) :
    Invariant { sync with status := status, block := block, worker := none } := by
  apply invariant.ofWorker
  · intro run running
    cases running
  · intro save _ run running
    cases running
  · exact removal

/-- A step to `pc`, where the run still goes by the same configuration. -/
theorem advance (invariant : Invariant sync) {run : Running} {pc : RunPc}
    {status : Status} {block : Option Block}
    (running : sync.worker = some run)
    (begun : run.pc ≠ .readConfig)
    (harmless : run.pc.harmless sync.generation → pc.harmless sync.generation)
    (earlier : ∀ gen, pc.generationRead = some gen → gen ≤ sync.generation)
    (config : ∀ cfg, pc.config = some cfg → run.pc.config = some cfg)
    (removal : sync.prefs.enabled = false → Removal sync.block sync.status sync.worker →
      Removal block status (some { run with pc := pc })) :
    Invariant { sync with
      status := status
      block := block
      worker := some { run with pc := pc } } := by
  have ok := invariant.run run running
  apply invariant.ofWorker
  · intro next isNext
    cases isNext
    constructor
    · rcases ok.current with calm | atStart | fresh
      · exact Or.inl (harmless calm)
      · exact absurd atStart begun
      · exact Or.inr (Or.inr fresh)
    · exact ok.basis
    · exact earlier
    · intro cfg reads
      exact ok.config cfg (config cfg reads)
    · intro save filed
      obtain ⟨positive, latest, atStart | after⟩ := ok.origin save filed
      · exact absurd atStart begun
      · exact ⟨positive, latest, Or.inr after⟩
  · intro save filed next isNext
    cases isNext
    obtain ⟨_, _, calm⟩ := invariant.filed save filed
    exact harmless (calm run running)
  · exact removal

/-- A step outside of the removal, and not between reading the generation and
comparing it. -/
theorem goOn (invariant : Invariant sync) {run : Running} {pc : RunPc}
    {status : Status} {block : Option Block}
    (running : sync.worker = some run) (begun : run.pc ≠ .readConfig)
    (uncaptured : run.pc.captured = none) (notRemoving : run.pc.removing = false)
    (earlier : ∀ gen, pc.generationRead = some gen → gen ≤ sync.generation)
    (config : ∀ cfg, pc.config = some cfg → run.pc.config = some cfg) :
    Invariant { sync with
      status := status
      block := block
      worker := some { run with pc := pc } } :=
  invariant.advance running begun (notHarmless uncaptured notRemoving) earlier config
    (notRemoval running notRemoving begun)

/-- A step of the removal, which holds on to no configuration. -/
theorem goOnRemoving (invariant : Invariant sync) {run : Running} {pc : RunPc}
    {status : Status} {block : Option Block}
    (running : sync.worker = some run) (begun : run.pc ≠ .readConfig)
    (removing : pc.removing = true)
    (removal : Removal block status (some { run with pc := pc })) :
    Invariant { sync with
      status := status
      block := block
      worker := some { run with pc := pc } } := by
  apply invariant.advance running begun
  · exact fun _ => Or.inr removing
  · intro gen reads
    cases pc <;> cases removing <;> cases reads
  · intro cfg reads
    cases pc <;> cases removing <;> cases reads
  · exact fun _ _ => removal

/-- A run that reads the configuration goes by the newest one. -/
theorem readConfig (invariant : Invariant sync) {run : Running} {pc : RunPc}
    (running : sync.worker = some run) (atStart : run.pc = .readConfig)
    (reads : pc = .checkRunning sync.prefs ∧ sync.prefs.enabled = true ∨
      pc = .loadSynced) :
    Invariant { sync with worker := some { run with basis := sync.applied, pc := pc } } := by
  have ok := invariant.run run running
  have savedLe : sync.saved ≤ sync.applied := by
    rw [invariant.applied]
    omega
  have notFiled : ∀ save, sync.pending ≠ some (.bySave save) := by
    intro save filed
    obtain ⟨_, _, calm⟩ := invariant.filed save filed
    have harmless := calm run running
    simp [atStart, RunPc.harmless, RunPc.overtaken, RunPc.captured, RunPc.removing] at harmless
  apply invariant.ofWorker
  · intro next isNext
    cases isNext
    constructor
    · exact Or.inr (Or.inr savedLe)
    · exact Nat.le_refl _
    · rcases reads with ⟨rfl, _⟩ | rfl
      · exact nofun
      · exact nofun
    · intro cfg has _
      rcases reads with ⟨rfl, _⟩ | rfl
      · exact (Option.some.inj has).symm
      · cases has
    · intro save filed
      obtain ⟨positive, latest, _⟩ := ok.origin save filed
      exact ⟨positive, latest, Or.inr (Nat.le_trans latest savedLe)⟩
  · intro save filed
    exact absurd filed (notFiled save)
  · intro off _
    rcases reads with ⟨_, on⟩ | rfl
    · rw [off] at on
      cases on
    · trivial

/-- A run reschedules only when no save's request is pending. -/
theorem reschedule (invariant : Invariant sync) {run : Running}
    (running : sync.worker = some run) {delay : Nat} (atEnd : run.pc = .reschedule delay)
    (delayMs : Nat) : Invariant (sync.schedule delayMs).finish := by
  have notFiled : ∀ save, sync.pending ≠ some (.bySave save) := by
    intro save filed
    obtain ⟨_, _, calm⟩ := invariant.filed save filed
    have harmless := calm run running
    rw [atEnd] at harmless
    exact notHarmless rfl rfl harmless
  have kept : (sync.schedule delayMs).requestCancelled = false := by
    cases pending : sync.pending with
    | none => simp [Sync.schedule, invariant.notCancelled, pending]
    | some request =>
        cases request with
        | bySave save => exact absurd pending (notFiled save)
        | byRun delay => simp [Sync.schedule, invariant.notCancelled, pending]
  constructor
  · exact invariant.noStaleWrite
  · exact kept
  · exact invariant.applied
  · exact invariant.prefs
  · exact invariant.returned
  · exact invariant.saving
  · intro save filed
    cases filed
  · rcases invariant.served with none | filed | started
    · exact Or.inl none
    · exact absurd filed (notFiled _)
    · exact Or.inr (Or.inr started)
  · exact invariant.started
  · intro run running
    cases running
  · intro quiet positive started off
    obtain ⟨_, before⟩ := invariant.removal quiet positive started off
    exact notRemoval running (by rw [atEnd]; rfl) (by rw [atEnd]; nofun) off before

theorem runStep (invariant : Invariant sync) {run : Running}
    (running : sync.worker = some run) (input : Input) :
    Invariant (runStep sync run input) := by
  have ok := invariant.run run running
  obtain ⟨request, basis, pc⟩ := run
  cases pc with
  | readConfig =>
      simp only [HostsSync.runStep]
      split
      · rename_i on
        have reads := invariant.readConfig running rfl (Or.inl ⟨rfl, on⟩)
        exact reads
      · have reads := invariant.readConfig running rfl (Or.inr rfl)
        exact reads
  | loadSynced =>
      cases block : sync.block with
      | none =>
          simp only [HostsSync.runStep, block]
          exact invariant.finish (fun _ _ => Or.inl block)
      | some block' =>
          simp only [HostsSync.runStep, block]
          exact invariant.goOnRemoving running nofun rfl trivial
  | removeBlock master =>
      cases failure : input.failure with
      | none =>
          simp only [HostsSync.runStep, failure]
          exact invariant.goOnRemoving running nofun rfl rfl
      | some message =>
          simp only [HostsSync.runStep, failure]
          exact invariant.goOnRemoving running nofun rfl trivial
  | setRemoved failure =>
      cases failure with
      | none =>
          apply invariant.finish
          intro _ before
          rw [running] at before
          exact Or.inl before
      | some message =>
          apply invariant.finish
          intro _ _
          exact Or.inr nofun
  | checkRunning cfg =>
      simp only [HostsSync.runStep]
      split
      · exact invariant.goOn running nofun rfl rfl nofun fun _ same => same
      · split
        · exact invariant.goOn running nofun rfl rfl nofun nofun
        · apply invariant.finish
          exact notRemoval running rfl nofun
  | readGeneration cfg =>
      apply invariant.advance running
      · simp
      · exact notHarmless rfl rfl
      · intro gen captured
        exact Nat.le_of_eq (Option.some.inj captured).symm
      · exact fun _ same => same
      · exact notRemoval running rfl nofun
  | setRunning cfg gen =>
      apply invariant.advance running
      · simp
      · exact id
      · exact ok.earlier
      · exact fun _ same => same
      · exact notRemoval running rfl nofun
  | fetch cfg gen =>
      apply invariant.advance running
      · simp
      · exact id
      · exact ok.earlier
      · exact fun _ same => same
      · exact notRemoval running rfl nofun
  | compare cfg gen outcome =>
      simp only [HostsSync.runStep]
      split
      · apply invariant.finish
        exact notRemoval running rfl nofun
      · rename_i same
        have notOvertaken : ∀ {conclusion : Prop},
            (RunPc.compare cfg gen outcome).harmless sync.generation → conclusion := by
          intro conclusion harmless
          rcases harmless with ⟨_, other⟩ | removing
          · exact absurd (congrArg some (not_not.mp same)) other
          · cases removing
        cases outcome with
        | fetched answer =>
            apply invariant.advance running
            · simp
            · exact notOvertaken
            · exact ok.earlier
            · exact fun _ same => same
            · exact notRemoval running rfl nofun
        | restarted =>
            apply invariant.advance running
            · simp
            · exact notOvertaken
            · exact nofun
            · exact nofun
            · exact notRemoval running rfl nofun
        | failed message offline =>
            apply invariant.advance running
            · simp
            · exact notOvertaken
            · exact nofun
            · exact fun _ same => same
            · exact notRemoval running rfl nofun
  | saveSynced cfg gen answer =>
      cases failure : input.failure with
      | none =>
          have fresh : sync.saved ≤ basis := saved_le_basis ok rfl rfl nofun
          have notStale : (sync.staleWrite || decide (basis < sync.saved)) =
              sync.staleWrite := by
            simp [Nat.not_lt.mpr fresh]
          simp only [HostsSync.runStep, failure, notStale]
          exact invariant.goOn running nofun rfl rfl nofun fun _ same => same
      | some message =>
          simp only [HostsSync.runStep, failure]
          exact invariant.goOn running nofun rfl rfl ok.earlier fun _ same => same
  | readStatus cfg answer changed =>
      exact invariant.goOn running nofun rfl rfl nofun nofun
  | readFailed cfg message offline =>
      exact invariant.goOn running nofun rfl rfl nofun nofun
  | setInterrupted =>
      simp only [HostsSync.runStep]
      split
      · exact invariant.goOn running nofun rfl rfl nofun nofun
      · apply invariant.finish
        exact notRemoval running rfl nofun
  | setStatus next =>
      simp only [HostsSync.runStep]
      split
      · exact invariant.goOn running nofun rfl rfl nofun nofun
      · apply invariant.finish
        exact notRemoval running rfl nofun
  | reschedule delayMs => exact invariant.reschedule running rfl delayMs

theorem takeRequest (invariant : Invariant sync) {next : Sync}
    (stepTo : takeRequest sync = some next) :
    Invariant next := by
  cases pending : sync.pending with
  | none => simp [HostsSync.takeRequest, pending] at stepTo
  | some request =>
      simp only [HostsSync.takeRequest, pending, Option.some.injEq] at stepTo
      subst stepTo
      constructor
      · exact invariant.noStaleWrite
      · exact invariant.notCancelled
      · exact invariant.applied
      · exact invariant.prefs
      · exact invariant.returned
      · exact invariant.saving
      · intro save filed
        cases filed
      · rcases invariant.served with none | filed | started
        · exact Or.inl none
        · rw [pending, Option.some.injEq] at filed
          subst filed
          exact Or.inr (Or.inr rfl)
        · cases request with
          | bySave save =>
              obtain ⟨_, latest, _⟩ := invariant.filed save pending
              exact Or.inr (Or.inr latest)
          | byRun delay => exact Or.inr (Or.inr started)
      · cases request with
        | bySave save =>
            obtain ⟨_, latest, _⟩ := invariant.filed save pending
            exact Nat.le_of_eq latest
        | byRun delay => exact invariant.started
      · intro run running
        cases running
        constructor
        · exact Or.inr (Or.inl rfl)
        · exact Nat.zero_le _
        · exact nofun
        · exact nofun
        · intro save filed
          have isFiled : request = .bySave save := filed
          rw [isFiled] at pending
          obtain ⟨positive, latest, _⟩ := invariant.filed save pending
          exact ⟨positive, Nat.le_of_eq latest, Or.inl rfl⟩
      · intro quiet positive started off
        refine ⟨rfl, ?_⟩
        trivial

theorem save (invariant : Invariant sync) (cfg : Config) (idle : sync.ui = .idle) :
    Invariant { sync with generation := sync.generation + 1, ui := .applying cfg } := by
  have calm : ∀ run, sync.worker = some run → run.pc.harmless sync.generation →
      run.pc.harmless (sync.generation + 1) := by
    intro run running harmless
    have ok := invariant.run run running
    rcases harmless with ⟨captured, other⟩ | removing
    · refine Or.inl ⟨captured, ?_⟩
      intro same
      have earlier := ok.earlier (sync.generation + 1) (generationRead_of_captured same)
      omega
    · exact Or.inr removing
  constructor
  · exact invariant.noStaleWrite
  · exact invariant.notCancelled
  · have applied := invariant.applied
    rw [idle] at applied
    exact applied
  · intro _ positive
    exact invariant.prefs (by rw [idle]; rfl) positive
  · exact invariant.returned
  · exact nofun
  · intro save filed
    obtain ⟨positive, latest, harmless⟩ := invariant.filed save filed
    exact ⟨positive, latest, fun run running => calm run running (harmless run running)⟩
  · exact invariant.served
  · exact invariant.started
  · intro run running
    obtain ⟨current, basis, earlier, config, origin⟩ := invariant.run run running
    refine ⟨?_, basis, fun gen read => Nat.le_succ_of_le (earlier gen read), config, origin⟩
    rcases current with harmless | others
    · exact Or.inl (calm run running harmless)
    · exact Or.inr others
  · intro _ positive started off
    exact invariant.removal (by rw [idle]; rfl) positive started off

theorem saveStep (invariant : Invariant sync) {next : Sync}
    (harmless : sync.ui.filing = true →
      ∀ run ∈ sync.worker, run.pc.harmless sync.generation)
    (stepTo : saveStep sync = some next) : Invariant next := by
  cases ui : sync.ui with
  | idle => simp [HostsSync.saveStep, ui] at stepTo
  | applying cfg =>
      simp only [HostsSync.saveStep, ui, Option.some.injEq] at stepTo
      subst stepTo
      have applied := invariant.applied
      rw [ui] at applied
      constructor
      · exact invariant.noStaleWrite
      · exact invariant.notCancelled
      · simpa [SavePc.applied] using applied
      · exact nofun
      · exact invariant.returned
      · intro other saving
        exact Option.some.inj saving
      · exact invariant.filed
      · exact invariant.served
      · exact invariant.started
      · intro run running
        obtain ⟨current, basis, earlier, config, origin⟩ := invariant.run run running
        refine ⟨current, Nat.le_succ_of_le basis, earlier, ?_, origin⟩
        intro read _ same
        exact absurd same (by dsimp only; omega)
      · exact nofun
  | settingStatus cfg =>
      simp only [HostsSync.saveStep, ui, Option.some.injEq] at stepTo
      subst stepTo
      have applied := invariant.applied
      rw [ui] at applied
      constructor
      · exact invariant.noStaleWrite
      · exact invariant.notCancelled
      · exact applied
      · exact nofun
      · exact invariant.returned
      · intro other saving
        exact invariant.saving other (by rw [ui]; exact saving)
      · exact invariant.filed
      · exact invariant.served
      · exact invariant.started
      · intro run running
        obtain ⟨current, basis, earlier, config, origin⟩ := invariant.run run running
        exact ⟨current, basis, earlier, config, origin⟩
      · exact nofun
  | scheduling cfg =>
      simp only [HostsSync.saveStep, ui, Option.some.injEq] at stepTo
      subst stepTo
      have applied := invariant.applied
      rw [ui] at applied
      have saving := invariant.saving cfg (by rw [ui]; rfl)
      have calm := harmless (by rw [ui]; rfl)
      constructor
      · exact invariant.noStaleWrite
      · exact invariant.notCancelled
      · exact applied
      · intro _ _
        rw [saving]
      · intro _
        exact Nat.succ_pos _
      · exact nofun
      · intro save filed
        cases filed
        exact ⟨Nat.succ_pos _, rfl, calm⟩
      · exact Or.inr (Or.inl rfl)
      · exact Nat.le_succ_of_le invariant.started
      · intro run running
        obtain ⟨_, basis, earlier, config, origin⟩ := invariant.run run running
        refine ⟨Or.inl (calm run running), basis, earlier, config, ?_⟩
        intro save filed
        obtain ⟨positive, latest, read⟩ := origin save filed
        exact ⟨positive, Nat.le_succ_of_le latest, read⟩
      · intro _ _ started
        have before := invariant.started
        exact absurd started (by dsimp only; omega)

theorem step (invariant : Invariant sync) {move : Move} {next : Sync}
    (allowed : FilesWhileHarmless sync move) (stepTo : step sync move = some next) :
    Invariant next := by
  cases move with
  | save cfg =>
      cases ui : sync.ui with
      | idle =>
          simp only [HostsSync.step, ui, Option.some.injEq] at stepTo
          subst stepTo
          exact invariant.save cfg ui
      | _ => simp [HostsSync.step, ui] at stepTo
  | ui => exact invariant.saveStep allowed stepTo
  | worker input =>
      cases worker : sync.worker with
      | none =>
          simp only [HostsSync.step, worker] at stepTo
          exact invariant.takeRequest stepTo
      | some run =>
          simp only [HostsSync.step, worker, Option.some.injEq] at stepTo
          subst stepTo
          exact invariant.runStep worker input

theorem lastSaveDecides (invariant : Invariant sync) : LastSaveDecides sync := by
  constructor
  · exact invariant.noStaleWrite
  · exact invariant.notCancelled
  · intro positive
    rcases invariant.served with none | served
    · omega
    · exact served
  · intro idle run cfg running filed reads
    obtain ⟨_, basis, _, config, origin⟩ := invariant.run run running
    obtain ⟨positive, _, atStart | after⟩ := origin _ filed
    · rw [atStart] at reads
      cases reads
    · have applied := invariant.applied
      have notApplied : sync.ui.applied = false := by
        rw [idle]
        rfl
      rw [notApplied] at applied
      have newest : run.basis = sync.applied := by
        simp only [Bool.toNat_false] at applied
        omega
      rw [invariant.prefs notApplied positive, config cfg reads newest]
  · intro idle noRun nothing cfg lastSaved off
    have notApplied : sync.ui.applied = false := by
      rw [idle]
      rfl
    have positive := invariant.returned (by rw [lastSaved]; nofun)
    have isPrefs := invariant.prefs notApplied positive
    rw [lastSaved, Option.some.injEq] at isPrefs
    have started : sync.started = sync.saved := by
      rcases invariant.served with none | filed | started
      · omega
      · rw [nothing] at filed
        cases filed
      · exact started
    obtain ⟨_, removal⟩ := invariant.removal notApplied positive started (isPrefs ▸ off)
    rw [noRun] at removal
    exact removal

end Invariant

theorem lastSaveDecides_of_guarded {prefs : Config} {block : Option Block}
    {moves : List Move} {final : Sync}
    (run : Run step FilesWhileHarmless (initial prefs block) moves final) :
    LastSaveDecides final := by
  have invariant : Invariant final := by
    apply run.invariant
    · exact Invariant.initial prefs block
    · intro current move next before allowed stepTo
      exact before.step allowed stepTo
  exact invariant.lastSaveDecides

/-- Some continuation cancels the request of a save. -/
def Loses (sync : Sync) : Prop :=
  ∃ moves final, Run step anyStep sync moves final ∧ final.requestCancelled = true

/-- A network that lets a run go through, with the tunnel up. -/
def eager : Input where
  now := 0
  isRunning := true
  tunnelActive := true
  outcome := .restarted
  label := none
  changed := false
  failure := none

namespace Loses

variable {sync : Sync} {request : Request} {basis save : Nat}

theorem ofStep {next : Sync} {move : Move} (stepTo : step sync move = some next)
    (loses : Loses next) : Loses sync := by
  obtain ⟨moves, final, run, cancelled⟩ := loses
  have first : Run step anyStep sync ([] ++ [move]) next := .snoc .nil trivial stepTo
  exact ⟨_, final, first.append run, cancelled⟩

/-- A run that is not at the end of its way takes a step. -/
theorem ofRunStep {pc : RunPc} (running : sync.worker = some ⟨request, basis, pc⟩)
    (loses : Loses (runStep sync ⟨request, basis, pc⟩ eager)) : Loses sync := by
  apply ofStep _ loses
  · exact .worker eager
  · simp only [step, running]

theorem reschedule {delayMs : Nat} (filed : sync.pending = some (.bySave save))
    (running : sync.worker = some ⟨request, basis, .reschedule delayMs⟩) :
    Loses sync := by
  apply ofRunStep running
  refine ⟨[], _, .nil, ?_⟩
  simp [runStep, Sync.schedule, Sync.finish, filed]

theorem setStatus {next : Status} (filed : sync.pending = some (.bySave save))
    (running : sync.worker = some ⟨request, basis, .setStatus next⟩) : Loses sync :=
  ofRunStep running (reschedule filed rfl)

theorem setInterrupted (filed : sync.pending = some (.bySave save))
    (running : sync.worker = some ⟨request, basis, .setInterrupted⟩) : Loses sync :=
  ofRunStep running (reschedule filed rfl)

theorem readStatus {cfg : Config} {answer : Fetched} {changed : Bool}
    (filed : sync.pending = some (.bySave save))
    (running : sync.worker = some ⟨request, basis, .readStatus cfg answer changed⟩) :
    Loses sync :=
  ofRunStep running (setStatus filed rfl)

theorem readFailed {cfg : Config} {message : String} {offline : Bool}
    (filed : sync.pending = some (.bySave save))
    (running : sync.worker = some ⟨request, basis, .readFailed cfg message offline⟩) :
    Loses sync :=
  ofRunStep running (setStatus filed rfl)

theorem saveSynced {cfg : Config} {gen : Nat} {answer : Fetched}
    (filed : sync.pending = some (.bySave save))
    (running : sync.worker = some ⟨request, basis, .saveSynced cfg gen answer⟩) :
    Loses sync :=
  ofRunStep running (readStatus filed rfl)

theorem compare {cfg : Config} {outcome : Outcome}
    (filed : sync.pending = some (.bySave save))
    (running : sync.worker = some
      ⟨request, basis, .compare cfg sync.generation outcome⟩) : Loses sync := by
  apply ofRunStep running
  simp only [runStep, ne_eq, not_true_eq_false, if_false]
  cases outcome with
  | fetched answer => exact saveSynced filed rfl
  | restarted => exact setInterrupted filed rfl
  | failed message offline => exact readFailed filed rfl

theorem fetch {cfg : Config} (filed : sync.pending = some (.bySave save))
    (running : sync.worker = some ⟨request, basis, .fetch cfg sync.generation⟩) :
    Loses sync :=
  ofRunStep running (compare filed rfl)

theorem setRunning {cfg : Config} (filed : sync.pending = some (.bySave save))
    (running : sync.worker = some ⟨request, basis, .setRunning cfg sync.generation⟩) :
    Loses sync :=
  ofRunStep running (fetch filed rfl)

theorem readGeneration {cfg : Config} (filed : sync.pending = some (.bySave save))
    (running : sync.worker = some ⟨request, basis, .readGeneration cfg⟩) : Loses sync :=
  ofRunStep running (setRunning filed rfl)

theorem checkRunning {cfg : Config} (filed : sync.pending = some (.bySave save))
    (running : sync.worker = some ⟨request, basis, .checkRunning cfg⟩) : Loses sync :=
  ofRunStep running (readGeneration filed rfl)

theorem readConfig (filed : sync.pending = some (.bySave save))
    (running : sync.worker = some ⟨request, basis, .readConfig⟩)
    (enabled : sync.prefs.enabled = true) : Loses sync := by
  apply ofRunStep running
  simp only [runStep, enabled, if_true]
  exact checkRunning filed rfl

/-- A run that has not read its configuration yet may find another one that is
on, from a save still under way. -/
theorem beforeConfig (filed : sync.pending = some (.bySave save)) (idle : sync.ui = .idle)
    (running : sync.worker = some ⟨request, basis, .readConfig⟩) : Loses sync := by
  have saveBegins : step sync (.save { sync.prefs with enabled := true }) = some { sync with
      generation := sync.generation + 1
      ui := .applying { sync.prefs with enabled := true } } := by
    simp only [step, idle]
  apply ofStep saveBegins
  have applies : Loses { sync with
      generation := sync.generation + 1
      prefs := { sync.prefs with enabled := true }
      applied := sync.applied + 1
      ui := .settingStatus { sync.prefs with enabled := true } } :=
    readConfig filed running rfl
  exact ofStep (show step _ .ui = some _ from rfl) applies

theorem ofNotHarmless {run : Running} (filed : sync.pending = some (.bySave save))
    (idle : sync.ui = .idle) (running : sync.worker = some run)
    (notHarmless : ¬ run.pc.harmless sync.generation) : Loses sync := by
  obtain ⟨request, basis, pc⟩ := run
  have captured : ∀ gen, pc.captured = some gen → gen = sync.generation := by
    intro gen read
    by_contra other
    apply notHarmless
    refine Or.inl ⟨?_, ?_⟩
    · rw [read]
      nofun
    · rw [read]
      exact fun same => other (Option.some.inj same)
  cases pc with
  | readConfig => exact beforeConfig filed idle running
  | loadSynced => exact absurd (Or.inr rfl) notHarmless
  | removeBlock master => exact absurd (Or.inr rfl) notHarmless
  | setRemoved failure => exact absurd (Or.inr rfl) notHarmless
  | checkRunning cfg => exact checkRunning filed running
  | readGeneration cfg => exact readGeneration filed running
  | setRunning cfg gen =>
      obtain rfl := captured gen rfl
      exact setRunning filed running
  | fetch cfg gen =>
      obtain rfl := captured gen rfl
      exact fetch filed running
  | compare cfg gen outcome =>
      obtain rfl := captured gen rfl
      exact compare filed running
  | saveSynced cfg gen answer => exact saveSynced filed running
  | readStatus cfg answer changed => exact readStatus filed running
  | readFailed cfg message offline => exact readFailed filed running
  | setInterrupted => exact setInterrupted filed running
  | setStatus next => exact setStatus filed running
  | reschedule delayMs => exact reschedule filed running

end Loses

/-- The last saved configuration decides exactly as long as every save files its
request while no run is under way that could still write or reschedule: such
runs keep the promise, and after a save that files its request otherwise some
continuation breaks it. -/
theorem last_save_decides_iff_filed_while_harmless (prefs : Config) (block : Option Block) :
    (∀ moves final, Run step FilesWhileHarmless (initial prefs block) moves final →
        LastSaveDecides final) ∧
      ∀ moves before move after, Run step anyStep (initial prefs block) moves before →
        ¬ FilesWhileHarmless before move → step before move = some after →
        ∃ later final,
          Run step anyStep (initial prefs block) (moves ++ [move] ++ later) final ∧
            ¬ LastSaveDecides final := by
  constructor
  · intro moves final run
    exact lastSaveDecides_of_guarded run
  · intro moves before move after run broken stepTo
    have loses : Loses after := by
      cases move with
      | save cfg => exact absurd trivial broken
      | worker input => exact absurd trivial broken
      | ui =>
          simp only [FilesWhileHarmless] at broken
          push Not at broken
          obtain ⟨filing, running, isRunning, notHarmless⟩ := broken
          cases ui : before.ui with
          | scheduling cfg =>
              simp only [step, saveStep, ui, Option.some.injEq] at stepTo
              subst stepTo
              exact Loses.ofNotHarmless rfl rfl isRunning notHarmless
          | _ =>
              rw [ui] at filing
              cases filing
    obtain ⟨later, final, continues, cancelled⟩ := loses
    refine ⟨later, final, (run.snoc trivial stepTo).append continues, ?_⟩
    intro decides
    rw [decides.notCancelled] at cancelled
    cases cancelled

/-- A node to pull names from, and the sync turned off. -/
def pulling : Config := ⟨true, "npub1a", 8080, 60⟩

def off : Config := ⟨false, "npub1a", 8080, 60⟩

/-- The network of a pull that succeeds. -/
def pulled : Input where
  now := 0
  isRunning := true
  tunnelActive := true
  outcome := .fetched ⟨[⟨"nas", "npub1b"⟩], 0, [], true⟩
  label := none
  changed := true
  failure := none

/-- A sync that is turned on, pulls, and is turned off again. -/
def onAndOff : List Move :=
  [.save pulling, .ui, .ui, .ui] ++ List.replicate 11 (.worker pulled) ++
    [.save off, .ui, .ui, .ui] ++ List.replicate 5 (.worker pulled)

theorem block_removed_after_turning_off :
    ∃ final, Run step FilesWhileHarmless (initial off none) onAndOff final ∧
      (final.block = none ∧ final.started = 2) ∧ LastSaveDecides final := by
  have reaches : ∃ final, Run step FilesWhileHarmless (initial off none) onAndOff final ∧
      final.block = none ∧ final.started = 2 :=
    exists_run_of_execute _ (by decide +kernel)
  obtain ⟨final, run, reached⟩ := reaches
  exact ⟨final, run, reached, (last_save_decides_iff_filed_while_harmless off none).1 _ _ run⟩

/-- A run that has read its configuration when the sync is turned off, but not
the generation: it writes the block all the same, and its rescheduling cancels
the request that was to remove it. -/
def turnedOffTooLate : List Move :=
  [.save pulling, .ui, .ui, .ui] ++ List.replicate 2 (.worker pulled) ++
    [.save off, .ui, .ui, .ui] ++ List.replicate 9 (.worker pulled)

theorem stale_block_written_after_turning_off :
    ¬ ∀ prefs block moves final, Run step anyStep (initial prefs block) moves final →
      LastSaveDecides final := by
  intro claim
  have reaches : ∃ final, Run step anyStep (initial off none) turnedOffTooLate final ∧
      final.staleWrite = true ∧ final.requestCancelled = true ∧
        final.pending = some (.byRun 3600000) ∧ final.block ≠ none :=
    exists_run_of_execute _ (by decide +kernel)
  obtain ⟨final, run, stale, _⟩ := reaches
  have decides := claim _ _ _ _ run
  rw [decides.noStaleWrite] at stale
  cases stale

end Fips2Go.HostsSync
