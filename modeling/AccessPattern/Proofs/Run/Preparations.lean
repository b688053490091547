import AccessPattern.Proofs.Run.Jobs
import AccessPattern.Proofs.Settings.Validity

/-!
# From the command line to the jobs

Everything before the jobs only reads. A run with settings ends with an error if there is something
wrong with them, and otherwise does its jobs on the file system as it found it.
-/

namespace AccessPattern.Run

variable {given : Surroundings} {s : Settings} {fs : FileSystem}

/-- The settings that a run loads, if its command line asks for a run with settings. -/
def LoadsSettings (given : Surroundings) (fs : FileSystem) (words : List String)
    (environmentSeed : Option String) (s : Settings) : Prop :=
  ∃ o, Command.options words environmentSeed = .ok o ∧ o.listPatterns = false ∧
    ((loadSettings given.host o).run.run fs).1 = .ok s

/-- Loading settings only reads. -/
theorem readOnly_loadSettings (o : Options) : ReadOnly (loadSettings given.host o) := by
  rw [loadSettings]
  split
  · exact (ReadOnly.known _).bind fun base => ReadOnly.known _
  · refine ReadOnly.lift_bind (fun _ => rfl) fun contents => ?_
    exact (ReadOnly.known _).bind fun base => ReadOnly.known _

/-- Validating settings only looks for a directory. -/
theorem validateSettings_run :
    (validateSettings given.host s).run.run fs =
      ((s.validate (fs.isDirectory s.output)).mapError .settings, fs) :=
  rfl

/-- Everything before the jobs only reads. -/
theorem readOnly_prepare (o : Options) : ReadOnly (prepare given.host o) := by
  rw [prepare]
  split
  · exact ReadOnly.known _
  · refine (readOnly_loadSettings o).bind fun s => ReadOnly.bind ?_ fun plans => ReadOnly.known _
    exact ReadOnly.lift_bind (fun _ => rfl) fun isDirectory => ReadOnly.known _

/-- The preparations succeed when nothing is wrong with the options and the settings loaded are
valid. -/
theorem prepare_eq_ok_iff {o : Options} {plans : List BlockPlan} :
    ((prepare given.host o).run.run fs).1 = .ok (s, plans) ↔
      o.fault? = none ∧ ((loadSettings given.host o).run.run fs).1 = .ok s ∧
        s.validate (fs.isDirectory s.output) = .ok plans := by
  have hreads : ReadOnly (loadSettings given.host o) := readOnly_loadSettings o
  rw [(readOnly_prepare o).result_eq_iff, hreads.result_eq_iff, prepare]
  cases o.fault? with
  | some fault =>
    exact ⟨fun h => (nomatch congrArg Prod.fst h), fun h => (nomatch h.1)⟩
  | none =>
    dsimp only
    rw [run_bind_eq_ok_iff]
    constructor
    · intro ⟨loaded, next, hload, hrest⟩
      obtain rfl : fs = next := by rw [← hreads fs, hload]
      obtain ⟨checked, last, hvalidate, hend⟩ := run_bind_eq_ok_iff.mp hrest
      obtain ⟨rfl, rfl⟩ := Prod.mk.inj (Except.ok.inj (Prod.mk.inj hend).1)
      exact ⟨rfl, hload, mapError_eq_ok_iff.mp (Prod.mk.inj hvalidate).1⟩
    · intro ⟨_, hload, hvalid⟩
      refine ⟨s, fs, hload, run_bind_eq_ok_iff.mpr ⟨plans, fs, ?_, rfl⟩⟩
      rw [validateSettings_run, hvalid]
      rfl

/-- Jobs are done after the preparations and concluded. -/
theorem generate_run {schedule : Schedule} {plans : List BlockPlan} (hwet : s.dryRun = false) :
    (generate given.host schedule s plans).run fs =
      (conclude (Report.banner ++ Report.settings s plans) (warningLog plans) plans
          (((schedule plans).mapM (doJob given.host s)).run fs).1 0,
        (((schedule plans).mapM (doJob given.host s)).run fs).2) := by
  rw [generate, hwet]
  rfl

/-- A run that does not list the strategies ends with an error when the preparations do, and
otherwise with its jobs. -/
theorem withOptions_run {schedule : Schedule} {o : Options} (hlist : o.listPatterns = false) :
    (withOptions given.host schedule o).run fs =
      match ((prepare given.host o).run.run fs).1 with
      | .error error => (.failure Report.banner [] error, fs)
      | .ok (s, plans) => (generate given.host schedule s plans).run fs := by
  have hreads : ReadOnly (prepare given.host o) := readOnly_prepare o
  have hprepare : (prepare given.host o).run.run fs =
      (((prepare given.host o).run.run fs).1, fs) := hreads.result_eq_iff.mp rfl
  rw [withOptions, hlist, if_neg (by decide), StateT.run_bind, hprepare]
  cases ((prepare given.host o).run.run fs).1 with
  | error error => rfl
  | ok prepared => rfl

/-- What messages are shown does not matter to the exit code and the files. -/
theorem run_eq_withOptions {schedule : Schedule} {words : List String}
    {environmentSeed : Option String} {o : Options}
    (h : Command.options words environmentSeed = .ok o) :
    (AccessPattern.run given.host schedule words environmentSeed).run fs =
      (((withOptions given.host schedule o).run fs).1.filterLog o.debug,
        ((withOptions given.host schedule o).run fs).2) := by
  rw [AccessPattern.run, h]
  rfl

/-- A run comes to its jobs: its command line asks for a run with settings, and these are valid and
have the plans. -/
def Prepares (given : Surroundings) (fs : FileSystem) (words : List String)
    (environmentSeed : Option String) (s : Settings) (plans : List BlockPlan) : Prop :=
  ∃ o, Command.options words environmentSeed = .ok o ∧ o.listPatterns = false ∧
    ((prepare given.host o).run.run fs).1 = .ok (s, plans)

namespace Prepares

variable {schedule : Schedule} {words : List String} {environmentSeed : Option String}
  {plans : List BlockPlan}

/-- The settings of a run that comes to its jobs are valid. -/
theorem validate (h : Prepares given fs words environmentSeed s plans) :
    s.validate (fs.isDirectory s.output) = .ok plans := by
  obtain ⟨o, -, -, hprepare⟩ := h
  exact (prepare_eq_ok_iff.mp hprepare).2.2

/-- The block sizes of a run that comes to its jobs are different. -/
theorem nodup (h : Prepares given fs words environmentSeed s plans) : s.blockSizes.Nodup :=
  (Settings.validate_eq_ok_iff.mp h.validate).1.2

/-- A run that comes to its jobs has the plans of its settings. -/
theorem plans_eq (h : Prepares given fs words environmentSeed s plans) : s.plans = .ok plans :=
  (Settings.validate_eq_ok_iff.mp h.validate).2.2

/-- A run that comes to its jobs does them, in the order of the schedule, and ends in an error that
counts those that failed, if there are any. -/
theorem ends (h : Prepares given fs words environmentSeed s plans) (hwet : s.dryRun = false)
    (hschedule : (schedule plans).Perm plans) :
    let results := (((schedule plans).mapM (doJob given.host s)).run fs).1
    let outcome := ((AccessPattern.run given.host schedule words environmentSeed).run fs).1
    ((AccessPattern.run given.host schedule words environmentSeed).run fs).2 =
        (((schedule plans).mapM (doJob given.host s)).run fs).2 ∧
      (outcome.exitCode = 0 ↔ results.countP JobResult.isFailure = 0) ∧
      (results.countP JobResult.isFailure ≠ 0 → outcome.report = Report.error
        (RunError.jobs (results.countP JobResult.isFailure) plans.length).chain) := by
  have hnodup := h.nodup
  rw [← Settings.map_blockSize_of_plans h.plans_eq] at hnodup
  obtain ⟨o, hoptions, hlist, hprepare⟩ := h
  rw [run_eq_withOptions hoptions, withOptions_run hlist, hprepare]
  dsimp only
  rw [generate_run hwet]
  refine ⟨rfl, conclude_ends hnodup ?_⟩
  rw [map_blockSize_doJobs]
  exact hschedule.map _

/-- A run that comes to its jobs does them, and succeeds when none of them fails. -/
theorem run (h : Prepares given fs words environmentSeed s plans) (hwet : s.dryRun = false)
    (hschedule : (schedule plans).Perm plans) :
    ((AccessPattern.run given.host schedule words environmentSeed).run fs).2 =
        (((schedule plans).mapM (doJob given.host s)).run fs).2 ∧
      (((AccessPattern.run given.host schedule words environmentSeed).run fs).1.exitCode = 0 ↔
        ∀ r ∈ (((schedule plans).mapM (doJob given.host s)).run fs).1, r.isFailure = false) := by
  obtain ⟨hfinal, hexit, -⟩ := h.ends hwet hschedule
  refine ⟨hfinal, hexit.trans ?_⟩
  rw [List.countP_eq_zero]
  simp only [Bool.not_eq_true]

end Prepares

/-- A run with settings that succeeds comes to its jobs. -/
theorem LoadsSettings.exists_prepares {schedule : Schedule} {words : List String}
    {environmentSeed : Option String} (h : LoadsSettings given fs words environmentSeed s)
    (hsuccess :
      ((AccessPattern.run given.host schedule words environmentSeed).run fs).1.exitCode = 0) :
    ∃ plans, Prepares given fs words environmentSeed s plans := by
  obtain ⟨o, hoptions, hlist, hload⟩ := h
  rw [run_eq_withOptions hoptions, withOptions_run hlist] at hsuccess
  cases hprepare : ((prepare given.host o).run.run fs).1 with
  | error error =>
    rw [hprepare] at hsuccess
    exact absurd (show (1 : UInt32) = 0 from hsuccess) (by decide)
  | ok prepared =>
    obtain ⟨-, hloaded, -⟩ := prepare_eq_ok_iff.mp hprepare
    obtain rfl : prepared.1 = s := Except.ok.inj (hloaded.symm.trans hload)
    exact ⟨prepared.2, o, hoptions, hlist, hprepare⟩

end AccessPattern.Run
