import AccessPattern.Proofs.Run.Preparations
import AccessPattern.Proofs.Settings.DryRunSwitch
import AccessPattern.Proofs.Settings.Precedence

/-!
# How far runs come

A run either starts its jobs or ends before that, and then it has only read: whatever is wrong with
the command line, the settings file or any of the block sizes, everything is as it was. What a run
comes to does not depend on whether it is a dry run, so asking for one tells whether the jobs would
be started.
-/

namespace AccessPattern

namespace Run

/-- How far a run comes. -/
inductive Course where
  /-- The command line makes no sense, or asks for the help text or the version. -/
  | stopped (stop : Command.Stop)
  /-- The strategies are listed. -/
  | listed
  /-- The options, the settings file or the settings are refused. -/
  | refused (error : RunError)
  /-- The settings are valid, and that was all that was asked for. -/
  | rehearsed (s : Settings) (plans : List BlockPlan)
  /-- The settings are valid and the jobs are started. -/
  | working (s : Settings) (plans : List BlockPlan)
deriving DecidableEq

/-- How far a run with options comes. -/
def courseWith (given : Surroundings) (fs : FileSystem) (o : Options) : Course :=
  if o.listPatterns then .listed
  else
    match ((prepare given.host o).run.run fs).1 with
    | .error error => .refused error
    | .ok (s, plans) => if s.dryRun then .rehearsed s plans else .working s plans

/-- How far the run of a command line comes on a file system. -/
def course (given : Surroundings) (fs : FileSystem) (words : List String)
    (environmentSeed : Option String) : Course :=
  match Command.options words environmentSeed with
  | .error stop => .stopped stop
  | .ok o => courseWith given fs o

namespace Course

/-- What is seen of a run that does not start its jobs. -/
def outcome? : Course → Option Outcome
  | .stopped stop => some (.ofStop stop)
  | .listed => some (.success Report.strategies [])
  | .refused error => some (.failure Report.banner [] error)
  | .rehearsed s plans =>
    some (.success (Report.banner ++ Report.settings s plans ++ Report.dryRun) (warningLog plans))
  | .working .. => none

/-- How far a run comes that would come so far, but for being a dry run. -/
def rehearse : Course → Course
  | .working s plans | .rehearsed s plans => .rehearsed { s with dryRun := true } plans
  | early => early

end Course

variable {given : Surroundings} {fs : FileSystem} {words : List String}
  {environmentSeed : Option String} {s : Settings} {plans : List BlockPlan}

/-- All warnings are shown. -/
theorem filter_isShown_warningLog (debug : Bool) (plans : List BlockPlan) :
    (warningLog plans).filter (LogLine.isShown debug) = warningLog plans := by
  rw [List.filter_eq_self, warningLog, List.forall_mem_map]
  exact fun warning _ => Bool.or_true debug

/-- A run with options that does not start its jobs only reads. -/
theorem withOptions_of_outcome? {o : Options} {outcome : Outcome}
    (h : (courseWith given fs o).outcome? = some outcome) (schedule : Schedule) :
    (withOptions given.host schedule o).run fs = (outcome, fs) ∧
      outcome.filterLog o.debug = outcome := by
  rw [courseWith] at h
  split at h
  · next hlist =>
    rw [withOptions, if_pos hlist, ← Option.some.inj h]
    exact ⟨rfl, rfl⟩
  · next hlist =>
    rw [withOptions_run (eq_false_of_ne_true hlist)]
    cases hprepare : ((prepare given.host o).run.run fs).1 with
    | error error =>
      rw [hprepare] at h
      rw [← Option.some.inj h]
      exact ⟨rfl, rfl⟩
    | ok prepared =>
      obtain ⟨s, plans⟩ := prepared
      rw [hprepare] at h
      dsimp only at h ⊢
      split at h
      · next hdry =>
        rw [generate, if_pos hdry, ← Option.some.inj h]
        refine ⟨rfl, ?_⟩
        rw [Outcome.filterLog, Outcome.success, filter_isShown_warningLog]
      · contradiction

/-- A run that does not start its jobs only reads. -/
theorem run_of_outcome? {outcome : Outcome}
    (h : (course given fs words environmentSeed).outcome? = some outcome) (schedule : Schedule) :
    (AccessPattern.run given.host schedule words environmentSeed).run fs = (outcome, fs) := by
  rw [course] at h
  cases hoptions : Command.options words environmentSeed with
  | error stop =>
    rw [hoptions] at h
    rw [AccessPattern.run, hoptions, ← Option.some.inj h]
    rfl
  | ok o =>
    rw [hoptions] at h
    obtain ⟨hrun, hshown⟩ := withOptions_of_outcome? h schedule
    rw [run_eq_withOptions hoptions, hrun, hshown]

/-- A run with options starts its jobs when it comes to them and is no dry run. -/
theorem courseWith_eq_working_iff {o : Options} :
    courseWith given fs o = .working s plans ↔
      o.listPatterns = false ∧ ((prepare given.host o).run.run fs).1 = .ok (s, plans) ∧
        s.dryRun = false := by
  rw [courseWith]
  cases o.listPatterns with
  | true => simp
  | false =>
    cases ((prepare given.host o).run.run fs).1 with
    | error error => simp
    | ok prepared =>
      obtain ⟨loaded, planned⟩ := prepared
      simp only [Bool.false_eq_true, if_false, true_and, Except.ok.injEq, Prod.mk.injEq]
      split
      · next hdry =>
        refine ⟨Course.noConfusion, ?_⟩
        rintro ⟨⟨rfl, rfl⟩, hwet⟩
        exact absurd (hwet ▸ hdry) Bool.false_ne_true
      · next hwet =>
        rw [Course.working.injEq]
        refine ⟨fun h => ⟨h, h.1 ▸ eq_false_of_ne_true hwet⟩, fun h => h.1⟩

/-- A run starts its jobs when it comes to them and is no dry run. -/
theorem course_eq_working_iff :
    course given fs words environmentSeed = .working s plans ↔
      Prepares given fs words environmentSeed s plans ∧ s.dryRun = false := by
  rw [course, Prepares]
  cases Command.options words environmentSeed with
  | error stop => simp
  | ok o =>
    simp only [Except.ok.injEq, exists_eq_left', courseWith_eq_working_iff, and_assoc]

/-- A run that starts its jobs leaves what they leave. -/
theorem run_of_working (h : course given fs words environmentSeed = .working s plans)
    (schedule : Schedule) :
    ((AccessPattern.run given.host schedule words environmentSeed).run fs).2 =
      (((schedule plans).mapM (doJob given.host s)).run fs).2 := by
  obtain ⟨⟨o, hoptions, hlist, hprepare⟩, hwet⟩ := course_eq_working_iff.mp h
  rw [run_eq_withOptions hoptions, withOptions_run hlist, hprepare]
  dsimp only
  rw [generate_run hwet]

/-- A run that does not start its jobs is a success when it was asked for a text or for a dry run. -/
theorem exitCode_eq_zero_iff {outcome : Outcome}
    (h : (course given fs words environmentSeed).outcome? = some outcome) :
    outcome.exitCode = 0 ↔
      (∃ s plans, course given fs words environmentSeed = .rehearsed s plans) ∨
        course given fs words environmentSeed = .listed ∨
        course given fs words environmentSeed = .stopped .help ∨
        course given fs words environmentSeed = .stopped .version := by
  generalize course given fs words environmentSeed = reached at h ⊢
  cases reached with
  | stopped stop => cases stop <;> simp [← Option.some.inj h, Outcome.ofStop]
  | listed => simp [← Option.some.inj h, Outcome.success]
  | refused error => simp [← Option.some.inj h, Outcome.failure]
  | rehearsed s plans => simp [← Option.some.inj h, Outcome.success]
  | working s plans => contradiction

/-- Options that ask for a dry run give the settings that they give without. -/
theorem applyTo_askDryRun (o : Options) (s : Settings) :
    { o with dryRun := true }.applyTo s =
      (o.applyTo s).map fun s => { s with dryRun := true } := by
  rw [Options.applyTo, Options.applyTo]
  dsimp only
  cases Options.sizeOver .size o.size s.size with
  | error error => rfl
  | ok size =>
    cases Options.blockSizesOver o.blockSizes s.blockSizes with
    | error error => rfl
    | ok blockSizes =>
      cases Options.sizeOver .pageSize o.pageSize s.geometry.pageSize with
      | error error => rfl
      | ok pageSize => rfl

/-- The settings that options are put over: those of the settings file if there is one. -/
def baseSettings (fs : FileSystem) (o : Options) : Except RunError Settings :=
  match o.settingsFile with
  | none => .ok Settings.standard
  | some path => (Settings.ofFile path (fs.read path)).mapError .file

/-- The settings that a run with options loads. -/
def loadedSettings (fs : FileSystem) (o : Options) : Except RunError Settings := do
  let base ← baseSettings fs o
  (o.applyTo base).mapError .override

/-- Settings are loaded by putting the options over what the file system holds. -/
theorem loadSettings_run (o : Options) :
    (loadSettings given.host o).run.run fs = (loadedSettings fs o, fs) := by
  rw [loadSettings, loadedSettings, baseSettings]
  cases o.settingsFile with
  | none => rfl
  | some path =>
    dsimp only
    rw [run_bind, show (liftM (given.host.read path) :
      ExceptT RunError (StateM FileSystem) _).run.run fs = (.ok (fs.read path), fs) from rfl]
    dsimp only
    cases Settings.ofFile path (fs.read path) with
    | error error => rfl
    | ok base => rfl

/-- The settings loaded for a dry run are those of the run. -/
theorem loadedSettings_askDryRun (o : Options) :
    loadedSettings fs { o with dryRun := true } =
      (loadedSettings fs o).map fun s => { s with dryRun := true } := by
  rw [loadedSettings, loadedSettings, show baseSettings fs { o with dryRun := true } =
    baseSettings fs o from rfl]
  cases baseSettings fs o with
  | error error => rfl
  | ok base =>
    simp only [bind, Except.bind, applyTo_askDryRun]
    cases o.applyTo base with
    | error error => rfl
    | ok s => rfl

/-- A dry run comes to the plans that the run comes to. -/
theorem prepare_askDryRun (o : Options) :
    ((prepare given.host { o with dryRun := true }).run.run fs).1 =
      ((prepare given.host o).run.run fs).1.map fun (s, plans) =>
        ({ s with dryRun := true }, plans) := by
  rw [prepare, prepare, show ({ o with dryRun := true } : Options).fault? = o.fault? from rfl]
  cases o.fault? with
  | some fault => rfl
  | none =>
    dsimp only
    rw [run_bind, run_bind, loadSettings_run, loadSettings_run, loadedSettings_askDryRun]
    cases loadedSettings fs o with
    | error error => rfl
    | ok s =>
      simp only [Except.map, run_bind, validateSettings_run]
      rw [show ({ s with dryRun := true } : Settings).validate (fs.isDirectory s.output) =
        s.validate (fs.isDirectory s.output) from rfl]
      cases s.validate (fs.isDirectory s.output) with
      | error fault => rfl
      | ok plans => rfl

/-- A dry run with options comes as far as the run, up to the jobs. -/
theorem courseWith_askDryRun (o : Options) :
    courseWith given fs { o with dryRun := true } = (courseWith given fs o).rehearse := by
  rw [courseWith, courseWith, prepare_askDryRun]
  dsimp only
  split
  · rfl
  · cases ((prepare given.host o).run.run fs).1 with
    | error error => rfl
    | ok prepared =>
      obtain ⟨s, plans⟩ := prepared
      simp only [Except.map, if_true]
      split
      · rfl
      · rfl

/-- The switch for a dry run in front of a command line keeps its run from starting jobs, and
changes nothing else about how far it comes. -/
theorem course_cons_dryRun (h : "--dry-run" ∉ words) :
    course given fs ("--dry-run" :: words) environmentSeed =
      (course given fs words environmentSeed).rehearse := by
  rw [course, course, Command.options_cons_dryRun h]
  cases Command.options words environmentSeed with
  | error stop => rfl
  | ok o => exact courseWith_askDryRun o

/-- Settings ask for a dry run when the options do or what they were put over did. -/
theorem dryRun_of_applyTo {o : Options} {base : Settings} (h : o.applyTo base = .ok s) :
    s.dryRun = (o.dryRun || base.dryRun) := by
  rw [Bool.eq_iff_iff, Bool.or_eq_true]
  exact (Options.overrides_applyTo h .dryRun).on_iff

/-- Every run would end before its jobs as a dry run. -/
theorem Course.exists_outcome?_rehearse (reached : Course) :
    ∃ outcome, reached.rehearse.outcome? = some outcome := by
  cases reached <;> exact ⟨_, rfl⟩

/-- A run whose options and settings file ask for no dry run is none. -/
theorem dryRun_of_loadSettings {o : Options} (ho : o.dryRun = false)
    (hfile : ∀ path base, o.settingsFile = some path →
      Settings.ofFile path (fs.read path) = .ok base → base.dryRun = false)
    (h : ((loadSettings given.host o).run.run fs).1 = .ok s) : s.dryRun = false := by
  rw [loadSettings_run, loadedSettings] at h
  obtain ⟨base, hbase, hmerged⟩ := bind_eq_ok_iff.mp h
  rw [dryRun_of_applyTo (mapError_eq_ok_iff.mp hmerged), ho, Bool.false_or]
  rw [baseSettings] at hbase
  split at hbase
  · exact Except.ok.inj hbase ▸ rfl
  · next path hpath => exact hfile path base hpath (mapError_eq_ok_iff.mp hbase)

/-- A run whose command line and settings file ask for no dry run is none. -/
theorem course_ne_rehearsed (hwords : "--dry-run" ∉ words)
    (hfile : ∀ o path base, Command.options words environmentSeed = .ok o →
      o.settingsFile = some path → Settings.ofFile path (fs.read path) = .ok base →
        base.dryRun = false) :
    course given fs words environmentSeed ≠ .rehearsed s plans := by
  rw [course]
  cases hoptions : Command.options words environmentSeed with
  | error stop => exact fun h => nomatch h
  | ok o =>
    change courseWith given fs o ≠ _
    rw [courseWith]
    split
    · exact fun h => nomatch h
    · split
      · exact fun h => nomatch h
      · next loaded planned hprepare =>
        have hwet := dryRun_of_loadSettings (Command.dryRun_of_options hwords hoptions)
          (fun path base => hfile o path base hoptions) (prepare_eq_ok_iff.mp hprepare).2.1
        rw [hwet]
        exact fun h => nomatch h

end Run

/-- Nothing is written before the whole request is valid. A run that does not start its jobs ends as
`Run.Course.outcome?` says and leaves everything as it was; one that starts its jobs has loaded
settings without a fault and has the plans of all block sizes, and leaves what its jobs leave.

Where neither the command line nor the settings file asks for a dry run, putting the switch for one
in front of the command line tells how the run comes out: it then succeeds if and only if the run
would start its jobs, or would only list the strategies or print the help text or the version. -/
theorem nothing_written_before_jobs (given : Surroundings) (fs : FileSystem) (words : List String)
    (environmentSeed : Option String) :
    (∀ outcome, (Run.course given fs words environmentSeed).outcome? = some outcome →
      ∀ schedule, (run given.host schedule words environmentSeed).run fs = (outcome, fs)) ∧
    (∀ s plans, Run.course given fs words environmentSeed = .working s plans →
      s.validate (fs.isDirectory s.output) = .ok plans ∧ s.dryRun = false ∧
      ∀ schedule, ((run given.host schedule words environmentSeed).run fs).2 =
        (((schedule plans).mapM (Run.doJob given.host s)).run fs).2) ∧
    ("--dry-run" ∉ words →
      (∀ o path base, Command.options words environmentSeed = .ok o →
        o.settingsFile = some path → Settings.ofFile path (fs.read path) = .ok base →
          base.dryRun = false) →
      ∀ schedule,
        ((run given.host schedule ("--dry-run" :: words) environmentSeed).run fs).2 = fs ∧
        (((run given.host schedule ("--dry-run" :: words) environmentSeed).run fs).1.exitCode = 0 ↔
          (∃ s plans, Run.course given fs words environmentSeed = .working s plans) ∨
          Run.course given fs words environmentSeed = .listed ∨
          Run.course given fs words environmentSeed = .stopped .help ∨
          Run.course given fs words environmentSeed = .stopped .version)) := by
  refine ⟨fun outcome => Run.run_of_outcome?, fun s plans h => ?_,
    fun hwords hfile schedule => ?_⟩
  · obtain ⟨hprepares, hwet⟩ := Run.course_eq_working_iff.mp h
    exact ⟨hprepares.validate, hwet, Run.run_of_working h⟩
  · have hcourse : Run.course given fs ("--dry-run" :: words) environmentSeed =
        (Run.course given fs words environmentSeed).rehearse := Run.course_cons_dryRun hwords
    obtain ⟨outcome, houtcome⟩ :=
      (Run.course given fs words environmentSeed).exists_outcome?_rehearse
    rw [← hcourse] at houtcome
    rw [Run.run_of_outcome? houtcome, Run.exitCode_eq_zero_iff houtcome, hcourse]
    have hwet (s plans) : Run.course given fs words environmentSeed ≠ .rehearsed s plans :=
      Run.course_ne_rehearsed hwords hfile
    generalize Run.course given fs words environmentSeed = reached at hwet ⊢
    cases reached with
    | rehearsed s plans => exact absurd rfl (hwet s plans)
    | stopped | listed | refused | working => simp [Run.Course.rehearse]

/-- Over a settings file that asks for a manifest, two block sizes are worked on, as a dry run told
before. A third one that does not divide the extent keeps all of them from being worked on, and a
dry run tells this too. -/
theorem nothing_written_before_jobs_third_block_size :
    let given : Surroundings := ⟨fun _ => 7, fun _ => .epoch⟩
    let fs : FileSystem :=
      ⟨[(["d"], .directory),
        (["d", "c.toml"], .file (.ofText "[output]\nmanifest = true\n"))], ["d"]⟩
    let words := ["-c", "c.toml", "-s", "64", "--page-size", "32", "-b", "16,32"]
    let refused := ["-c", "c.toml", "-s", "64", "--page-size", "32", "-b", "16,32,24"]
    "--dry-run" ∉ words ∧ "--dry-run" ∉ refused ∧
      (∃ s plans, Run.course given fs words none = .working s plans ∧
        s.validate (fs.isDirectory s.output) = .ok plans) ∧
      Run.course given fs refused none =
        .refused (.settings (.request (.plan (.unevenExtent 24 64)))) ∧
      ∀ schedule, ((run given.host schedule ("--dry-run" :: words) none).run fs).2 = fs ∧
        ((run given.host schedule refused none).run fs).2 = fs ∧
        ((run given.host schedule ("--dry-run" :: refused) none).run fs).1.exitCode ≠ 0 := by
  intro given fs words refused
  have hwords : "--dry-run" ∉ words := by decide
  have hrefused : "--dry-run" ∉ refused := by decide
  have hcourse : Run.course given fs refused none =
      .refused (.settings (.request (.plan (.unevenExtent 24 64)))) := by decide +kernel
  have hsource (words : List String) (hpath : (Command.options words none).map (·.settingsFile) =
      .ok (some "c.toml")) (o : Options) (path : String) (base : Settings)
      (hoptions : Command.options words none = .ok o) (hgiven : o.settingsFile = some path)
      (hbase : Settings.ofFile path (fs.read path) = .ok base) : base.dryRun = false := by
    rw [hoptions] at hpath
    obtain rfl := Option.some.inj (hgiven.symm.trans (Except.ok.inj hpath))
    have hread : (Settings.ofFile "c.toml" (fs.read "c.toml")).map Settings.dryRun = .ok false := by
      decide +kernel
    rw [hbase] at hread
    exact Except.ok.inj hread
  obtain ⟨-, hworking, hdry⟩ := nothing_written_before_jobs given fs words none
  obtain ⟨hends, -, hdryRefused⟩ := nothing_written_before_jobs given fs refused none
  have hdry := hdry hwords (hsource words (by decide +kernel))
  have hdryRefused := hdryRefused hrefused (hsource refused (by decide +kernel))
  refine ⟨hwords, hrefused, ?_, hcourse, fun schedule => ⟨(hdry schedule).1, ?_, ?_⟩⟩
  · have hexit : ((run given.host id ("--dry-run" :: words) none).run fs).1.exitCode = 0 := by
      decide +kernel
    obtain ⟨s, plans, h⟩ | h | h | h := (hdry id).2.mp hexit
    · exact ⟨s, plans, h, (hworking s plans h).1⟩
    · exact absurd h (by decide +kernel)
    · exact absurd h (by decide +kernel)
    · exact absurd h (by decide +kernel)
  · rw [hends _ (congrArg Run.Course.outcome? hcourse)]
  · rw [Ne, (hdryRefused schedule).2, hcourse]
    simp

end AccessPattern
