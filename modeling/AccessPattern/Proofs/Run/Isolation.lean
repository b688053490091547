import AccessPattern.Proofs.Run.Fate
import AccessPattern.Proofs.Run.OutputFiles
import AccessPattern.Proofs.Settings.DistinctPaths

/-!
# Jobs that fail beside others

The jobs of a run do not get in each other's way, whether they succeed or fail. All output files
stand in one directory under different names, so the files that some jobs store are no obstacle to
the others and no help: each job comes to the fate that is decided before the first of them is done.

The induction is over the order of the jobs. What it carries along is that all files stored so far
are output files of block sizes whose turn is over.
-/

namespace AccessPattern

namespace Run

open FileSystem

/-- How the job of a plan ends. -/
def fateOf (given : Surroundings) (s : Settings) (fs : FileSystem) (plan : BlockPlan) : Job.Fate :=
  (jobFor given s plan).fate (given.timeOf plan.blockSize)
    (fs.writeFault? (s.testsetPath plan.blockSize)) (fs.writeFault? (s.manifestPath plan.blockSize))

/-- The result of the job of a plan. -/
def resultOf (given : Surroundings) (s : Settings) (fs : FileSystem) (plan : BlockPlan) :
    JobResult :=
  JobResult.ofJob (jobFor given s plan) (fateOf given s fs plan).result

/-- The files that the jobs of plans write. -/
def writtenBy (given : Surroundings) (s : Settings) (fs : FileSystem) (plans : List BlockPlan) :
    List (String × Bytes) :=
  plans.flatMap fun plan => (fateOf given s fs plan).written

/-- Files were stored at output paths of block sizes, but not of those of the plans to come. -/
def StoredBefore (s : Settings) (fs : FileSystem) (plans : List BlockPlan)
    (files : List (Location × Bytes)) : Prop :=
  ∀ file ∈ files, ∃ b ∈ s.blockSizes, b ∉ plans.map (·.blockSize) ∧
    ∃ isManifest, Writable fs (s.outputPath b isManifest) file.1

variable {given : Surroundings} {s : Settings} {fs : FileSystem} {plan : BlockPlan}
  {plans order : List BlockPlan} {files : List (Location × Bytes)}

namespace StoredBefore

/-- Fewer plans may be to come. -/
theorem of_subset (h : StoredBefore s fs plans files) (hsubset : order ⊆ plans) :
    StoredBefore s fs order files := by
  intro file hfile
  obtain ⟨b, hb, hother, hwritable⟩ := h file hfile
  exact ⟨b, hb, fun hmem => hother (List.map_subset _ hsubset hmem), hwritable⟩

/-- More files may have been stored. -/
theorem append {others : List (Location × Bytes)} (h : StoredBefore s fs plans files)
    (hothers : StoredBefore s fs plans others) : StoredBefore s fs plans (files ++ others) :=
  List.forall_mem_append.mpr ⟨h, hothers⟩

/-- All output files stand in one directory. -/
theorem beside (h : StoredBefore s fs plans files) {directory : List Char}
    {name : UInt64 → List Char} (hnames : s.LastNames directory name) :
    fs.Beside directory files := by
  intro file hfile
  obtain ⟨b, hb, -, isManifest, hwritable⟩ := h file hfile
  exact ⟨_, _, hnames.endsIn_outputPath hb isManifest, hwritable⟩

/-- Files at output paths can be written. -/
theorem writableFiles (h : StoredBefore s fs plans files) : fs.WritableFiles files := by
  obtain ⟨directory, name, hnames⟩ := s.exists_lastNames
  exact (h.beside hnames).writableFiles

/-- Files of jobs that are over do not matter to the testset of the next. Where there are such
files there is another block size, so the path of the testset does not end in a slash. -/
theorem locateFile_testset (h : StoredBefore s fs (plan :: plans) files)
    (hplan : plan.blockSize ∈ s.blockSizes) :
    (fs.store files).locateFile (s.testsetPath plan.blockSize) =
      fs.locateFile (s.testsetPath plan.blockSize) := by
  obtain ⟨directory, name, hnames, hproper⟩ := s.exists_lastNames_not_idle
  cases files with
  | nil => rfl
  | cons file later =>
    obtain ⟨b, hb, hother, -⟩ := h file List.mem_cons_self
    have hdifferent : plan.blockSize ≠ b := fun heq => hother (by simp [heq])
    have hidle : Path.isIdle (name plan.blockSize) = false :=
      hproper plan.blockSize hplan b hb hdifferent
    refine (h.beside hnames).locateFile_store (hnames.endsIn _ hplan) fun hnil => ?_
    rw [hnil] at hidle
    contradiction

/-- Output files do not matter to a manifest. -/
theorem locateFile_manifest (h : StoredBefore s fs plans files) {b : UInt64}
    (hb : b ∈ s.blockSizes) :
    (fs.store files).locateFile (s.manifestPath b) = fs.locateFile (s.manifestPath b) := by
  obtain ⟨directory, name, hnames⟩ := s.exists_lastNames
  exact (h.beside hnames).locateFile_store (hnames.endsIn b hb).manifest (by simp)

end StoredBefore

/-- What a job writes is among the files that it is to write. -/
theorem written_subset_targetsFor :
    (fateOf given s fs plan).written ⊆ targetsFor given s plan :=
  Job.written_sublist_targets.subset

/-- What a job writes can be written, devices apart. -/
theorem accepts_written_fateOf (hplain : ∀ target ∈ targetsFor given s plan, fs.Plain target.1) :
    fs.Accepts (fateOf given s fs plan).written :=
  Job.accepts_written hplain

/-- What a job writes was stored before the jobs of other block sizes that are to come. -/
theorem storedBefore_place (hplan : plan.blockSize ∈ s.blockSizes)
    (hother : plan.blockSize ∉ plans.map (·.blockSize))
    (hplain : ∀ target ∈ targetsFor given s plan, fs.Plain target.1) :
    StoredBefore s fs plans (fs.place (fateOf given s fs plan).written) := by
  intro file hfile
  obtain ⟨path, hwritten, hlocate⟩ := mem_place_iff.mp hfile
  obtain ⟨location, hwritable⟩ := accepts_written_fateOf hplain _ hwritten
  obtain rfl : location = file.1 := Except.ok.inj (hwritable.locateFile.symm.trans hlocate)
  obtain ⟨isManifest, hpath⟩ := path_of_mem_targetsFor (written_subset_targetsFor hwritten)
  exact ⟨plan.blockSize, hplan, hother, isManifest, hpath ▸ hwritable⟩

/-- After jobs of other block sizes a job comes to its fate. -/
theorem doJob_fate (hplan : plan.blockSize ∈ s.blockSizes)
    (hplain : ∀ target ∈ targetsFor given s plan, fs.Plain target.1)
    (h : StoredBefore s fs (plan :: plans) files) :
    (doJob given.host s plan).run (fs.store files) =
      (resultOf given s fs plan,
        fs.store (files ++ fs.place (fateOf given s fs plan).written)) := by
  have hmanifest (location : Location) (bytes : Bytes)
      (hwritable : Writable fs (s.testsetPath plan.blockSize) location) :
      (fs.store (files ++ [(location, bytes)])).locateFile (s.manifestPath plan.blockSize) =
        fs.locateFile (s.manifestPath plan.blockSize) := by
    have hown : StoredBefore s fs [] [(location, bytes)] :=
      List.forall_mem_singleton.mpr ⟨plan.blockSize, hplan, List.not_mem_nil, false, hwritable⟩
    exact ((h.of_subset (List.nil_subset _)).append hown).locateFile_manifest hplan
  have hrun : ((jobFor given s plan).run given.host).run.run (fs.store files) =
      ((fateOf given s fs plan).result,
        fs.store (files ++ fs.place (fateOf given s fs plan).written)) :=
    (jobFor given s plan).run_store_fate h.writableFiles hplain (h.locateFile_testset hplan)
      hmanifest
  rw [doJob_run, hrun]
  rfl

/-- Jobs done one after the other all come to their fates. -/
theorem doJobs_fate (hnodup : (order.map (·.blockSize)).Nodup)
    (hsizes : ∀ plan ∈ order, plan.blockSize ∈ s.blockSizes)
    (hplain : ∀ plan ∈ order, ∀ target ∈ targetsFor given s plan, fs.Plain target.1)
    (h : StoredBefore s fs order files) :
    (order.mapM (doJob given.host s)).run (fs.store files) =
      (order.map (resultOf given s fs),
        fs.store (files ++ fs.place (writtenBy given s fs order))) := by
  induction order generalizing files with
  | nil =>
    rw [writtenBy, List.flatMap_nil, FileSystem.place_nil, List.append_nil]
    rfl
  | cons plan order ih =>
    rw [List.map_cons, List.nodup_cons] at hnodup
    rw [List.forall_mem_cons] at hsizes hplain
    have hstored := (h.of_subset (List.subset_cons_self plan order)).append
      (storedBefore_place hsizes.1 hnodup.1 hplain.1)
    rw [doJobs_cons_run, doJob_fate hsizes.1 hplain.1 h, ih hnodup.2 hsizes.2 hplain.2 hstored,
      List.append_assoc, ← place_append]
    rfl

/-- All files that the jobs write can be written, devices apart. -/
theorem accepts_writtenBy
    (hplain : ∀ plan ∈ order, ∀ target ∈ targetsFor given s plan, fs.Plain target.1) :
    fs.Accepts (writtenBy given s fs order) :=
  List.forall_mem_flatMap.mpr fun plan hplan => accepts_written_fateOf (hplain plan hplan)

/-- No two of the files that the jobs write are at one location. -/
theorem apart_writtenBy (hnodup : (order.map (·.blockSize)).Nodup)
    (hsizes : ∀ plan ∈ order, plan.blockSize ∈ s.blockSizes) :
    fs.Apart (writtenBy given s fs order) :=
  (apart_flatMap_targetsFor hnodup hsizes).sublist <|
    List.Sublist.flatMap_right order fun _ _ => Job.written_sublist_targets

/-- What a job writes is there in the end. -/
theorem holds_of_mem_written (hnodup : (order.map (·.blockSize)).Nodup)
    (hsizes : ∀ plan ∈ order, plan.blockSize ∈ s.blockSizes)
    (hplain : ∀ plan ∈ order, ∀ target ∈ targetsFor given s plan, fs.Plain target.1)
    (hplan : plan ∈ order) {target : String × Bytes}
    (htarget : target ∈ (fateOf given s fs plan).written) :
    (fs.store (fs.place (writtenBy given s fs order))).Holds target.1 target.2 :=
  (accepts_writtenBy hplain).holds_store (apart_writtenBy hnodup hsizes)
    (List.mem_flatMap_of_mem hplan htarget)

/-- The files that the jobs write are stored at output paths. -/
theorem storedBefore_place_writtenBy (hsizes : ∀ plan ∈ order, plan.blockSize ∈ s.blockSizes)
    (hplain : ∀ plan ∈ order, ∀ target ∈ targetsFor given s plan, fs.Plain target.1) :
    StoredBefore s fs [] (fs.place (writtenBy given s fs order)) := by
  intro file hfile
  obtain ⟨path, htarget, hlocate⟩ := mem_place_iff.mp hfile
  obtain ⟨plan, hplan, hwritten⟩ := List.mem_flatMap.mp htarget
  exact storedBefore_place (hsizes plan hplan) List.not_mem_nil (hplain plan hplan) file
    (mem_place_iff.mpr ⟨path, hwritten, hlocate⟩)

/-- Where the job of a block size does not write, no other job does. -/
theorem notMem_place_writtenBy (hnodup : (order.map (·.blockSize)).Nodup)
    (hsizes : ∀ plan ∈ order, plan.blockSize ∈ s.blockSizes) (hplan : plan ∈ order)
    {isManifest : Bool} {location : Location}
    (hlocate : fs.locateFile (s.outputPath plan.blockSize isManifest) = .ok location)
    (hnot : ∀ bytes,
      (s.outputPath plan.blockSize isManifest, bytes) ∉ (fateOf given s fs plan).written) :
    location ∉ (fs.place (writtenBy given s fs order)).map Prod.fst := by
  intro hmem
  obtain ⟨file, hfile, rfl⟩ := List.mem_map.mp hmem
  obtain ⟨path, htarget, hplace⟩ := mem_place_iff.mp hfile
  obtain ⟨other, hother, hwritten⟩ := List.mem_flatMap.mp htarget
  obtain ⟨kind, rfl⟩ : ∃ kind, path = s.outputPath other.blockSize kind :=
    path_of_mem_targetsFor (written_subset_targetsFor hwritten)
  by_cases hsame : plan.blockSize = other.blockSize ∧ isManifest = kind
  · obtain ⟨hsize, rfl⟩ := hsame
    obtain rfl : plan = other := List.inj_on_of_nodup_map hnodup hplan hother hsize
    exact hnot file.2 hwritten
  · exact Settings.outputPath_location_ne (hsizes plan hplan) (hsizes other hother) hsame hlocate
      hplace rfl

/-- At the output paths of a block size is found what the fate of its job says. -/
theorem found_outputPath (hnodup : (order.map (·.blockSize)).Nodup)
    (hsizes : ∀ plan ∈ order, plan.blockSize ∈ s.blockSizes)
    (hplain : ∀ plan ∈ order, ∀ target ∈ targetsFor given s plan, fs.Plain target.1)
    (hplan : plan ∈ order) (isManifest : Bool) :
    (fs.store (fs.place (writtenBy given s fs order))).found
        (s.outputPath plan.blockSize isManifest) =
      (fateOf given s fs plan).found (s.outputPath plan.blockSize isManifest)
        (fs.found (s.outputPath plan.blockSize isManifest)) := by
  rw [Job.Fate.found]
  split
  · next bytes hlookup =>
    have hwritten : (s.outputPath plan.blockSize isManifest, bytes) ∈
        (fateOf given s fs plan).written := by
      obtain ⟨before, after, heq, -⟩ := List.lookup_eq_some_iff.mp hlookup
      exact heq ▸ List.mem_append_right before List.mem_cons_self
    exact (holds_of_mem_written hnodup hsizes hplain hplan hwritten).found_eq
  · next hlookup =>
    obtain ⟨directory, name, hnames⟩ := s.exists_lastNames
    have hnot (bytes : Bytes) : (s.outputPath plan.blockSize isManifest, bytes) ∉
        (fateOf given s fs plan).written := by
      intro hwritten
      simpa using List.lookup_eq_none_iff.mp hlookup _ hwritten
    exact ((storedBefore_place_writtenBy hsizes hplain).beside hnames).found_store_of_notMem
      (hnames.endsIn_outputPath (hsizes plan hplan) isManifest)
      fun location hlocate => notMem_place_writtenBy hnodup hsizes hplan hlocate hnot

/-- The jobs of a run that comes to them end as their fates say, in any order. -/
theorem Prepares.doJobs_fate {words : List String} {environmentSeed : Option String}
    (h : Prepares given fs words environmentSeed s plans)
    (hplain : ∀ b ∈ s.blockSizes, fs.Plain (s.testsetPath b) ∧
      (s.manifest → fs.Plain (s.manifestPath b))) (horder : order.Perm plans) :
    (order.mapM (doJob given.host s)).run fs =
        (order.map (resultOf given s fs), fs.store (fs.place (writtenBy given s fs order))) ∧
      ∀ plan ∈ plans,
        (∀ isManifest, (fs.store (fs.place (writtenBy given s fs order))).found
            (s.outputPath plan.blockSize isManifest) =
          (fateOf given s fs plan).found (s.outputPath plan.blockSize isManifest)
            (fs.found (s.outputPath plan.blockSize isManifest))) ∧
        ∀ target ∈ (fateOf given s fs plan).written,
          (fs.store (fs.place (writtenBy given s fs order))).Holds target.1 target.2 := by
  have hblockSizes := Settings.map_blockSize_of_plans h.plans_eq
  have hnodup : (order.map (·.blockSize)).Nodup := by
    rw [(horder.map _).nodup_iff, hblockSizes]
    exact h.nodup
  have hsizes : ∀ plan ∈ order, plan.blockSize ∈ s.blockSizes := fun plan hplan => by
    rw [← hblockSizes]
    exact List.mem_map_of_mem (horder.mem_iff.mp hplan)
  have hplain : ∀ plan ∈ order, ∀ target ∈ targetsFor given s plan, fs.Plain target.1 :=
    fun plan hplan _ => plain_of_mem_targetsFor (hplain _ (hsizes plan hplan))
  refine ⟨Run.doJobs_fate hnodup hsizes hplain (List.forall_mem_nil _), fun plan hplan => ?_⟩
  have hplan := horder.mem_iff.mpr hplan
  exact ⟨found_outputPath hnodup hsizes hplain hplan,
    fun target htarget => holds_of_mem_written hnodup hsizes hplain hplan htarget⟩

end Run

/-- The jobs of a run that comes to them end independently of each other, in whatever order they are
done. How the job of a plan ends is its fate: the plan and its seed decide it together with what keeps
files from being written at its own two paths before the run, if anything does. What is found at
these paths in the end is what the fate put there or what was found before, and a job that does not
fail leaves all its files. The run succeeds when no job fails, and otherwise counts those that do.

There may be anything at the output paths but devices. -/
theorem jobs_end_independently {given : Surroundings} {fs : FileSystem} {words : List String}
    {environmentSeed : Option String} {s : Settings} {plans : List BlockPlan} {schedule : Schedule}
    (hprepares : Run.Prepares given fs words environmentSeed s plans) (hwet : s.dryRun = false)
    (hplain : ∀ b ∈ s.blockSizes, fs.Plain (s.testsetPath b) ∧
      (s.manifest → fs.Plain (s.manifestPath b)))
    (hschedule : (schedule plans).Perm plans) :
    let fate := Run.fateOf given s fs
    let outcome := ((run given.host schedule words environmentSeed).run fs).1
    let final := ((run given.host schedule words environmentSeed).run fs).2
    let failed := plans.countP fun plan => (fate plan).failed
    (((schedule plans).mapM (Run.doJob given.host s)).run fs).1 =
        (schedule plans).map (fun plan =>
          JobResult.ofJob (Run.jobFor given s plan) (fate plan).result) ∧
      (∀ plan ∈ plans, ∀ isManifest,
        final.found (s.outputPath plan.blockSize isManifest) =
          (fate plan).found (s.outputPath plan.blockSize isManifest)
            (fs.found (s.outputPath plan.blockSize isManifest))) ∧
      (∀ plan ∈ plans, (fate plan).failed = false →
        ∀ target ∈ Run.targetsFor given s plan, final.Holds target.1 target.2) ∧
      (outcome.exitCode = 0 ↔ failed = 0) ∧
      (failed ≠ 0 → outcome.report =
        Report.error [s!"{failed} of {s.blockSizes.length} testsets failed"]) := by
  intro fate outcome final failed
  obtain ⟨hfinal, hends⟩ := hprepares.ends hwet hschedule
  obtain ⟨hjobs, hleaves⟩ := hprepares.doJobs_fate hplain hschedule
  rw [hjobs] at hfinal hends
  change final = fs.store (fs.place (Run.writtenBy given s fs (schedule plans))) at hfinal
  have hfailed : ((schedule plans).map (Run.resultOf given s fs)).countP JobResult.isFailure =
      failed := by
    rw [List.countP_map]
    exact hschedule.countP_eq _
  have hlength : plans.length = s.blockSizes.length := by
    rw [← Settings.map_blockSize_of_plans hprepares.plans_eq, List.length_map]
  rw [hfailed, hlength] at hends
  rw [hjobs, hfinal]
  refine ⟨rfl, fun plan hplan => (hleaves plan hplan).1, fun plan hplan hsucceeds => ?_, hends⟩
  rw [← show (fate plan).written = Run.targetsFor given s plan from
    Job.written_of_not_failed hsucceeds]
  exact (hleaves plan hplan).2

/-- One testset has a directory in its place and another has one in the place of its manifest. Their
jobs fail, the second after its testset is written, and the third job leaves both of its files. -/
theorem jobs_end_independently_two_directories :
    let given : Surroundings := ⟨fun _ => 7, fun _ => .epoch⟩
    let fs : FileSystem :=
      ⟨[(["d"], .directory), (["d", "t_8"], .directory), (["d", "t_16.json"], .directory)], ["d"]⟩
    let words := ["-s", "64", "-b", "8,16,32", "-p", "random", "-o", "t", "--manifest"]
    let s : Settings := ⟨64, [8, 16, 32], "random", none, Geometry.standard, "t", true, false, false⟩
    let first : BlockPlan :=
      ⟨⟨.random, 64, 8, .standard⟩, by decide, by decide, by decide, by decide, by decide⟩
    let second : BlockPlan :=
      ⟨⟨.random, 64, 16, .standard⟩, by decide, by decide, by decide, by decide, by decide⟩
    let third : BlockPlan :=
      ⟨⟨.random, 64, 32, .standard⟩, by decide, by decide, by decide, by decide, by decide⟩
    let final := ((run given.host List.reverse words none).run fs).2
    Run.Prepares given fs words none s [first, second, third] ∧ (∀ path, fs.Plain path) ∧
      final.found "t_8" = .ok (some .directory) ∧
      final.found "t_16" = .ok (some (.file (Bytes.ofText "32\n16\n48\n0\n"))) ∧
      final.found "t_16.json" = .ok (some .directory) ∧
      (∀ target ∈ Run.targetsFor given s third, final.Holds target.1 target.2) ∧
      ((run given.host List.reverse words none).run fs).1.report =
        Report.error ["2 of 3 testsets failed"] := by
  intro given fs words s first second third final
  have hprepares : Run.Prepares given fs words none s [first, second, third] := by
    refine ⟨{ Options.none with
      size := some "64"
      blockSizes := ["8", "16", "32"]
      pattern := some "random"
      output := some "t"
      manifest := true }, ?_, rfl, ?_⟩
    · decide +kernel
    · decide +kernel
  have hplain (path : String) : fs.Plain path := FileSystem.plain_of_entries (by decide) path
  obtain ⟨-, hfound, hholds, -, hreport⟩ := jobs_end_independently hprepares rfl
    (fun b _ => ⟨hplain _, fun _ => hplain _⟩) (List.reverse_perm [first, second, third])
  have hfailed :
      [first, second, third].countP (fun plan => (Run.fateOf given s fs plan).failed) = 2 := by
    decide +kernel
  have hmessage : s!"{2} of {s.blockSizes.length} testsets failed" = "2 of 3 testsets failed" := by
    decide +kernel
  rw [hfailed, hmessage] at hreport
  have hfirst : s.outputPath first.blockSize false = "t_8" := by decide +kernel
  have hsecond : s.outputPath second.blockSize false = "t_16" := by decide +kernel
  have hrecord : s.outputPath second.blockSize true = "t_16.json" := by decide +kernel
  refine ⟨hprepares, hplain, ?_, ?_, ?_, hholds third (by simp) (by decide +kernel),
    hreport (by decide)⟩
  · rw [← hfirst, hfound first (by simp)]
    decide +kernel
  · rw [← hsecond, hfound second (by simp)]
    decide +kernel
  · rw [← hrecord, hfound second (by simp)]
    decide +kernel

end AccessPattern
