import AccessPattern.Proofs.Run.Preparations
import AccessPattern.Proofs.Settings.OutputPaths

/-!
# The output files of a run

The files of all jobs of a run are at different locations. So a run that succeeds leaves for each
block size the testset that the seed determines, and its manifest if there is to be one, and changes
nothing else; the order of the jobs does not matter.
-/

namespace AccessPattern

namespace Run

open FileSystem

variable {given : Surroundings} {s : Settings} {fs : FileSystem}

/-- A manifest keeps the seed only if the order depends on it, however often that is asked. -/
theorem describe_jobFor (plan : BlockPlan) (time : Timestamp) :
    (jobFor given s plan).describe time =
      Manifest.describe plan (some (seedOf given s plan.blockSize))
        (plan.offsetsOfSeed (seedOf given s plan.blockSize)) (s.testsetPath plan.blockSize)
        time := by
  rw [Job.describe, Job.reportedSeed, Manifest.describe, Manifest.describe]
  cases hrandom : plan.strategy.isRandomized with
  | false => simp [jobFor, Job.ofPlan, hrandom]
  | true => simp [jobFor, Job.ofPlan, hrandom]

/-- The files of a plan's job are its testset and, if there is to be one, its manifest. -/
theorem mem_targetsFor_iff {plan : BlockPlan} {target : String × Bytes} :
    target ∈ targetsFor given s plan ↔
      target = (s.testsetPath plan.blockSize, Bytes.ofText (Testset.render
        (plan.offsetsOfSeed (seedOf given s plan.blockSize)))) ∨
      s.manifest ∧ target = (s.manifestPath plan.blockSize, Bytes.ofText
        (Manifest.describe plan (some (seedOf given s plan.blockSize))
          (plan.offsetsOfSeed (seedOf given s plan.blockSize)) (s.testsetPath plan.blockSize)
          (given.timeOf plan.blockSize)).fileText) := by
  rw [← describe_jobFor, targetsFor, Job.targets, List.mem_cons]
  apply or_congr Iff.rfl
  change target ∈ (if s.manifest = true then _ else _) ↔ _
  cases s.manifest with
  | false => simp
  | true => rw [if_pos rfl, List.mem_singleton, eq_self, true_and]; rfl

/-- The files of the job of a plan go to output paths for its block size. -/
theorem path_of_mem_targetsFor {plan : BlockPlan} {target : String × Bytes}
    (h : target ∈ targetsFor given s plan) :
    ∃ isManifest, target.1 = s.outputPath plan.blockSize isManifest := by
  rcases mem_targetsFor_iff.mp h with rfl | ⟨-, rfl⟩
  · exact ⟨false, rfl⟩
  · exact ⟨true, rfl⟩

/-- No two files of a job are at one location. -/
theorem apart_targetsFor {plan : BlockPlan} (hplan : plan.blockSize ∈ s.blockSizes) :
    fs.Apart (targetsFor given s plan) := by
  rw [targetsFor, Job.targets, FileSystem.Apart]
  split
  · rw [List.pairwise_pair]
    intro location place hlocation hplace
    have hne : ¬(plan.blockSize = plan.blockSize ∧ false = true) := by simp
    exact Settings.outputPath_location_ne hplan hplan hne hlocation hplace
  · exact List.pairwise_singleton _ _

/-- No two files of a run are at one location. -/
theorem apart_flatMap_targetsFor {plans : List BlockPlan}
    (hnodup : (plans.map (·.blockSize)).Nodup)
    (hplans : ∀ plan ∈ plans, plan.blockSize ∈ s.blockSizes) :
    fs.Apart (plans.flatMap (targetsFor given s)) := by
  rw [FileSystem.Apart, List.pairwise_flatMap]
  refine ⟨fun plan hplan => apart_targetsFor (hplans plan hplan), ?_⟩
  rw [List.nodup_iff_pairwise_ne, List.pairwise_map] at hnodup
  refine hnodup.imp_of_mem fun {plan other} hplan hother hne => ?_
  intro target htarget second hsecond location place hlocation hplace
  obtain ⟨first, hpath⟩ := path_of_mem_targetsFor htarget
  obtain ⟨kind, hkind⟩ := path_of_mem_targetsFor hsecond
  rw [hpath] at hlocation
  rw [hkind] at hplace
  exact Settings.outputPath_location_ne (hplans plan hplan) (hplans other hother)
    (fun heq => hne heq.1) hlocation hplace

/-- What a run leaves: for each block size the testset that its seed determines, with the manifest
that describes it if there is to be one, and everything else as it was. -/
structure Leaves (given : Surroundings) (s : Settings) (strategy : Strategy)
    (fs final : FileSystem) : Prop where
  files : ∀ b ∈ s.blockSizes, ∃ plan offsets,
    BlockPlan.check (s.request strategy b) = .ok plan ∧
    generateOffsets (s.request strategy b) (seedOf given s b) = .ok offsets ∧
    final.Holds (s.testsetPath b) (Bytes.ofText (Testset.render offsets)) ∧
    (s.manifest → final.Holds (s.manifestPath b)
      (Bytes.ofText (Manifest.describe plan (some (seedOf given s b)) offsets (s.testsetPath b)
        (given.timeOf b)).fileText))
  elsewhere : ∀ location,
    (∀ b ∈ s.blockSizes, fs.locate (s.testsetPath b) ≠ .ok location ∧
      (s.manifest → fs.locate (s.manifestPath b) ≠ .ok location)) →
    final.at? location = fs.at? location
  workingDirectory : final.workingDirectory = fs.workingDirectory

/-- The files of all jobs that can be written are what a run leaves. -/
theorem leaves_store {strategy : Strategy} {plans order : List BlockPlan}
    (hstrategy : s.strategy = .ok strategy) (hnodup : s.blockSizes.Nodup)
    (hplans : s.plans = .ok plans) (horder : order.Perm plans)
    (haccepts : ∀ plan ∈ order, fs.Accepts (targetsFor given s plan)) :
    Leaves given s strategy fs (fs.store (fs.place (order.flatMap (targetsFor given s)))) := by
  have hsizes := Settings.map_blockSize_of_plans hplans
  have hmem {plan : BlockPlan} (hplan : plan ∈ order) : plan.blockSize ∈ s.blockSizes := by
    rw [← hsizes]
    exact List.mem_map_of_mem (horder.mem_iff.mp hplan)
  have hall : fs.Accepts (order.flatMap (targetsFor given s)) :=
    List.forall_mem_flatMap.mpr haccepts
  have hapart : fs.Apart (order.flatMap (targetsFor given s)) := by
    refine apart_flatMap_targetsFor ?_ fun plan => hmem
    rwa [(horder.map _).nodup_iff, hsizes]
  refine ⟨fun b hb => ?_, fun location helsewhere => ?_, ?_⟩
  · rw [← hsizes] at hb
    obtain ⟨plan, hplan, rfl⟩ := List.mem_map.mp hb
    have hrequest := Settings.toPlanRequest_of_mem_plans hstrategy hplans hplan
    have hcheck := BlockPlan.check_eq_ok_iff.mpr hrequest
    have hholds {path : String} {bytes : Bytes} (h : (path, bytes) ∈ targetsFor given s plan) :
        (fs.store (fs.place (order.flatMap (targetsFor given s)))).Holds path bytes :=
      hall.holds_store hapart (List.mem_flatMap_of_mem (horder.mem_iff.mpr hplan) h)
    refine ⟨plan, plan.offsetsOfSeed (seedOf given s plan.blockSize), hcheck, ?_, ?_, ?_⟩
    · rw [generateOffsets, hcheck]
      rfl
    · exact hholds (mem_targetsFor_iff.mpr (.inl rfl))
    · exact fun hasked => hholds (mem_targetsFor_iff.mpr (.inr ⟨hasked, rfl⟩))
  · refine hall.at?_store_place fun target htarget hlocate => ?_
    obtain ⟨plan, hplan, hfile⟩ := List.mem_flatMap.mp htarget
    obtain ⟨htestset, hmanifest⟩ := helsewhere plan.blockSize (hmem hplan)
    rcases mem_targetsFor_iff.mp hfile with rfl | ⟨hasked, rfl⟩
    · exact htestset (locate_of_locateFile hlocate)
    · exact hmanifest hasked (locate_of_locateFile hlocate)
  · exact hall.writableFiles_place.sameDirectories.workingDirectory.symm

/-- Jobs of the same plans leave the same in any order. -/
theorem at?_store_order {plans order other : List BlockPlan} (hnodup : s.blockSizes.Nodup)
    (hplans : s.plans = .ok plans) (horder : order.Perm plans) (hother : other.Perm plans)
    (haccepts : ∀ plan ∈ order, fs.Accepts (targetsFor given s plan)) (location : Location) :
    (fs.store (fs.place (other.flatMap (targetsFor given s)))).at? location =
      (fs.store (fs.place (order.flatMap (targetsFor given s)))).at? location := by
  have hsizes := Settings.map_blockSize_of_plans hplans
  have hall : fs.Accepts (order.flatMap (targetsFor given s)) :=
    List.forall_mem_flatMap.mpr haccepts
  refine hall.at?_store_place_perm ?_ ((horder.trans hother.symm).flatMap_right _) location
  refine apart_flatMap_targetsFor ?_ fun plan hplan => ?_
  · rwa [(horder.map _).nodup_iff, hsizes]
  · rw [← hsizes]
    exact List.mem_map_of_mem (horder.mem_iff.mp hplan)

/-- The files of a plan's job go to paths without devices when the output paths are such. -/
theorem plain_of_mem_targetsFor {plan : BlockPlan}
    (hplain : fs.Plain (s.testsetPath plan.blockSize) ∧
      (s.manifest → fs.Plain (s.manifestPath plan.blockSize)))
    {target : String × Bytes} (h : target ∈ targetsFor given s plan) : fs.Plain target.1 := by
  rcases mem_targetsFor_iff.mp h with rfl | ⟨hasked, rfl⟩
  · exact hplain.1
  · exact hplain.2 hasked

namespace Prepares

variable {schedule : Schedule} {words : List String} {environmentSeed : Option String}
  {plans : List BlockPlan}

/-- A run that does its jobs in some order and succeeds could write all their files from the
start, devices apart. -/
theorem accepts_of_success (h : Prepares given fs words environmentSeed s plans)
    (hwet : s.dryRun = false) (hschedule : (schedule plans).Perm plans)
    (hplain : ∀ b ∈ s.blockSizes, fs.Plain (s.testsetPath b) ∧
      (s.manifest → fs.Plain (s.manifestPath b)))
    (hsuccess :
      ((AccessPattern.run given.host schedule words environmentSeed).run fs).1.exitCode = 0) :
    ∀ plan ∈ schedule plans, fs.Accepts (targetsFor given s plan) := by
  obtain ⟨-, hexit⟩ := h.run hwet hschedule
  apply accepts_of_doJobs FileSystem.writableFiles_nil _ (hexit.mp hsuccess)
  intro plan hplan target htarget
  have hsize : plan.blockSize ∈ s.blockSizes := by
    rw [← Settings.map_blockSize_of_plans h.plans_eq]
    exact List.mem_map_of_mem (hschedule.mem_iff.mp hplan)
  exact plain_of_mem_targetsFor (hplain _ hsize) htarget

/-- A run that can write all files of its jobs does so, whatever the order of the jobs. -/
theorem run_of_accepts (h : Prepares given fs words environmentSeed s plans)
    (hwet : s.dryRun = false) (hschedule : (schedule plans).Perm plans)
    (haccepts : ∀ plan ∈ schedule plans, fs.Accepts (targetsFor given s plan)) :
    ((AccessPattern.run given.host schedule words environmentSeed).run fs).1.exitCode = 0 ∧
      ((AccessPattern.run given.host schedule words environmentSeed).run fs).2 =
        fs.store (fs.place ((schedule plans).flatMap (targetsFor given s))) := by
  obtain ⟨hfinal, hexit⟩ := h.run hwet hschedule
  obtain ⟨hstore, hresults⟩ := doJobs_store FileSystem.writableFiles_nil haccepts
  exact ⟨hexit.mpr hresults, hfinal.trans hstore⟩

end Prepares

/-- A run with settings that succeeds leaves what it should. -/
theorem LoadsSettings.leaves_of_success {schedule : Schedule} {words : List String}
    {environmentSeed : Option String} (h : LoadsSettings given fs words environmentSeed s)
    (hwet : s.dryRun = false)
    (hplain : ∀ b ∈ s.blockSizes, fs.Plain (s.testsetPath b) ∧
      (s.manifest → fs.Plain (s.manifestPath b)))
    (hschedule : ∀ plans, (schedule plans).Perm plans)
    (hsuccess :
      ((AccessPattern.run given.host schedule words environmentSeed).run fs).1.exitCode = 0) :
    ∃ strategy, s.strategy = .ok strategy ∧ Leaves given s strategy fs
      ((AccessPattern.run given.host schedule words environmentSeed).run fs).2 := by
  obtain ⟨plans, hprepares⟩ := h.exists_prepares hsuccess
  obtain ⟨strategy, hstrategy, -⟩ := Settings.plans_eq_ok_iff.mp hprepares.plans_eq
  have haccepts := hprepares.accepts_of_success hwet (hschedule plans) hplain hsuccess
  obtain ⟨-, hfinal⟩ := hprepares.run_of_accepts hwet (hschedule plans) haccepts
  refine ⟨strategy, hstrategy, ?_⟩
  rw [hfinal]
  exact leaves_store hstrategy hprepares.nodup hprepares.plans_eq (hschedule plans) haccepts

end Run

/-- When a run with settings succeeds that is no dry run, its jobs done in some order, then it does
so with its jobs done in any order, and it always leaves the same: the testset of each block size
as its seed determines it, the manifest that describes it if there is to be one, and everything
else as it was. A single testset is at the output path itself.

There may be anything at the output paths but devices. The schedules may look at the plans, but
have to do every job once. -/
theorem run_leaves_output_files {given : Surroundings} {fs : FileSystem} {words : List String}
    {environmentSeed : Option String} {s : Settings} {schedule : Schedule}
    (hsettings : Run.LoadsSettings given fs words environmentSeed s) (hwet : s.dryRun = false)
    (hplain : ∀ b ∈ s.blockSizes, fs.Plain (s.testsetPath b) ∧
      (s.manifest → fs.Plain (s.manifestPath b)))
    (hschedule : ∀ plans, (schedule plans).Perm plans)
    (hsuccess : ((run given.host schedule words environmentSeed).run fs).1.exitCode = 0) :
    (∃ strategy, s.strategy = .ok strategy ∧
      ∀ other : Schedule, (∀ plans, (other plans).Perm plans) →
        ((run given.host other words environmentSeed).run fs).1.exitCode = 0 ∧
        Run.Leaves given s strategy fs
          ((run given.host other words environmentSeed).run fs).2 ∧
        ∀ location, ((run given.host other words environmentSeed).run fs).2.at? location =
          ((run given.host schedule words environmentSeed).run fs).2.at? location) ∧
    ∀ b, s.blockSizes = [b] → s.testsetPath b = s.output := by
  obtain ⟨plans, hprepares⟩ := hsettings.exists_prepares hsuccess
  obtain ⟨strategy, hstrategy, -⟩ := Settings.plans_eq_ok_iff.mp hprepares.plans_eq
  have haccepts := hprepares.accepts_of_success hwet (hschedule plans) hplain hsuccess
  have hrun (other : Schedule) (hother : ∀ plans, (other plans).Perm plans) :=
    hprepares.run_of_accepts hwet (hother plans) fun plan hplan =>
      haccepts plan ((hschedule plans).mem_iff.mpr ((hother plans).mem_iff.mp hplan))
  refine ⟨⟨strategy, hstrategy, fun other hother => ?_⟩, fun b hb => ?_⟩
  · obtain ⟨hexit, hfinal⟩ := hrun other hother
    refine ⟨hexit, ?_, fun location => ?_⟩
    · obtain ⟨found, hfound, hleaves⟩ := hsettings.leaves_of_success hwet hplain hother hexit
      obtain rfl : strategy = found := Except.ok.inj (hstrategy.symm.trans hfound)
      exact hleaves
    · rw [hfinal, (hrun schedule hschedule).2]
      exact Run.at?_store_order hprepares.nodup hprepares.plans_eq (hschedule plans)
        (hother plans) haccepts location
  · rw [Settings.testsetPath, if_pos (by rw [hb]; rfl)]

/-- Two testsets and their manifests are left in the same way when the jobs are done backwards. -/
theorem run_leaves_output_files_backwards :
    let given : Surroundings := ⟨fun _ => 7, fun _ => .epoch⟩
    let fs : FileSystem := ⟨[(["d"], .directory)], ["d"]⟩
    let words := ["-s", "64", "-b", "16,32", "-p", "round-robin-random", "--page-size", "32",
      "--manifest"]
    let s : Settings := ⟨64, [16, 32], "round-robin-random", none, ⟨32, 4⟩, "testset.txt", true,
      false, false⟩
    Run.LoadsSettings given fs words none s ∧ (∀ path, fs.Plain path) ∧
      ((run given.host id words none).run fs).1.exitCode = 0 ∧
      Run.Leaves given s .roundRobinRandom fs
        ((run given.host List.reverse words none).run fs).2 := by
  intro given fs words s
  have hloads : Run.LoadsSettings given fs words none s := by
    refine ⟨{ Options.none with
      size := some "64"
      blockSizes := ["16", "32"]
      pattern := some "round-robin-random"
      pageSize := some "32"
      manifest := true }, ?_, rfl, ?_⟩
    · decide +kernel
    · decide +kernel
  have hplain (path : String) : fs.Plain path := FileSystem.plain_of_entries (by decide) path
  have hsuccess : ((run given.host id words none).run fs).1.exitCode = 0 := by decide +kernel
  have hstrategy : s.strategy = .ok .roundRobinRandom := by decide +kernel
  have hschedule (plans : List BlockPlan) : (id plans).Perm plans := List.Perm.refl plans
  obtain ⟨⟨strategy, hfound, hall⟩, -⟩ := run_leaves_output_files hloads rfl
    (fun b _ => ⟨hplain _, fun _ => hplain _⟩) hschedule hsuccess
  obtain rfl : Strategy.roundRobinRandom = strategy := Except.ok.inj (hstrategy.symm.trans hfound)
  exact ⟨hloads, hplain, hsuccess, (hall List.reverse List.reverse_perm).2.1⟩

end AccessPattern
