import AccessPattern.Proofs.Manifest
import AccessPattern.Proofs.Replay
import AccessPattern.Proofs.Run.OutputFiles

/-!
# Replaying a run

A run that writes manifests leaves enough to generate each of its testsets again, be its seed given
or drawn: the manifest next to a testset is read back, and so is the testset, and the plan of the
one generates the other.
-/

namespace AccessPattern

namespace Run

variable {given : Surroundings} {s : Settings} {strategy : Strategy} {fs final : FileSystem}

/-- What a run leaves for a block size can be read, and the manifest replays the testset. -/
theorem Leaves.replays (h : Leaves given s strategy fs final) (hmanifest : s.manifest = true)
    {b : UInt64} (hb : b ∈ s.blockSizes) (hclock : (given.timeOf b).IsValid) :
    ∃ plan m offsets, BlockPlan.check (s.request strategy b) = .ok plan ∧
      Manifest.ofFile (Path.manifest (s.testsetPath b))
        (final.read (Path.manifest (s.testsetPath b))) = .ok m ∧
      Testset.ofFile (s.testsetPath b) (final.read (s.testsetPath b)) = .ok offsets ∧
      m.Replays plan offsets (s.testsetPath b) := by
  obtain ⟨plan, offsets, hcheck, hoffsets, htestset, hrecord⟩ := h.files b hb
  obtain rfl : plan.offsetsOfSeed (seedOf given s b) = offsets := by
    rw [generateOffsets, hcheck] at hoffsets
    exact Except.ok.inj hoffsets
  have hreplays := Manifest.replays_describe plan (seedOf given s b) (s.testsetPath b)
    (given.timeOf b)
  refine ⟨plan, _, _, hcheck, ?_, ?_, hreplays⟩
  · have hread := (hrecord hmanifest).read
    rw [Settings.manifestPath] at hread
    rw [hread]
    exact Manifest.ofFile_fileText hclock _
  · rw [htestset.read]
    exact Testset.read_ofText_render _ _

end Run

/-- When a run with settings succeeds that is no dry run and writes manifests, its jobs done in any
order, then for each block size the manifest next to the testset is read back and replays it. It
names the testset and records the plan of the job; that plan generates the offsets in the testset
from the recorded seed, or from any seed if none is recorded; and it counts those offsets, in total
and on each channel.

There may be anything at the output paths but devices, and the clock shows points in time that
exist. -/
theorem run_leaves_replayable_testsets {given : Surroundings} {fs : FileSystem}
    {words : List String} {environmentSeed : Option String} {s : Settings} {schedule : Schedule}
    (hsettings : Run.LoadsSettings given fs words environmentSeed s) (hwet : s.dryRun = false)
    (hmanifest : s.manifest = true)
    (hplain : ∀ b ∈ s.blockSizes, fs.Plain (s.testsetPath b) ∧ fs.Plain (s.manifestPath b))
    (hclock : ∀ b ∈ s.blockSizes, (given.timeOf b).IsValid)
    (hschedule : ∀ plans, (schedule plans).Perm plans)
    (hsuccess : ((run given.host schedule words environmentSeed).run fs).1.exitCode = 0) :
    ∃ strategy, s.strategy = .ok strategy ∧ ∀ b ∈ s.blockSizes, ∃ plan m offsets,
      BlockPlan.check (s.request strategy b) = .ok plan ∧
      Manifest.ofFile (Path.manifest (s.testsetPath b))
        (((run given.host schedule words environmentSeed).run fs).2.read
          (Path.manifest (s.testsetPath b))) = .ok m ∧
      Testset.ofFile (s.testsetPath b)
        (((run given.host schedule words environmentSeed).run fs).2.read (s.testsetPath b)) =
          .ok offsets ∧
      m.Replays plan offsets (s.testsetPath b) := by
  have hpaths (b : UInt64) (hb : b ∈ s.blockSizes) : fs.Plain (s.testsetPath b) ∧
      (s.manifest → fs.Plain (s.manifestPath b)) :=
    ⟨(hplain b hb).1, fun _ => (hplain b hb).2⟩
  obtain ⟨strategy, hstrategy, hleaves⟩ :=
    hsettings.leaves_of_success hwet hpaths hschedule hsuccess
  refine ⟨strategy, hstrategy, fun b hb => ?_⟩
  exact hleaves.replays hmanifest hb (hclock b hb)

/-- A testset whose seed was drawn is replayed, one of two of a run. -/
theorem run_leaves_replayable_testsets_drawn :
    let given : Surroundings := ⟨fun b => b + 7, fun _ => .epoch⟩
    let fs : FileSystem := ⟨[(["d"], .directory)], ["d"]⟩
    let words := ["-s", "64", "-b", "16,32", "-p", "random", "--page-size", "32", "--manifest"]
    let s : Settings := ⟨64, [16, 32], "random", none, ⟨32, 4⟩, "testset.txt", true, false, false⟩
    Run.LoadsSettings given fs words none s ∧ (∀ path, fs.Plain path) ∧
      ((run given.host id words none).run fs).1.exitCode = 0 ∧
      (∀ b ∈ s.blockSizes, (given.timeOf b).IsValid) ∧
      ∃ plan m offsets, BlockPlan.check (s.request .random 32) = .ok plan ∧
        Manifest.ofFile "testset_32.txt.json"
          (((run given.host id words none).run fs).2.read "testset_32.txt.json") = .ok m ∧
        Testset.ofFile "testset_32.txt"
          (((run given.host id words none).run fs).2.read "testset_32.txt") = .ok offsets ∧
        m.Replays plan offsets "testset_32.txt" := by
  intro given fs words s
  have hloads : Run.LoadsSettings given fs words none s := by
    refine ⟨{ Options.none with
      size := some "64"
      blockSizes := ["16", "32"]
      pattern := some "random"
      pageSize := some "32"
      manifest := true }, ?_, rfl, ?_⟩
    · decide +kernel
    · decide +kernel
  have hplain (path : String) : fs.Plain path := FileSystem.plain_of_entries (by decide) path
  have hclock (b : UInt64) : (given.timeOf b).IsValid := Timestamp.isValid_epoch
  have hsuccess : ((run given.host id words none).run fs).1.exitCode = 0 := by decide +kernel
  have hstrategy : s.strategy = .ok .random := by decide +kernel
  have hschedule (plans : List BlockPlan) : (id plans).Perm plans := List.Perm.refl plans
  have hpath : s.testsetPath 32 = "testset_32.txt" := by decide +kernel
  obtain ⟨strategy, hfound, hall⟩ := run_leaves_replayable_testsets hloads rfl rfl
    (fun b _ => ⟨hplain _, hplain _⟩) (fun b _ => hclock b) hschedule hsuccess
  obtain rfl : Strategy.random = strategy := Except.ok.inj (hstrategy.symm.trans hfound)
  obtain ⟨plan, m, offsets, hfiles⟩ := hall 32 (by decide)
  have hrecord : Path.manifest "testset_32.txt" = "testset_32.txt.json" := by decide +kernel
  rw [hpath, hrecord] at hfiles
  exact ⟨hloads, hplain, hsuccess, fun b _ => hclock b, plan, m, offsets, hfiles⟩

end AccessPattern
