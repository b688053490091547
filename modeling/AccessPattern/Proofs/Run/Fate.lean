import AccessPattern.Proofs.Files.Beside
import AccessPattern.Proofs.Run.Verification
import AccessPattern.Run.Basic

/-!
# How a job ends

How a job ends and which files it writes is decided by what keeps files from being written at its
two paths, if anything does. `Job.fate` says this outright, and a job that is run comes to it, also
after files of other jobs were stored as long as these are no obstacle.

Devices are kept out: what is written there is not read back.
-/

namespace AccessPattern.Job

open FileSystem

/-- How a job ends: with which result, and having written which files. -/
structure Fate where
  result : Except JobError JobReport
  written : List (String × Bytes)

namespace Fate

/-- Whether the job fails. -/
def failed (fate : Fate) : Bool :=
  (JobResult.errorOf? fate.result).isSome

/-- What is found at a path in the end, given what was found there before. -/
def found (fate : Fate) (path : String) (before : Except FileFault (Option Entry)) :
    Except FileFault (Option Entry) :=
  match fate.written.lookup path with
  | some bytes => .ok (some (.file bytes))
  | none => before

end Fate

/-- How a job ends, given the time for its manifest and why a file cannot be written at the path of
the testset and at that of the manifest, if it cannot. -/
def fate (job : Job) (time : Timestamp) (testsetFault? manifestFault? : Option FileFault) : Fate :=
  match testsetFault? with
  | some fault => ⟨.error (.unwritten job.path fault), []⟩
  | none =>
    match if job.manifest then manifestFault? else none with
    | some fault =>
      ⟨.error (.noManifest (Path.manifest job.path) fault), (job.targets time).take 1⟩
    | none => ⟨.ok job.timelessReport, job.targets time⟩

variable {given : Surroundings} {job : Job} {fs written : FileSystem} {time : Timestamp}
  {testsetFault? manifestFault? : Option FileFault}

/-- A job writes its files in their order and may stop before the last. -/
theorem written_sublist_targets :
    (job.fate time testsetFault? manifestFault?).written.Sublist (job.targets time) := by
  unfold fate
  split
  · exact List.nil_sublist _
  · split
    · exact List.take_sublist 1 _
    · exact List.Sublist.refl _

/-- A job that does not fail writes all its files. -/
theorem written_of_not_failed (h : (job.fate time testsetFault? manifestFault?).failed = false) :
    (job.fate time testsetFault? manifestFault?).written = job.targets time := by
  unfold fate at h ⊢
  split at h
  · contradiction
  · split at h
    · contradiction
    · rfl

/-- What a job writes can be written, devices apart. -/
theorem accepts_written (hplain : ∀ target ∈ job.targets time, fs.Plain target.1) :
    fs.Accepts (job.fate time (fs.writeFault? job.path)
      (fs.writeFault? (Path.manifest job.path))).written := by
  rw [targets, List.forall_mem_cons] at hplain
  unfold fate
  split
  · exact List.forall_mem_nil _
  · next htestset =>
    have hwritable := hplain.1.writable_of_no_fault htestset
    split
    · exact List.forall_mem_singleton.mpr hwritable
    · next hmanifest =>
      refine accepts_targets_iff.mpr ⟨hwritable, fun hasked => ?_⟩
      rw [if_pos hasked] at hmanifest hplain
      exact (hplain.2 _ List.mem_cons_self).writable_of_no_fault hmanifest

/-- A job whose testset cannot be written ends there. -/
theorem run_of_unwritten {fault : FileFault}
    (h : fs.write job.path (Bytes.ofText (Testset.render job.offsets)) = .error fault) :
    (job.run given.host).run.run fs = (.error (.unwritten job.path fault), fs) := by
  refine run_eq_error_iff.mpr (.inl ?_)
  have hstart : (given.host.stopwatch.run fs).2 = fs := rfl
  rw [hstart]
  exact write_orThrow_run.trans (by rw [h])

/-- A job whose testset is written and passes ends when its manifest cannot be written. -/
theorem run_of_undescribed {fault : FileFault} (hasked : job.manifest = true)
    (h : fs.write job.path (Bytes.ofText (Testset.render job.offsets)) = .ok written)
    (hcheck : job.verify → job.checkReadBack (written.read job.path) = .ok ())
    (hmanifest : written.write (Path.manifest job.path)
      (Bytes.ofText (job.describe (given.timeOf job.plan.blockSize)).fileText) = .error fault) :
    (job.run given.host).run.run fs =
      (.error (.noManifest (Path.manifest job.path) fault), written) := by
  refine run_eq_error_iff.mpr (.inr ⟨written, writeTestset_eq_ok_iff.mpr h, .inr
    ⟨written, verifyTestset_eq_ok_iff.mpr ⟨hcheck, rfl⟩, ?_⟩⟩)
  rw [writeManifest, if_pos hasked, run_lift_bind, Surroundings.host_timeOfDay_run]
  exact write_orThrow_run.trans (by rw [hmanifest])

/-- After files were stored that are no obstacle to it, a job comes to the fate that it would have
had without them. -/
theorem run_store_fate {files : List (Location × Bytes)} (hfiles : fs.WritableFiles files)
    (hplain : ∀ target ∈ job.targets (given.timeOf job.plan.blockSize), fs.Plain target.1)
    (htestset : (fs.store files).locateFile job.path = fs.locateFile job.path)
    (hmanifest : ∀ location bytes, Writable fs job.path location →
      (fs.store (files ++ [(location, bytes)])).locateFile (Path.manifest job.path) =
        fs.locateFile (Path.manifest job.path)) :
    let fate := job.fate (given.timeOf job.plan.blockSize) (fs.writeFault? job.path)
      (fs.writeFault? (Path.manifest job.path))
    (job.run given.host).run.run (fs.store files) =
      (fate.result, fs.store (files ++ fs.place fate.written)) := by
  rw [targets, List.forall_mem_cons] at hplain
  dsimp only
  unfold fate
  split
  · next fault hfault =>
    simp [run_of_unwritten (write_of_fault (htestset.trans (writeFault?_eq_some_iff.mp hfault)) _)]
  · next hno =>
    obtain ⟨location, hwritable⟩ := hplain.1.writable_of_no_fault hno
    have hwrite := hwritable.write_store hfiles (Bytes.ofText (Testset.render job.offsets))
    have hcheck : job.verify → job.checkReadBack
        ((fs.store (files ++ [(location, Bytes.ofText (Testset.render job.offsets))])).read
          job.path) = .ok () := fun _ => by
      rw [hwritable.read_store_concat hfiles]
      exact job.checkReadBack_written
    split
    · next fault hfault =>
      have hasked : job.manifest = true := by
        by_contra hnot
        rw [if_neg hnot] at hfault
        contradiction
      rw [if_pos hasked] at hfault
      rw [run_of_undescribed hasked hwrite hcheck (write_of_fault
        ((hmanifest _ _ hwritable).trans (writeFault?_eq_some_iff.mp hfault)) _)]
      rw [targets, List.take_succ_cons, List.take_zero, place_cons hwritable]
      rfl
    · next hno =>
      refine run_of_ok hwrite hcheck ?_
      rw [targets, place_cons hwritable]
      split
      · next hasked =>
        rw [if_pos hasked] at hno hplain
        obtain ⟨place, hplace⟩ :=
          (hplain.2 _ List.mem_cons_self).writable_of_no_fault hno
        rw [place_cons hplace, hplace.write_store (hfiles.concat hwritable _), List.append_assoc]
        rfl
      · rfl

end AccessPattern.Job
