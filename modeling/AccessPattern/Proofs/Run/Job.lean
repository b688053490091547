import AccessPattern.Proofs.Coverage
import AccessPattern.Proofs.Files.Storing
import AccessPattern.Proofs.Order.Permutation
import AccessPattern.Proofs.Run.Host
import AccessPattern.Proofs.Testset
import AccessPattern.Run.Job

/-!
# What a job writes

On a file system, a job writes its testset and perhaps a manifest, and what it reads back it
accepts: the testset text reads as the offsets, and these cover the extent. So a job succeeds
exactly when its files can be written, and then it leaves these files and changes nothing else.
-/

namespace AccessPattern.Job

open FileSystem

variable {given : Surroundings} {job : Job} {fs next final : FileSystem}

/-- The files that a job writes, given the time for its manifest. -/
def targets (job : Job) (time : Timestamp) : List (String × Bytes) :=
  (job.path, Bytes.ofText (Testset.render job.offsets)) ::
    if job.manifest then [(Path.manifest job.path, Bytes.ofText (job.describe time).fileText)]
    else []

/-- The offsets of a job cover the extent. -/
@[simp] theorem checkCoverage_offsets (job : Job) :
    checkCoverage job.offsets job.plan.extent job.plan.blockSize = none := by
  rw [job.offsets_eq]
  exact job.plan.checkCoverage_of_perm (job.plan.generate_perm_linearOffsets _)

/-- What is read back from the testset as it was written passes. -/
@[simp] theorem checkReadBack_written (job : Job) :
    job.checkReadBack (.ok (Bytes.ofText (Testset.render job.offsets))) = .ok () := by
  simp [checkReadBack, Testset.ofFile]
  rfl

/-- A write whose fault ends the job changes the file system if it succeeds. -/
theorem write_orThrow_run {path : String} {bytes : Bytes} {complaint : FileFault → JobError} :
    ((monadLift (given.host.write path bytes) : ExceptT JobError (StateM FileSystem) _) >>=
        fun written => match written with
          | .ok () => pure ()
          | .error fault => throw (complaint fault)).run.run fs =
      match fs.write path bytes with
      | .ok next => (.ok (), next)
      | .error fault => (.error (complaint fault), fs) := by
  rw [run_lift_bind, Surroundings.host_write_run]
  cases fs.write path bytes with
  | ok written => rfl
  | error fault => rfl

/-- A write whose fault ends the job succeeds when the file can be written. -/
theorem write_orThrow_eq_ok_iff {path : String} {bytes : Bytes}
    {complaint : FileFault → JobError} :
    ((monadLift (given.host.write path bytes) : ExceptT JobError (StateM FileSystem) _) >>=
        fun written => match written with
          | .ok () => pure ()
          | .error fault => throw (complaint fault)).run.run fs = (.ok (), next) ↔
      fs.write path bytes = .ok next := by
  rw [write_orThrow_run]
  cases fs.write path bytes with
  | ok written =>
    change (Except.ok (), written) = _ ↔ _
    simp
  | error fault =>
    change (Except.error _, fs) = _ ↔ _
    simp

/-- Writing the testset succeeds when the file can be written. -/
theorem writeTestset_eq_ok_iff :
    (job.writeTestset given.host).run.run fs = (.ok (), next) ↔
      fs.write job.path (Bytes.ofText (Testset.render job.offsets)) = .ok next :=
  write_orThrow_eq_ok_iff

/-- Verification succeeds when what is read passes, and writes nothing. -/
theorem verifyTestset_eq_ok_iff :
    (job.verifyTestset given.host).run.run fs = (.ok (), next) ↔
      (job.verify → job.checkReadBack (fs.read job.path) = .ok ()) ∧ fs = next := by
  rw [verifyTestset]
  cases job.verify with
  | false =>
    change (Except.ok (), fs) = _ ↔ _
    simp
  | true =>
    change (job.checkReadBack (fs.read job.path), fs) = _ ↔ _
    simp

/-- Writing the manifest succeeds when the file can be written, or none is asked for. -/
theorem writeManifest_eq_ok_iff :
    (job.writeManifest given.host).run.run fs = (.ok (), next) ↔
      if job.manifest then
        fs.write (Path.manifest job.path)
          (Bytes.ofText (job.describe (given.timeOf job.plan.blockSize)).fileText) = .ok next
      else fs = next := by
  rw [writeManifest]
  cases job.manifest with
  | false =>
    change (Except.ok (), fs) = _ ↔ _
    simp
  | true =>
    rw [if_pos rfl, if_pos rfl, run_lift_bind, Surroundings.host_timeOfDay_run]
    exact write_orThrow_eq_ok_iff

/-- What is reported about a job that succeeds when no time passes. -/
def timelessReport (job : Job) : JobReport where
  path := job.path
  blockSize := job.plan.blockSize
  blockCount := job.offsets.length
  seed := job.reportedSeed
  channelBlocks := (job.plan.geometry.histogram job.offsets).map UInt64.ofNat
  elapsed := 0

/-- A job whose testset is written and passes, and whose manifest is written if there is to be one,
ends with its report. -/
theorem run_of_ok {written : FileSystem}
    (htestset : fs.write job.path (Bytes.ofText (Testset.render job.offsets)) = .ok written)
    (hcheck : job.verify → job.checkReadBack (written.read job.path) = .ok ())
    (hmanifest : if job.manifest then
        written.write (Path.manifest job.path)
          (Bytes.ofText (job.describe (given.timeOf job.plan.blockSize)).fileText) = .ok final
      else written = final) :
    (job.run given.host).run.run fs = (.ok job.timelessReport, final) := by
  rw [run, run_lift_bind]
  refine run_bind_eq_ok_iff.mpr ⟨(), written, writeTestset_eq_ok_iff.mpr htestset, ?_⟩
  refine run_bind_eq_ok_iff.mpr ⟨(), written, verifyTestset_eq_ok_iff.mpr ⟨hcheck, rfl⟩, ?_⟩
  exact run_bind_eq_ok_iff.mpr ⟨(), final, writeManifest_eq_ok_iff.mpr hmanifest, rfl⟩

/-- A job succeeds when its testset can be written, passes if it is to be checked, and its
manifest can be written after it if there is to be one. -/
theorem run_eq_ok_iff :
    (∃ report, (job.run given.host).run.run fs = (.ok report, final)) ↔
      ∃ written, fs.write job.path (Bytes.ofText (Testset.render job.offsets)) = .ok written ∧
        (job.verify → job.checkReadBack (written.read job.path) = .ok ()) ∧
        if job.manifest then
          written.write (Path.manifest job.path)
            (Bytes.ofText (job.describe (given.timeOf job.plan.blockSize)).fileText) = .ok final
        else written = final := by
  constructor
  · intro ⟨report, hrun⟩
    rw [run, run_lift_bind, run_bind_eq_ok_iff] at hrun
    obtain ⟨_, written, htestset, hchecking⟩ := hrun
    obtain ⟨_, checked, hverify, hdescribing⟩ := run_bind_eq_ok_iff.mp hchecking
    obtain ⟨_, described, hmanifest, hending⟩ := run_bind_eq_ok_iff.mp hdescribing
    obtain rfl : described = final := congrArg Prod.snd hending
    obtain ⟨hcheck, rfl⟩ := verifyTestset_eq_ok_iff.mp hverify
    exact ⟨written, writeTestset_eq_ok_iff.mp htestset, hcheck,
      writeManifest_eq_ok_iff.mp hmanifest⟩
  · intro ⟨written, htestset, hcheck, hmanifest⟩
    exact ⟨job.timelessReport, run_of_ok htestset hcheck hmanifest⟩

/-- The files that a job writes are its testset and, if there is to be one, its manifest. -/
theorem accepts_targets_iff {time : Timestamp} :
    fs.Accepts (job.targets time) ↔ (∃ location, Writable fs job.path location) ∧
      (job.manifest → ∃ location, Writable fs (Path.manifest job.path) location) := by
  rw [targets, FileSystem.Accepts, List.forall_mem_cons]
  cases job.manifest with
  | false => simp
  | true => simp

/-- A job whose files can be written succeeds and stores them, whatever files of other jobs were
stored before. -/
theorem run_store {files : List (Location × Bytes)} (hfiles : fs.WritableFiles files)
    (h : fs.Accepts (job.targets (given.timeOf job.plan.blockSize))) :
    ∃ report, (job.run given.host).run.run (fs.store files) = (.ok report,
      fs.store (files ++ fs.place (job.targets (given.timeOf job.plan.blockSize)))) := by
  obtain ⟨⟨location, htestset⟩, hmanifest⟩ := accepts_targets_iff.mp h
  refine run_eq_ok_iff.mpr ⟨_, htestset.write_store hfiles _, fun _ => ?_, ?_⟩
  · rw [htestset.read_store_concat hfiles]
    exact job.checkReadBack_written
  · rw [targets, place_cons htestset]
    cases hasked : job.manifest with
    | false => rfl
    | true =>
      obtain ⟨place, hwritable⟩ := hmanifest hasked
      rw [if_pos rfl, if_pos rfl, place_cons hwritable,
        hwritable.write_store (hfiles.concat htestset _), List.append_assoc]
      rfl

/-- A job that succeeds after files of other jobs were stored could write its files all along,
devices apart. -/
theorem accepts_of_run {files : List (Location × Bytes)} (hfiles : fs.WritableFiles files)
    {time : Timestamp} (hplain : ∀ target ∈ job.targets time, fs.Plain target.1)
    {report : JobReport}
    (h : (job.run given.host).run.run (fs.store files) = (.ok report, final)) :
    fs.Accepts (job.targets time) := by
  obtain ⟨written, htestset, -, hmanifest⟩ := run_eq_ok_iff.mp ⟨report, h⟩
  rw [targets, List.forall_mem_cons] at hplain
  obtain ⟨location, hwritable, rfl⟩ := hplain.1.store_of_write hfiles htestset
  refine accepts_targets_iff.mpr ⟨⟨location, hwritable⟩, fun hasked => ?_⟩
  rw [if_pos hasked] at hplain hmanifest
  obtain ⟨place, hplace, -⟩ :=
    (hplain.2 _ List.mem_cons_self).store_of_write (hfiles.concat hwritable _) hmanifest
  exact ⟨place, hplace⟩

end AccessPattern.Job
