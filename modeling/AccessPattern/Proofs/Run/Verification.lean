import AccessPattern.Proofs.Run.Job

/-!
# What the verification of a job accepts

A job that is to be verified reads its testset back and compares. What is read is up to the host:
the file may lie on a device, or somebody else may have written it since. Nothing is assumed about
the host here, so these are statements about whatever reading may give.

The comparison decides alone. The offsets of a plan cover its extent, so what equals them passes the
coverage check after it, and no job ends with a coverage fault.
-/

namespace AccessPattern.Job

variable {job : Job}

/-- What reading a testset gave reads as the offsets that the plan has from the seed. -/
def Faithful (job : Job) (contents : Except FileFault Bytes) : Prop :=
  ∃ bytes, contents = .ok bytes ∧
    Testset.read job.path bytes = .ok (job.plan.offsetsOfSeed job.seed)

/-- Contents are faithful when the offsets found in them are those of the job. -/
theorem faithful_iff {contents : Except FileFault Bytes} :
    job.Faithful contents ↔ Testset.ofFile job.path contents = .ok job.offsets := by
  rw [Faithful, ← job.offsets_eq]
  cases contents with
  | error fault => simp [Testset.ofFile]
  | ok bytes => simp [Testset.ofFile]

/-- The comparison decides alone whether what was read passes. -/
theorem checkReadBack_eq (contents : Except FileFault Bytes) :
    job.checkReadBack contents =
      ((Testset.ofFile job.path contents).mapError .unread >>= fun found =>
        if found = job.offsets then .ok () else .error (.differs job.path)) := by
  rw [checkReadBack]
  refine congrArg _ (funext fun found => ?_)
  by_cases hsame : found = job.offsets
  · subst hsame
    simp only [ne_eq, not_true_eq_false, if_false, if_true, job.checkCoverage_offsets]
    rfl
  · simp only [ne_eq, hsame, not_false_eq_true, if_true, if_false]
    rfl

/-- What was read passes when it is faithful. -/
theorem checkReadBack_eq_ok_iff {contents : Except FileFault Bytes} :
    job.checkReadBack contents = .ok () ↔ job.Faithful contents := by
  rw [checkReadBack_eq, bind_eq_ok_iff, faithful_iff]
  simp only [mapError_eq_ok_iff]
  constructor
  · intro ⟨found, hfound, hsame⟩
    split at hsame
    · next heq => exact heq ▸ hfound
    · contradiction
  · intro hfound
    exact ⟨job.offsets, hfound, if_pos rfl⟩

/-- What was read and does not pass is no list of offsets, or not that of the job. -/
theorem checkReadBack_error {contents : Except FileFault Bytes} {error : JobError}
    (h : job.checkReadBack contents = .error error) :
    (∃ cause, error = .unread cause) ∨ error = .differs job.path := by
  rw [checkReadBack_eq] at h
  cases hfound : Testset.ofFile job.path contents with
  | error cause =>
    rw [hfound] at h
    exact .inl ⟨cause, (Except.error.inj h).symm⟩
  | ok found =>
    rw [hfound] at h
    change (if found = job.offsets then _ else _) = _ at h
    split at h
    · contradiction
    · exact .inr (Except.error.inj h).symm

variable {σ : Type} {host : Host (StateM σ)} {start final : σ} {error : JobError}

/-- Verifying a testset is checking what reading it gives. -/
theorem verifyTestset_run (hverify : job.verify = true) (state : σ) :
    (job.verifyTestset host).run.run state =
      (job.checkReadBack ((host.read job.path).run state).1,
        ((host.read job.path).run state).2) := by
  rw [verifyTestset, if_pos hverify]
  rfl

/-- The error of a verification is that of the check. -/
theorem verifyTestset_error (h : (job.verifyTestset host).run.run start = (.error error, final)) :
    (∃ cause, error = .unread cause) ∨ error = .differs job.path := by
  cases hverify : job.verify with
  | true =>
    rw [verifyTestset_run hverify] at h
    exact checkReadBack_error (congrArg Prod.fst h)
  | false =>
    rw [verifyTestset, hverify] at h
    cases congrArg Prod.fst h

/-- The error of a write is the complaint about its fault. -/
theorem write_orThrow_error {path : String} {bytes : Bytes} {complaint : FileFault → JobError}
    (h : ((monadLift (host.write path bytes) : ExceptT JobError (StateM σ) _) >>=
        fun written => match written with
          | .ok () => pure ()
          | .error fault => throw (complaint fault)).run.run start = (.error error, final)) :
    ∃ fault, error = complaint fault := by
  rw [run_lift_bind] at h
  cases hwrite : ((host.write path bytes).run start).1 with
  | ok written =>
    rw [hwrite] at h
    cases congrArg Prod.fst h
  | error fault =>
    rw [hwrite] at h
    exact ⟨fault, (Except.error.inj (congrArg Prod.fst h)).symm⟩

/-- A job fails when its testset is not written, does not pass, or has its manifest not written. -/
theorem run_eq_error_iff :
    (job.run host).run.run start = (.error error, final) ↔
      (job.writeTestset host).run.run (host.stopwatch.run start).2 = (.error error, final) ∨
      ∃ written, (job.writeTestset host).run.run (host.stopwatch.run start).2 = (.ok (), written) ∧
        ((job.verifyTestset host).run.run written = (.error error, final) ∨
        ∃ checked, (job.verifyTestset host).run.run written = (.ok (), checked) ∧
          (job.writeManifest host).run.run checked = (.error error, final)) := by
  rw [run, run_lift_bind, run_bind_eq_error_iff]
  refine or_congr_right ?_
  constructor
  · rintro ⟨_, written, hwritten, hrest⟩
    refine ⟨written, hwritten, ?_⟩
    rcases run_bind_eq_error_iff.mp hrest with hverify | ⟨_, checked, hchecked, hmanifest⟩
    · exact .inl hverify
    · refine .inr ⟨checked, hchecked, ?_⟩
      rcases run_bind_eq_error_iff.mp hmanifest with hmanifest | ⟨_, _, _, hend⟩
      · exact hmanifest
      · cases congrArg Prod.fst hend
  · rintro ⟨written, hwritten, hrest⟩
    refine ⟨(), written, hwritten, run_bind_eq_error_iff.mpr ?_⟩
    rcases hrest with hverify | ⟨checked, hchecked, hmanifest⟩
    · exact .inl hverify
    · exact .inr ⟨(), checked, hchecked, run_bind_eq_error_iff.mpr (.inl hmanifest)⟩

/-- The manifest of a job fails to be written or not at all. -/
theorem writeManifest_error
    (h : (job.writeManifest host).run.run start = (.error error, final)) :
    ∃ fault, error = .noManifest (Path.manifest job.path) fault := by
  rw [writeManifest] at h
  cases hmanifest : job.manifest with
  | true =>
    rw [hmanifest, if_pos rfl, run_lift_bind] at h
    exact write_orThrow_error h
  | false =>
    rw [hmanifest] at h
    cases congrArg Prod.fst h

/-- A job fails for one of four reasons, none of which is a fault of coverage. -/
theorem run_error (h : (job.run host).run.run start = (.error error, final)) :
    (∃ fault, error = .unwritten job.path fault) ∨ (∃ cause, error = .unread cause) ∨
      error = .differs job.path ∨ ∃ fault, error = .noManifest (Path.manifest job.path) fault := by
  rcases run_eq_error_iff.mp h with hwrite | ⟨written, -, hverify | ⟨checked, -, hmanifest⟩⟩
  · exact .inl (write_orThrow_error hwrite)
  · rcases verifyTestset_error hverify with hunread | hdiffers
    · exact .inr (.inl hunread)
    · exact .inr (.inr (.inl hdiffers))
  · exact .inr (.inr (.inr (writeManifest_error hmanifest)))

/-- Once its testset is written, a job to be verified is past its verification, so that only its
manifest can still fail, when what it reads back is faithful. -/
theorem faithful_iff_of_written (hverify : job.verify = true) {written : σ}
    (hwritten : (job.writeTestset host).run.run (host.stopwatch.run start).2 =
      (.ok (), written)) :
    job.Faithful ((host.read job.path).run written).1 ↔
      ∀ error, ((job.run host).run.run start).1 = .error error →
        ∃ fault, error = .noManifest (Path.manifest job.path) fault := by
  constructor
  · intro hfaithful error herror
    have hpasses : (job.verifyTestset host).run.run written =
        (.ok (), ((host.read job.path).run written).2) := by
      rw [verifyTestset_run hverify, checkReadBack_eq_ok_iff.mpr hfaithful]
    rcases run_eq_error_iff.mp (Prod.ext herror rfl) with hwrite | ⟨other, hother, hrest⟩
    · cases congrArg Prod.fst (hwritten.symm.trans hwrite)
    · obtain rfl : written = other := congrArg Prod.snd (hwritten.symm.trans hother)
      rcases hrest with hfails | ⟨checked, -, hmanifest⟩
      · cases congrArg Prod.fst (hpasses.symm.trans hfails)
      · exact writeManifest_error hmanifest
  · intro hends
    rw [← checkReadBack_eq_ok_iff]
    cases hcheck : job.checkReadBack ((host.read job.path).run written).1 with
    | ok _ => rfl
    | error error =>
      have hfails : (job.verifyTestset host).run.run written =
          (.error error, ((host.read job.path).run written).2) := by
        rw [verifyTestset_run hverify, hcheck]
      have hrun := run_eq_error_iff.mpr (.inr ⟨written, hwritten, .inl hfails⟩)
      obtain ⟨fault, rfl⟩ := hends error (congrArg Prod.fst hrun)
      rcases checkReadBack_error hcheck with ⟨cause, hcause⟩ | hdiffers
      · cases hcause
      · cases hdiffers

/-- The verification of a job accepts exactly the files that read as its offsets. Whatever the host
is and whatever state it is in when the testset is read back, the verification passes if and only
if what is read is faithful; and a job whose testset is written ends with an error that is not about
its manifest if and only if what it reads back is not. The text that was written is faithful. The
offsets cover the extent, so whatever equals them does, and no job on any host ends with a fault of
coverage. -/
theorem verification_accepts_exactly_faithful_files {σ : Type} (host : Host (StateM σ))
    {job : Job} (hverify : job.verify = true) :
    (∀ state, ((job.verifyTestset host).run.run state).1 = .ok () ↔
      job.Faithful ((host.read job.path).run state).1) ∧
    (∀ start written, (job.writeTestset host).run.run (host.stopwatch.run start).2 =
        (.ok (), written) →
      (job.Faithful ((host.read job.path).run written).1 ↔
        ∀ error, ((job.run host).run.run start).1 = .error error →
          ∃ fault, error = .noManifest (Path.manifest job.path) fault)) ∧
    job.Faithful (.ok (Bytes.ofText (Testset.render (job.plan.offsetsOfSeed job.seed)))) ∧
    checkCoverage (job.plan.offsetsOfSeed job.seed) job.plan.extent job.plan.blockSize = none ∧
    ∀ start path fault, ((job.run host).run.run start).1 ≠ .error (.incomplete path fault) := by
  refine ⟨fun state => ?_, fun start written hwritten => ?_, ?_, ?_, fun start path fault => ?_⟩
  · rw [verifyTestset_run hverify]
    exact checkReadBack_eq_ok_iff
  · exact faithful_iff_of_written hverify hwritten
  · exact ⟨_, rfl, Testset.read_ofText_render _ _⟩
  · rw [← job.offsets_eq]
    exact job.checkCoverage_offsets
  · intro herror
    rcases run_error (Prod.ext herror rfl) with ⟨_, h⟩ | ⟨_, h⟩ | h | ⟨_, h⟩
    · cases h
    · cases h
    · cases h
    · cases h

/-- Offsets that are spelled in other ways, with a blank line between them, pass. The null device takes
the testset and gives nothing back, so there the job fails, and not for its manifest. -/
theorem verification_accepts_exactly_faithful_files_respelled :
    let given : Surroundings := ⟨fun b => b, fun _ => .epoch⟩
    let plan : BlockPlan :=
      ⟨⟨.roundRobinSequential, 32, 8, ⟨16, 2⟩⟩, by decide, by decide, by decide, by decide, by decide⟩
    let job := Job.ofPlan { Settings.standard with output := "/t", verify := true } 7 plan
    let respelled := Bytes.ofText "0\r\n\n +16\n\t008\n24"
    let rewritten : FileSystem := ⟨[(["t"], .file respelled)], []⟩
    let device : FileSystem := ⟨[(["t"], .nullDevice)], []⟩
    job.verify = true ∧ ((job.verifyTestset given.host).run.run rewritten).1 = .ok () ∧
      (job.writeTestset given.host).run.run (given.host.stopwatch.run device).2 =
        (.ok (), device) ∧
      ∃ error, ((job.run given.host).run.run device).1 = .error error ∧
        ∀ fault, error ≠ .noManifest (Path.manifest job.path) fault := by
  intro given plan job respelled rewritten device
  have hverify : job.verify = true := rfl
  have hrespelled : ((given.host.read job.path).run rewritten).1 = .ok respelled := by
    decide +kernel
  have hoffsets : Testset.read job.path respelled = .ok (job.plan.offsetsOfSeed job.seed) := by
    decide +kernel
  have hnothing : ((given.host.read job.path).run device).1 = .ok [] := by decide +kernel
  have hwritten : (job.writeTestset given.host).run.run (given.host.stopwatch.run device).2 =
      (.ok (), device) :=
    writeTestset_eq_ok_iff.mpr (by decide +kernel)
  have hunfaithful : ¬job.Faithful ((given.host.read job.path).run device).1 := by
    rw [faithful_iff, hnothing]
    decide +kernel
  obtain ⟨hpasses, hends, -⟩ := verification_accepts_exactly_faithful_files given.host hverify
  rw [hends device device hwritten] at hunfaithful
  push Not at hunfaithful
  exact ⟨hverify, (hpasses rewritten).mpr ⟨respelled, hrespelled, hoffsets⟩, hwritten, hunfaithful⟩

end AccessPattern.Job
