import AccessPattern.Proofs.Run.Job
import AccessPattern.Run.Basic

/-!
# The jobs of a run

Jobs done one after the other store the files of all of them. Since a job that succeeds could
write its files from the start, it does not matter which jobs were done before it: if all jobs
succeed in one order they do so in every order.
-/

namespace AccessPattern

namespace JobResult

/-- A job that did not fail has a report. -/
theorem isFailure_ofJob_eq_false_iff {job : Job} {result : Except JobError JobReport} :
    (ofJob job result).isFailure = false ↔ ∃ report, result = .ok report := by
  cases result with
  | ok report => simp [ofJob, isFailure, errorOf?]
  | error error => simp [ofJob, isFailure, errorOf?]

end JobResult

namespace Run

open FileSystem

/-- The seed for a block size: that of the settings, or the one drawn for it. -/
def seedOf (given : Surroundings) (s : Settings) (blockSize : UInt64) : UInt64 :=
  s.seed.getD (given.seedOf blockSize)

/-- The job of a plan. -/
def jobFor (given : Surroundings) (s : Settings) (plan : BlockPlan) : Job :=
  Job.ofPlan s (seedOf given s plan.blockSize) plan

/-- The files that the job of a plan writes. -/
def targetsFor (given : Surroundings) (s : Settings) (plan : BlockPlan) : List (String × Bytes) :=
  (jobFor given s plan).targets (given.timeOf plan.blockSize)

variable {given : Surroundings} {s : Settings} {fs : FileSystem}

/-- Doing the job of a plan is running that job. -/
theorem doJob_run (plan : BlockPlan) :
    (doJob given.host s plan).run fs =
      (JobResult.ofJob (jobFor given s plan)
          (((jobFor given s plan).run given.host).run.run fs).1,
        (((jobFor given s plan).run given.host).run.run fs).2) := by
  rw [doJob, jobFor, seedOf, seedFor]
  cases s.seed with
  | none => rfl
  | some seed => rfl

/-- Jobs are done one by one, each on what the ones before it leave. -/
theorem doJobs_cons_run (plan : BlockPlan) (plans : List BlockPlan) :
    ((plan :: plans).mapM (doJob given.host s)).run fs =
      (((doJob given.host s plan).run fs).1 ::
          ((plans.mapM (doJob given.host s)).run ((doJob given.host s plan).run fs).2).1,
        ((plans.mapM (doJob given.host s)).run ((doJob given.host s plan).run fs).2).2) := by
  rw [List.mapM_cons]
  rfl

/-- The results are those of the plans in turn. -/
@[simp] theorem map_blockSize_doJobs (plans : List BlockPlan) :
    ((plans.mapM (doJob given.host s)).run fs).1.map (·.blockSize) =
      plans.map (·.blockSize) := by
  induction plans generalizing fs with
  | nil => rfl
  | cons plan plans ih =>
    rw [doJobs_cons_run, List.map_cons, List.map_cons, ih, doJob_run]
    rfl

/-- A job whose files can be written succeeds and stores them. -/
theorem doJob_store {plan : BlockPlan} {files : List (Location × Bytes)}
    (hfiles : fs.WritableFiles files) (h : fs.Accepts (targetsFor given s plan)) :
    ((doJob given.host s plan).run (fs.store files)).2 =
        fs.store (files ++ fs.place (targetsFor given s plan)) ∧
      ((doJob given.host s plan).run (fs.store files)).1.isFailure = false := by
  obtain ⟨report, hrun⟩ := (jobFor given s plan).run_store hfiles h
  rw [doJob_run]
  constructor
  · exact congrArg Prod.snd hrun
  · exact JobResult.isFailure_ofJob_eq_false_iff.mpr ⟨report, congrArg Prod.fst hrun⟩

/-- A job that succeeds could write its files all along, devices apart. -/
theorem accepts_of_doJob {plan : BlockPlan} {files : List (Location × Bytes)}
    (hfiles : fs.WritableFiles files)
    (hplain : ∀ target ∈ targetsFor given s plan, fs.Plain target.1)
    (h : ((doJob given.host s plan).run (fs.store files)).1.isFailure = false) :
    fs.Accepts (targetsFor given s plan) := by
  rw [doJob_run] at h
  obtain ⟨report, hreport⟩ := JobResult.isFailure_ofJob_eq_false_iff.mp h
  exact (jobFor given s plan).accepts_of_run hfiles hplain (Prod.ext hreport rfl)

/-- Jobs whose files can be written all succeed and store them. -/
theorem doJobs_store {plans : List BlockPlan} {files : List (Location × Bytes)}
    (hfiles : fs.WritableFiles files)
    (h : ∀ plan ∈ plans, fs.Accepts (targetsFor given s plan)) :
    ((plans.mapM (doJob given.host s)).run (fs.store files)).2 =
        fs.store (files ++ fs.place (plans.flatMap (targetsFor given s))) ∧
      ∀ r ∈ ((plans.mapM (doJob given.host s)).run (fs.store files)).1,
        r.isFailure = false := by
  induction plans generalizing files with
  | nil =>
    rw [List.flatMap_nil, FileSystem.place_nil, List.append_nil]
    exact ⟨rfl, fun r hr => absurd hr List.not_mem_nil⟩
  | cons plan plans ih =>
    rw [List.forall_mem_cons] at h
    obtain ⟨hstate, hsuccess⟩ := doJob_store hfiles h.1
    obtain ⟨hfinal, hothers⟩ := ih (hfiles.append h.1.writableFiles_place) h.2
    rw [doJobs_cons_run, hstate, List.flatMap_cons, place_append, ← List.append_assoc]
    exact ⟨hfinal, List.forall_mem_cons.mpr ⟨hsuccess, hothers⟩⟩

/-- Jobs that all succeed could write their files all along, devices apart. -/
theorem accepts_of_doJobs {plans : List BlockPlan} {files : List (Location × Bytes)}
    (hfiles : fs.WritableFiles files)
    (hplain : ∀ plan ∈ plans, ∀ target ∈ targetsFor given s plan, fs.Plain target.1)
    (h : ∀ r ∈ ((plans.mapM (doJob given.host s)).run (fs.store files)).1,
      r.isFailure = false) :
    ∀ plan ∈ plans, fs.Accepts (targetsFor given s plan) := by
  induction plans generalizing files with
  | nil => exact fun plan hplan => absurd hplan List.not_mem_nil
  | cons plan plans ih =>
    rw [List.forall_mem_cons] at hplain
    rw [doJobs_cons_run, List.forall_mem_cons] at h
    have haccepts := accepts_of_doJob hfiles hplain.1 h.1
    obtain ⟨hstate, -⟩ := doJob_store hfiles haccepts
    rw [hstate] at h
    exact List.forall_mem_cons.mpr
      ⟨haccepts, ih (hfiles.append haccepts.writableFiles_place) hplain.2 h.2⟩

/-- In results with different block sizes each is found by its block size. -/
theorem find?_blockSize_eq_some {results : List JobResult}
    (hnodup : (results.map (·.blockSize)).Nodup) {r : JobResult} (hr : r ∈ results) :
    (results.find? fun other => other.blockSize == r.blockSize) = some r := by
  cases hfind : results.find? fun other => other.blockSize == r.blockSize with
  | none =>
    have hnone := List.find?_eq_none.mp hfind r hr
    simp at hnone
  | some found =>
    have hsame : found.blockSize = r.blockSize := by simpa using List.find?_some hfind
    rw [List.inj_on_of_nodup_map hnodup (List.mem_of_find?_eq_some hfind) hr hsame]

/-- Putting the results of all plans in their order loses and repeats none. -/
theorem inPlanOrder_perm {plans : List BlockPlan} {results : List JobResult}
    (hnodup : (plans.map (·.blockSize)).Nodup)
    (hresults : (results.map (·.blockSize)).Perm (plans.map (·.blockSize))) :
    (inPlanOrder plans results).Perm results := by
  let found (blockSize : UInt64) : Option JobResult :=
    results.find? fun r => r.blockSize == blockSize
  have hfound : (results.map (·.blockSize)).filterMap found = results := by
    rw [List.filterMap_map]
    refine (List.filterMap_congr fun r hr => ?_).trans List.filterMap_some
    exact find?_blockSize_eq_some (hresults.nodup_iff.mpr hnodup) hr
  calc inPlanOrder plans results
      = (plans.map (·.blockSize)).filterMap found := by rw [List.filterMap_map]; rfl
    List.Perm _ ((results.map (·.blockSize)).filterMap found) := (hresults.filterMap found).symm
    _ = results := hfound

/-- The outcome of jobs is an error that counts those that failed, if there are any. -/
theorem conclude_ends {before : List String} {warnings : List LogLine}
    {plans : List BlockPlan} {results : List JobResult} {elapsed : Nat}
    (hnodup : (plans.map (·.blockSize)).Nodup)
    (hresults : (results.map (·.blockSize)).Perm (plans.map (·.blockSize))) :
    ((conclude before warnings plans results elapsed).exitCode = 0 ↔
        results.countP JobResult.isFailure = 0) ∧
      (results.countP JobResult.isFailure ≠ 0 →
        (conclude before warnings plans results elapsed).report = Report.error
          (RunError.jobs (results.countP JobResult.isFailure) plans.length).chain) := by
  rw [conclude]
  simp only [(inPlanOrder_perm hnodup hresults).countP_eq]
  split
  · next hpos =>
    refine ⟨⟨fun hexit => ?_, fun hzero => absurd hzero (Nat.ne_of_gt hpos)⟩, fun _ => rfl⟩
    exact absurd (show (1 : UInt32) = 0 from hexit) (by decide)
  · next hnone =>
    have hzero := Nat.eq_zero_of_not_pos hnone
    exact ⟨⟨fun _ => hzero, fun _ => rfl⟩, fun hne => absurd hzero hne⟩

end Run

end AccessPattern
