import AccessPattern.Proofs.Except
import AccessPattern.Settings.Validation
import Mathlib.Data.List.Nodup

/-!
# Valid settings

Validation succeeds when the block sizes are listed once each, the output path is free for a file
and the strategy makes a plan for every block size; the plans are then in the order of the block
sizes.
-/

namespace AccessPattern

/-- A request passes the check when the plan asks for what it asks for. -/
theorem BlockPlan.check_eq_ok_iff {request : PlanRequest} {plan : BlockPlan} :
    BlockPlan.check request = .ok plan ↔ plan.toPlanRequest = request := by
  constructor
  · exact BlockPlan.toPlanRequest_of_check
  · intro h
    simp [← h]

namespace Settings

variable {s : Settings}

/-- No number is found repeated when the list has none twice and none that was seen before. -/
theorem firstRepeated?_eq_none_iff {seen blockSizes : List UInt64} :
    firstRepeated? seen blockSizes = none ↔
      blockSizes.Nodup ∧ ∀ blockSize ∈ blockSizes, blockSize ∉ seen := by
  induction blockSizes generalizing seen with
  | nil => simp [firstRepeated?]
  | cons blockSize later ih =>
    rw [firstRepeated?, List.nodup_cons, List.forall_mem_cons]
    by_cases hseen : blockSize ∈ seen
    · simp [hseen]
    · rw [if_neg hseen, ih]
      simp only [List.mem_cons, not_or]
      constructor
      · intro ⟨hnodup, hlater⟩
        exact ⟨⟨fun hmem => (hlater _ hmem).1 rfl, hnodup⟩, hseen,
          fun other hother => (hlater other hother).2⟩
      · intro ⟨⟨hnew, hnodup⟩, _, hlater⟩
        refine ⟨hnodup, fun other hother => ⟨fun heq => ?_, hlater other hother⟩⟩
        exact hnew (heq ▸ hother)

/-- Nothing is wrong with a list of different block sizes that is not empty. -/
theorem blockSizesFault?_eq_none_iff {blockSizes : List UInt64} :
    blockSizesFault? blockSizes = none ↔ blockSizes ≠ [] ∧ blockSizes.Nodup := by
  unfold blockSizesFault?
  split
  · next hnil => simp [hnil]
  · next hnonempty =>
    rw [Option.map_eq_none_iff, firstRepeated?_eq_none_iff]
    simp [hnonempty]

/-- Nothing is wrong with a path that is not empty and not that of a directory. -/
theorem outputFault?_eq_none_iff {isDirectory : Bool} {path : String} :
    outputFault? isDirectory path = none ↔ path ≠ "" ∧ isDirectory = false := by
  unfold outputFault?
  split
  · next hempty => simp [hempty]
  · next hnonempty => cases isDirectory <;> simp [hnonempty]

/-- Validation succeeds when nothing is wrong with the lists and paths and there are plans. -/
theorem validate_eq_ok_iff {isDirectory : Bool} {plans : List BlockPlan} :
    s.validate isDirectory = .ok plans ↔
      (s.blockSizes ≠ [] ∧ s.blockSizes.Nodup) ∧ (s.output ≠ "" ∧ isDirectory = false) ∧
      s.plans = .ok plans := by
  rw [← blockSizesFault?_eq_none_iff, ← outputFault?_eq_none_iff, validate]
  cases hsizes : blockSizesFault? s.blockSizes with
  | some fault => simp
  | none =>
    cases houtput : outputFault? isDirectory s.output with
    | some fault => simp
    | none => simp [mapError_eq_ok_iff]

/-- The plan for a block size is the one that asks for that block size. -/
theorem plan_eq_ok_iff {strategy : Strategy} {blockSize : UInt64} {plan : BlockPlan} :
    s.plan strategy blockSize = .ok plan ↔
      plan.toPlanRequest = s.request strategy blockSize := by
  rw [← BlockPlan.check_eq_ok_iff, Settings.plan]
  cases BlockPlan.check (s.request strategy blockSize) with
  | error error => simp
  | ok found => simp

/-- The plans ask for the block sizes in turn. -/
theorem plans_eq_ok_iff {plans : List BlockPlan} :
    s.plans = .ok plans ↔ ∃ strategy, s.strategy = .ok strategy ∧
      plans.map (·.toPlanRequest) = s.blockSizes.map (s.request strategy) := by
  rw [Settings.plans, bind_eq_ok_iff]
  refine exists_congr fun strategy => and_congr_right fun _ => ?_
  have hplan (blockSize : UInt64) (plan : BlockPlan) : s.plan strategy blockSize = .ok plan ↔
      s.request strategy blockSize = plan.toPlanRequest :=
    plan_eq_ok_iff.trans eq_comm
  rw [mapM_eq_ok_iff, eq_comm, ← List.forall₂_eq_eq_eq, List.forall₂_map_left_iff,
    List.forall₂_map_right_iff]
  simp only [hplan]

/-- Each plan has its own block size. -/
theorem map_blockSize_of_plans {plans : List BlockPlan} (h : s.plans = .ok plans) :
    plans.map (·.blockSize) = s.blockSizes := by
  obtain ⟨strategy, -, hrequests⟩ := plans_eq_ok_iff.mp h
  have hsizes := congrArg (List.map PlanRequest.blockSize) hrequests
  rw [List.map_map, List.map_map] at hsizes
  exact hsizes.trans (List.map_id _)

/-- Each plan asks for what the strategy of the settings is asked to order. -/
theorem toPlanRequest_of_mem_plans {strategy : Strategy} {plans : List BlockPlan}
    (hstrategy : s.strategy = .ok strategy) (h : s.plans = .ok plans) {plan : BlockPlan}
    (hplan : plan ∈ plans) : plan.toPlanRequest = s.request strategy plan.blockSize := by
  obtain ⟨found, hfound, hrequests⟩ := plans_eq_ok_iff.mp h
  obtain rfl : found = strategy := Except.ok.inj (hfound.symm.trans hstrategy)
  have hmem : plan.toPlanRequest ∈ s.blockSizes.map (s.request found) :=
    hrequests ▸ List.mem_map_of_mem hplan
  obtain ⟨blockSize, -, hrequest⟩ := List.mem_map.mp hmem
  rw [← hrequest]
  rfl

/-- The plan at a place asks for the block size at that place. -/
theorem toPlanRequest_of_getElem? {strategy : Strategy} {plans : List BlockPlan} {place : Nat}
    {blockSize : UInt64} {plan : BlockPlan} (hstrategy : s.strategy = .ok strategy)
    (hplans : s.plans = .ok plans) (hblockSize : s.blockSizes[place]? = some blockSize)
    (hplan : plans[place]? = some plan) : plan.toPlanRequest = s.request strategy blockSize := by
  obtain ⟨found, hfound, hrequests⟩ := plans_eq_ok_iff.mp hplans
  obtain rfl : found = strategy := Except.ok.inj (hfound.symm.trans hstrategy)
  have hplace : (plans.map (·.toPlanRequest))[place]? =
      (s.blockSizes.map (s.request found))[place]? := congrArg (·[place]?) hrequests
  rw [List.getElem?_map, List.getElem?_map, hplan, hblockSize] at hplace
  exact Option.some.inj hplace

end Settings

end AccessPattern
