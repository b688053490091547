import AccessPattern.Files.System
import AccessPattern.Proofs.Plan.Requests
import AccessPattern.Proofs.Settings.Validity

/-!
# What makes settings valid

Settings are checked in a fixed order: the list of block sizes, the output path, the strategy, and
then for each block size in turn what its plan has to fulfil. The list of all these checks says which
fault is reported of any settings, whatever else is wrong with them. Settings that violate none of
them are those that can be generated.
-/

namespace AccessPattern.Settings

open Check

/-- Each block size stands at no earlier place of the list. -/
def repetitionChecks (blockSizes : List UInt64) : List (Check SettingsFault) :=
  blockSizes.zipIdx.map fun (blockSize, place) =>
    ⟨.repeatedBlockSize blockSize, blockSize ∈ blockSizes.take place⟩

/-- The strategy that the pattern is a name of. -/
def named? (s : Settings) : Option Strategy :=
  Strategy.all.find? fun strategy => Strategy.plainName s.pattern ∈ strategy.plainNames

/-- The pattern names a strategy, and each block size in turn has a plan of that strategy. -/
def planChecks (s : Settings) : List (Check SettingsFault) :=
  match s.named? with
  | none => [⟨.request (.unknownStrategy s.pattern), true⟩]
  | some strategy => s.blockSizes.flatMap fun blockSize =>
    (s.request strategy blockSize).checks.map (rename fun error => .request (.plan error))

/-- All that is checked of settings, in order. -/
def checks (fs : FileSystem) (s : Settings) : List (Check SettingsFault) :=
  ⟨.noBlockSize, s.blockSizes = []⟩ :: repetitionChecks s.blockSizes ++
    [⟨.emptyOutput, s.output = ""⟩,
      ⟨.outputIsDirectory s.output, fs.isDirectory s.output⟩] ++ s.planChecks

/-- Settings that can be generated on a file system. -/
structure IsGeneratable (s : Settings) (fs : FileSystem) : Prop where
  blockSizes_ne_nil : s.blockSizes ≠ []
  blockSizes_nodup : s.blockSizes.Nodup
  output_ne_empty : s.output ≠ ""
  output_not_directory : fs.isDirectory s.output = false
  /-- The pattern names a strategy, and each block size has a plan of it. -/
  plannable : ∃ strategy, Strategy.plainName s.pattern ∈ strategy.plainNames ∧
    ∀ blockSize ∈ s.blockSizes, PlanRequest.IsPlannable ⟨strategy, s.size, blockSize, s.geometry⟩

variable {s : Settings} {fs : FileSystem}

/-- Searching on after the numbers seen so far finds the first number that stands among those before
its place. -/
theorem firstViolated?_zipIdx (seen before later : List UInt64)
    (hseen : ∀ blockSize, blockSize ∈ seen ↔ blockSize ∈ before) :
    firstViolated? ((later.zipIdx before.length).map fun (blockSize, place) =>
        (⟨.repeatedBlockSize blockSize, blockSize ∈ (before ++ later).take place⟩ :
          Check SettingsFault)) =
      (firstRepeated? seen later).map .repeatedBlockSize := by
  induction later generalizing before seen with
  | nil => rfl
  | cons blockSize later ih =>
    have hnext := ih (blockSize :: seen) (before ++ [blockSize]) fun other => by
      rw [List.mem_cons, List.mem_append, List.mem_singleton, hseen, or_comm]
    rw [List.append_assoc, List.singleton_append, List.length_append, List.length_singleton]
      at hnext
    rw [List.zipIdx_cons, List.map_cons, firstViolated?_cons, List.take_left, firstRepeated?, hnext]
    simp only [decide_eq_true_eq, ← hseen]
    by_cases hmem : blockSize ∈ seen
    · rw [if_pos hmem, if_pos hmem]
      rfl
    · rw [if_neg hmem, if_neg hmem]

/-- The list of block sizes is at fault for the first of its checks that is violated. -/
theorem firstViolated?_blockSizes (blockSizes : List UInt64) :
    firstViolated? (⟨.noBlockSize, blockSizes = []⟩ :: repetitionChecks blockSizes) =
      blockSizesFault? blockSizes := by
  have hrepeated : firstViolated? (repetitionChecks blockSizes) =
      (firstRepeated? [] blockSizes).map .repeatedBlockSize :=
    firstViolated?_zipIdx [] [] blockSizes fun _ => Iff.rfl
  simp [hrepeated, blockSizesFault?]

/-- An output path is at fault for the first of its checks that is violated. -/
theorem firstViolated?_output (isDirectory : Bool) (path : String) :
    firstViolated? [⟨.emptyOutput, path = ""⟩, ⟨.outputIsDirectory path, isDirectory⟩] =
      outputFault? isDirectory path := by
  simp [outputFault?]

/-- The pattern is read as the strategy that it is a name of. -/
theorem named?_eq (s : Settings) : s.named? = Strategy.parse? s.pattern := by
  cases hnamed : s.named? with
  | some strategy =>
    rw [named?] at hnamed
    have hname := List.find?_some hnamed
    exact (Strategy.parse?_eq_some_iff.mpr (of_decide_eq_true hname)).symm
  | none =>
    cases hparsed : Strategy.parse? s.pattern with
    | none => rfl
    | some strategy =>
      have hname := decide_eq_true (Strategy.parse?_eq_some_iff.mp hparsed)
      exact absurd hname (List.find?_eq_none.mp hnamed strategy strategy.mem_all)

/-- The strategy of settings is the one that their pattern is a name of. -/
theorem strategy_eq_ok_iff {strategy : Strategy} :
    s.strategy = .ok strategy ↔ Strategy.plainName s.pattern ∈ strategy.plainNames := by
  rw [← Strategy.parse?_eq_some_iff, Settings.strategy, Strategy.parse]
  cases Strategy.parse? s.pattern with
  | none => simp
  | some found => simp

/-- A block size has no plan for the first check of its request that is violated. -/
@[simp] theorem failure?_plan (strategy : Strategy) (blockSize : UInt64) :
    failure? (s.plan strategy blockSize) =
      (firstViolated? (s.request strategy blockSize).checks).map .plan := by
  rw [← PlanRequest.failure?_check, Settings.plan]
  cases BlockPlan.check (s.request strategy blockSize) with
  | error error => rfl
  | ok plan => rfl

/-- There are no plans for the first check of the pattern and the block sizes that is violated. -/
theorem failure?_plans (s : Settings) :
    (failure? s.plans).map SettingsFault.request = firstViolated? s.planChecks := by
  rw [planChecks, named?_eq, Settings.plans, Settings.strategy, Strategy.parse]
  cases Strategy.parse? s.pattern with
  | none => rfl
  | some strategy =>
    change (failure? (s.blockSizes.mapM (s.plan strategy))).map SettingsFault.request = _
    simp [List.map_findSome?, failure?_plan, Function.comp_def]

/-- Settings are refused for the first of all checks that is violated. -/
theorem failure?_validate (s : Settings) (fs : FileSystem) :
    failure? (s.validate (fs.isDirectory s.output)) = firstViolated? (s.checks fs) := by
  rw [checks, firstViolated?_append, firstViolated?_append, firstViolated?_blockSizes,
    firstViolated?_output, ← failure?_plans, ← failure?_mapError, validate]
  cases (blockSizesFault? s.blockSizes).or (outputFault? (fs.isDirectory s.output) s.output) with
  | some fault => rfl
  | none => rw [Option.none_or]

/-- There are plans when the pattern names a strategy by which every block size can be planned. -/
theorem exists_plans_iff :
    (∃ plans, s.plans = .ok plans) ↔ ∃ strategy, Strategy.plainName s.pattern ∈ strategy.plainNames ∧
      ∀ blockSize ∈ s.blockSizes, (s.request strategy blockSize).IsPlannable := by
  rw [← failure?_eq_none_iff, ← Option.map_eq_none_iff (f := SettingsFault.request), failure?_plans,
    planChecks]
  simp only [← Strategy.parse?_eq_some_iff, ← named?_eq]
  cases s.named? with
  | none => simp
  | some strategy => simp [← PlanRequest.isPlannable_iff]

/-- Settings that can be generated are those that are valid. -/
theorem isGeneratable_iff :
    s.IsGeneratable fs ↔ ∃ plans, s.validate (fs.isDirectory s.output) = .ok plans := by
  simp only [validate_eq_ok_iff, exists_and_left, exists_plans_iff]
  constructor
  · intro h
    exact ⟨⟨h.blockSizes_ne_nil, h.blockSizes_nodup⟩, ⟨h.output_ne_empty, h.output_not_directory⟩,
      h.plannable⟩
  · intro ⟨⟨hnonempty, hnodup⟩, ⟨houtput, hdirectory⟩, hplannable⟩
    exact ⟨hnonempty, hnodup, houtput, hdirectory, hplannable⟩

/-- Validation accepts the settings that can be generated and no others. It then gives the plans of
the settings, one a block size in their order, each of which divides the whole extent into blocks.
Other settings are refused for the first check that they violate. -/
theorem validate_accepts_exactly_generatable (s : Settings) (fs : FileSystem) :
    ((∃ plans, s.validate (fs.isDirectory s.output) = .ok plans) ↔ s.IsGeneratable fs) ∧
    (∀ plans, s.validate (fs.isDirectory s.output) = .ok plans → s.plans = .ok plans ∧
      (∃ strategy, Strategy.plainName s.pattern ∈ strategy.plainNames ∧
        plans.map (·.toPlanRequest) =
          s.blockSizes.map fun blockSize => ⟨strategy, s.size, blockSize, s.geometry⟩) ∧
      ∀ plan ∈ plans, plan.blockCount.toNat * plan.blockSize.toNat = s.size.toNat) ∧
    ∀ fault, s.validate (fs.isDirectory s.output) = .error fault ↔
      firstViolated? (s.checks fs) = some fault := by
  refine ⟨isGeneratable_iff.symm, fun plans h => ?_, fun fault => ?_⟩
  · obtain ⟨-, -, hplans⟩ := validate_eq_ok_iff.mp h
    obtain ⟨strategy, hstrategy, hrequests⟩ := plans_eq_ok_iff.mp hplans
    refine ⟨hplans, ⟨strategy, strategy_eq_ok_iff.mp hstrategy, hrequests⟩, fun plan hplan => ?_⟩
    have hrequest := toPlanRequest_of_mem_plans hstrategy hplans hplan
    rw [plan.blockCount_mul_blockSize, hrequest]
    rfl
  · rw [← failure?_validate, failure?_eq_some_iff]

/-- An alias in another spelling is accepted; of several faults the first one is reported. -/
theorem validate_accepts_exactly_generatable_aliased :
    (∃ plans, validate (FileSystem.scratch.isDirectory "testset.txt")
      { standard with pattern := " Round-Robin ", blockSizes := [8192, 4096] } = .ok plans) ∧
    validate (FileSystem.scratch.isDirectory "")
      { standard with pattern := "zigzag", blockSizes := [8192, 3000, 8192], output := "" } =
        .error (.repeatedBlockSize 8192) := by
  obtain ⟨haccepted, -, -⟩ := validate_accepts_exactly_generatable
    { standard with pattern := " Round-Robin ", blockSizes := [8192, 4096] } .scratch
  obtain ⟨-, -, hrefused⟩ := validate_accepts_exactly_generatable
    { standard with pattern := "zigzag", blockSizes := [8192, 3000, 8192], output := "" } .scratch
  constructor
  · refine haccepted.mpr
      ⟨by decide, by decide, by decide, by decide +kernel, .roundRobinRandom, by decide +kernel, ?_⟩
    have hlarge : PlanRequest.IsPlannable
        ⟨.roundRobinRandom, 4294967296, 8192, Geometry.standard⟩ :=
      PlanRequest.isPlannable_iff.mpr (by decide)
    have hsmall : PlanRequest.IsPlannable
        ⟨.roundRobinRandom, 4294967296, 4096, Geometry.standard⟩ :=
      PlanRequest.isPlannable_iff.mpr (by decide)
    exact List.forall_mem_cons.mpr ⟨hlarge, List.forall_mem_singleton.mpr hsmall⟩
  · exact (hrefused _).mpr (by decide +kernel)

end AccessPattern.Settings
