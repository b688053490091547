import AccessPattern.Plan.Block
import AccessPattern.Proofs.Checks
import AccessPattern.Proofs.Order.Blocks

/-!
# Requests that make a plan

Which texts name a strategy, and what a request has to fulfil to make a plan. The names are listed
strategy by strategy; the conditions on a request are listed in the order in which they are checked,
with divisibility as natural numbers.
-/

namespace AccessPattern

namespace Strategy

/-- The names of a strategy in their plain spelling, aliases last. -/
def plainNames : Strategy → List String
  | linear => ["linear", "sequential"]
  | random => ["random"]
  | roundRobinSequential => ["round_robin_sequential"]
  | roundRobinRandom => ["round_robin_random", "round_robin"]
  | roundRobinPerPages => ["round_robin_per_pages"]

/-- The strategies that take the channels in turn. -/
def roundRobins : List Strategy :=
  [roundRobinSequential, roundRobinRandom, roundRobinPerPages]

/-- The order depends on the channels where these are taken in turn. -/
theorem isStriped_iff {strategy : Strategy} : strategy.isStriped ↔ strategy ∈ roundRobins := by
  cases strategy <;> decide

/-- The name under which a strategy is listed is a name of it. -/
theorem name_mem_plainNames (strategy : Strategy) : strategy.name ∈ strategy.plainNames := by
  cases strategy <;> decide

/-- A text in plain spelling is read as the strategy that it is a name of. -/
theorem ofPlainName?_eq_some_iff {text : String} {strategy : Strategy} :
    ofPlainName? text = some strategy ↔ text ∈ strategy.plainNames := by
  constructor
  · intro h
    unfold ofPlainName? at h
    split at h
    · next hsequential =>
      rw [hsequential, ← Option.some.inj h]
      decide
    · split at h
      · next hrobin =>
        rw [hrobin, ← Option.some.inj h]
        decide
      · have hname := List.find?_some h
        rw [← beq_iff_eq.mp hname]
        exact strategy.name_mem_plainNames
  · have hnames : ∀ strategy ∈ all, ∀ name ∈ strategy.plainNames,
        ofPlainName? name = some strategy := by
      decide +kernel
    exact hnames strategy strategy.mem_all text

/-- A text is read as the strategy that its plain spelling is a name of. -/
theorem parse?_eq_some_iff {text : String} {strategy : Strategy} :
    parse? text = some strategy ↔ plainName text ∈ strategy.plainNames :=
  ofPlainName?_eq_some_iff

end Strategy

/-- One number of 64 bits divides another without remainder if it does so as a natural number. -/
theorem mod_eq_zero_iff_dvd {n divisor : UInt64} :
    n % divisor = 0 ↔ divisor.toNat ∣ n.toNat := by
  rw [← UInt64.toNat_inj, UInt64.toNat_mod]
  exact (Nat.dvd_iff_mod_eq_zero).symm

namespace PlanRequest

/-- What a request has to fulfil, in the order in which it is checked. -/
def checks (request : PlanRequest) : List (Check PlanError) :=
  [⟨.zeroBlockSize, request.blockSize = 0⟩,
    ⟨.zeroPageSize, request.geometry.pageSize = 0⟩,
    ⟨.noChannels, request.geometry.channels = 0⟩,
    ⟨.unevenExtent request.blockSize request.extent,
      ¬request.blockSize.toNat ∣ request.extent.toNat⟩,
    ⟨.unevenPage request.blockSize request.geometry.pageSize request.strategy,
      request.strategy ∈ Strategy.roundRobins ∧
        ¬request.blockSize.toNat ∣ request.geometry.pageSize.toNat⟩]

/-- A request that makes a plan. -/
structure IsPlannable (request : PlanRequest) : Prop where
  blockSize_pos : 0 < request.blockSize
  pageSize_pos : 0 < request.geometry.pageSize
  channels_pos : 0 < request.geometry.channels
  blockSize_dvd_extent : request.blockSize.toNat ∣ request.extent.toNat
  /-- Where the channels are taken in turn, pages are made of whole blocks. -/
  blockSize_dvd_pageSize : request.strategy ∈ Strategy.roundRobins →
    request.blockSize.toNat ∣ request.geometry.pageSize.toNat

/-- A request is refused for the first check that it violates. -/
@[simp] theorem failure?_check (request : PlanRequest) :
    failure? (BlockPlan.check request) = Check.firstViolated? request.checks := by
  simp only [checks, Check.firstViolated?_cons, decide_eq_true_eq, ← mod_eq_zero_iff_dvd,
    ← Strategy.isStriped_iff]
  unfold BlockPlan.check
  by_cases hb : request.blockSize = 0
  · rw [dif_pos hb, if_pos hb]
    rfl
  rw [dif_neg hb, if_neg hb]
  by_cases hp : request.geometry.pageSize = 0
  · rw [dif_pos hp, if_pos hp]
    rfl
  rw [dif_neg hp, if_neg hp]
  by_cases hc : request.geometry.channels = 0
  · rw [dif_pos hc, if_pos hc]
    rfl
  rw [dif_neg hc, if_neg hc]
  by_cases he : request.extent % request.blockSize = 0
  · rw [dif_pos he, if_neg (not_not_intro he)]
    by_cases hs : request.strategy.isStriped → request.geometry.pageSize % request.blockSize = 0
    · rw [dif_pos hs, if_neg fun h => h.2 (hs h.1)]
      rfl
    · rw [dif_neg hs, if_pos (Classical.not_imp.mp hs)]
      rfl
  · rw [dif_neg he, if_pos he]
    rfl

/-- A request makes a plan if it violates no check. -/
theorem isPlannable_iff {request : PlanRequest} :
    request.IsPlannable ↔ Check.firstViolated? request.checks = none := by
  rw [Check.firstViolated?_eq_none_iff]
  simp only [checks, List.forall_mem_cons, List.not_mem_nil, false_implies, implies_true, and_true,
    decide_eq_false_iff_not, not_and, Decidable.not_not, ← UInt64.pos_iff_ne_zero]
  constructor
  · intro h
    exact ⟨h.blockSize_pos, h.pageSize_pos, h.channels_pos, h.blockSize_dvd_extent,
      h.blockSize_dvd_pageSize⟩
  · intro ⟨hb, hp, hc, he, hs⟩
    exact ⟨hb, hp, hc, he, hs⟩

/-- A request has a plan if it fulfils what is checked. -/
theorem exists_check_iff {request : PlanRequest} :
    (∃ plan, BlockPlan.check request = .ok plan) ↔ request.IsPlannable := by
  rw [isPlannable_iff, ← failure?_check, failure?_eq_none_iff]

end PlanRequest

end AccessPattern
