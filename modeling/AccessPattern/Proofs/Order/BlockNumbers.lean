import AccessPattern.Proofs.Order.PageTurns
import AccessPattern.Proofs.Order.Ranks

/-!
# Orders of block numbers

A strategy orders the blocks of an extent by their numbers. Of the sizes it sees no more than three
counts: how many blocks there are, how many of them make up a page, and how many channels take the
pages. The offsets only come in at the end, when each number is turned into the offset of its block.
-/

namespace AccessPattern

variable {σ : Type} [WordSource σ]

/-- Order the numbers of some blocks, so many of which make up a page, for so many channels. -/
def Strategy.orderNumbers (strategy : Strategy) (perPage channels blocks : Nat) :
    StateM σ (List Nat) :=
  match strategy with
  | .linear => pure (List.range blocks)
  | .random => do
    let numbers ← Shuffle.shuffle (List.range blocks).toArray
    pure numbers.toList
  | .roundRobinSequential => pure (blocksInTurn perPage channels blocks)
  | .roundRobinRandom => do
    let lanes ← shuffleEach ((List.range channels).map (channelBlocks perPage channels blocks))
    pure (interleave lanes)
  | .roundRobinPerPages => do
    let lanes ← shuffleEach (columns channels ((blocks + perPage - 1) / perPage))
    pure ((interleave lanes).flatMap (chunk perPage blocks))

namespace BlockPlan

variable (plan : BlockPlan)

/-- The pages that a striped plan touches are those that its blocks fill, the last one perhaps in
part. -/
theorem pageCount_eq_of_striped {plan : BlockPlan} (hstriped : plan.strategy.isStriped) :
    plan.pageCount =
      (plan.blockCount.toNat + plan.blocksPerPage.toNat - 1) / plan.blocksPerPage.toNat := by
  have hpositive := blocksPerPage_pos hstriped
  refine eq_of_forall_lt_iff fun page => ?_
  rw [lt_pageCount_iff_block hstriped, Nat.lt_iff_add_one_le (n := _ / _),
    Nat.le_div_iff_mul_le hpositive, Nat.succ_mul]
  omega

/-- Generating a plan is ordering the numbers of its blocks and putting in their offsets. -/
theorem generate_run_orderNumbers (source : σ) :
    plan.generate.run source = Prod.map (List.map plan.blockOffset) id
      ((plan.strategy.orderNumbers plan.blocksPerPage.toNat plan.geometry.channels.toNat
        plan.blockCount.toNat).run source) := by
  unfold generate Strategy.orderNumbers
  cases hstrategy : plan.strategy with
  | linear => rfl
  | random =>
    change Prod.map Array.toList id ((Shuffle.shuffle plan.linearOffsets.toArray).run source) = _
    rw [linearOffsets_eq, ← List.map_toArray, Shuffle.shuffle_map]
    exact Prod.ext Array.toList_map rfl
  | roundRobinSequential =>
    have hstriped : plan.strategy.isStriped := by rw [hstrategy]; rfl
    rw [rotatedOffsets_eq hstriped]
    rfl
  | roundRobinRandom =>
    have hstriped : plan.strategy.isStriped := by rw [hstrategy]; rfl
    rw [shuffledLanes_run, lanes_eq_channelBlocks hstriped, shuffleEach_map]
    exact Prod.ext (interleave_map _ _) rfl
  | roundRobinPerPages =>
    have hstriped : plan.strategy.isStriped := by rw [hstrategy]; rfl
    rw [shuffledPages_run hstriped, pageTurns, pageCount_eq_of_striped hstriped,
      funext (pageBlocks_eq_map hstriped)]
    exact Prod.ext List.map_flatMap.symm rfl

end BlockPlan

end AccessPattern
