import AccessPattern.Proofs.Order.EveryOrder

/-!
# Where strategies agree

Strategies that look at channels differ from those that do not only where there is something to
tell apart. With a single channel there is one lane, which holds all blocks; where each block is a
page of its own the blocks are dealt onto the channels in turn and taken back in the same turns; and
where no channel has a second page there is nothing on any channel to shuffle.
-/

namespace AccessPattern

/-- No lane gets a second number while there are no more numbers than lanes. -/
theorem length_le_one_of_mem_columns {width limit : Nat} (hfew : limit ≤ width)
    {numbers : List Nat} (h : numbers ∈ columns width limit) : numbers.length ≤ 1 := by
  obtain ⟨place, hplace, rfl⟩ := List.mem_map.mp h
  have hplace := List.mem_range.mp hplace
  rw [column_eq_map hplace, List.length_map, List.length_range,
    Nat.div_le_iff_le_mul_add_pred (Nat.zero_lt_of_lt hplace)]
  omega

namespace BlockPlan

variable {σ : Type} [WordSource σ] {plan : BlockPlan}

section SingleChannel

variable (hchannel : plan.geometry.channels = 1)
include hchannel

/-- All blocks lie on the only channel. -/
theorem lanes_of_single_channel : plan.lanes = [plan.linearOffsets] := by
  have hnumber (offset : UInt64) : ((plan.geometry.channelOf offset).toNat == 0) = true := by
    rw [Geometry.channelOf, hchannel, UInt64.toNat_mod]
    exact beq_iff_eq.mpr (Nat.mod_one _)
  rw [lanes, Geometry.lanes_eq, hchannel]
  change [plan.geometry.lane plan.linearOffsets 0] = _
  rw [Geometry.lane, List.filter_eq_self.mpr fun offset _ => hnumber offset]

/-- Going round the only channel takes the blocks as they come. -/
theorem rotatedOffsets_of_single_channel : plan.rotatedOffsets = plan.linearOffsets := by
  simp [rotatedOffsets, lanes_of_single_channel hchannel]

/-- Shuffling the only channel is shuffling everything. -/
theorem shuffledLanes_run_of_single_channel (source : σ) :
    plan.shuffledLanes.run source = plan.shuffledOffsets.run source := by
  rw [shuffledLanes_run, lanes_of_single_channel hchannel, shuffleEach_cons]
  exact Prod.ext (interleave_singleton _) rfl

end SingleChannel

/-- Where each block is a page, going round the channels takes the blocks as they come. -/
theorem rotatedOffsets_of_pageSized (hpageSized : plan.blockSize = plan.geometry.pageSize) :
    plan.rotatedOffsets = plan.linearOffsets := by
  have hlanes : plan.lanes.map List.toArray =
      ((columns plan.geometry.channels.toNat plan.pageCount).map List.toArray).map
        (Array.map plan.blockOffset) := by
    rw [lanes_of_pageSized hpageSized, List.map_map, List.map_map]
    exact List.map_congr_left fun numbers _ => (List.map_toArray).symm
  rw [rotatedOffsets, hlanes, interleave_map, interleave_columns plan.channels_pos,
    pageCount_eq_blockCount hpageSized, linearOffsets_eq]

section FewPages

variable (hfew : plan.pageCount ≤ plan.geometry.channels.toNat)
include hfew

/-- The pages are visited as they come, without a draw. -/
theorem pageTurns_run_of_few_pages (source : σ) :
    plan.pageTurns.run source = (List.range plan.pageCount, source) := by
  rw [pageTurns_run, shuffleEach_of_length_le_one fun _ => length_le_one_of_mem_columns hfew,
    Prod.map_apply, interleave_columns plan.channels_pos]
  rfl

/-- The blocks of the pages are taken as they come, without a draw. -/
theorem shuffledPages_run_of_few_pages (hstriped : plan.strategy.isStriped) (source : σ) :
    plan.shuffledPages.run source = (plan.linearOffsets, source) := by
  rw [shuffledPages_run hstriped, pageTurns_run_of_few_pages hfew, Prod.map_apply,
    flatMap_pageBlocks hstriped]
  rfl

end FewPages

end BlockPlan

/-- Where a striped strategy is accepted, so are all the others, and from any source they agree
where they have nothing to differ in. With one channel, taking the channels in turn is the ascending
order, and shuffling each channel is shuffling everything and leaves the source in the same state.
Where blocks are as large as pages, taking any number of channels in turn is the ascending order.
Where the extent touches no more pages than there are channels, the order by pages is the ascending
one, and nothing is drawn. -/
theorem strategies_agree {σ : Type} [WordSource σ] {strategy : Strategy}
    {extent blockSize : UInt64} {geometry : Geometry} {plan : BlockPlan}
    (hstriped : strategy.isStriped)
    (haccepted : BlockPlan.check ⟨strategy, extent, blockSize, geometry⟩ = .ok plan) :
    ∃ plans : Strategy → BlockPlan,
      (∀ other, BlockPlan.check ⟨other, extent, blockSize, geometry⟩ = .ok (plans other)) ∧
      ∀ source : σ,
        (geometry.channels = 1 →
          (plans .roundRobinSequential).generate.run source =
            (plans .linear).generate.run source ∧
          (plans .roundRobinRandom).generate.run source =
            (plans .random).generate.run source) ∧
        (blockSize = geometry.pageSize →
          (plans .roundRobinSequential).generate.run source =
            (plans .linear).generate.run source) ∧
        ((extent.toNat + geometry.pageSize.toNat - 1) / geometry.pageSize.toNat ≤
            geometry.channels.toNat →
          (plans .roundRobinPerPages).generate.run source =
            (((plans .linear).generate.run source).1, source)) := by
  obtain ⟨rfl, rfl, rfl, rfl⟩ := PlanRequest.mk.inj (BlockPlan.toPlanRequest_of_check haccepted)
  refine ⟨fun other => plan.withStrategy other fun _ => hstriped,
    fun other => (plan.withStrategy other _).check_toPlanRequest,
    fun source => ⟨fun hchannel => ⟨?_, ?_⟩, fun hpageSized => ?_, fun hfew => ?_⟩⟩
  · exact congrArg (·, source) (BlockPlan.rotatedOffsets_of_single_channel hchannel)
  · exact BlockPlan.shuffledLanes_run_of_single_channel hchannel source
  · exact congrArg (·, source) (BlockPlan.rotatedOffsets_of_pageSized hpageSized)
  · exact BlockPlan.shuffledPages_run_of_few_pages hfew hstriped source

/-- Fourteen blocks on one channel; seven pages of one block on three channels, one of which gets a
third page; and three pages on four channels, the last one cut short. -/
theorem strategies_agree_short_page :
    (∃ shuffled whole,
      BlockPlan.check ⟨.roundRobinRandom, 56, 4, ⟨16, 1⟩⟩ = .ok shuffled ∧
      BlockPlan.check ⟨.random, 56, 4, ⟨16, 1⟩⟩ = .ok whole ∧
      shuffled.generate.run (Xoshiro.ofSeed 21) = whole.generate.run (Xoshiro.ofSeed 21)) ∧
    (∃ rotated ascending,
      BlockPlan.check ⟨.roundRobinSequential, 56, 8, ⟨8, 3⟩⟩ = .ok rotated ∧
      BlockPlan.check ⟨.linear, 56, 8, ⟨8, 3⟩⟩ = .ok ascending ∧
      rotated.generate.run (Xoshiro.ofSeed 21) = ascending.generate.run (Xoshiro.ofSeed 21)) ∧
    ∃ paged ascending,
      BlockPlan.check ⟨.roundRobinPerPages, 40, 8, ⟨16, 4⟩⟩ = .ok paged ∧
      BlockPlan.check ⟨.linear, 40, 8, ⟨16, 4⟩⟩ = .ok ascending ∧
      paged.generate.run (Xoshiro.ofSeed 21) =
        ((ascending.generate.run (Xoshiro.ofSeed 21)).1, Xoshiro.ofSeed 21) := by
  let single : BlockPlan :=
    ⟨⟨.roundRobinRandom, 56, 4, ⟨16, 1⟩⟩, by decide, by decide, by decide, by decide, by decide⟩
  let large : BlockPlan :=
    ⟨⟨.roundRobinSequential, 56, 8, ⟨8, 3⟩⟩, by decide, by decide, by decide, by decide, by decide⟩
  let few : BlockPlan :=
    ⟨⟨.roundRobinPerPages, 40, 8, ⟨16, 4⟩⟩, by decide, by decide, by decide, by decide, by decide⟩
  have hsingle : BlockPlan.check ⟨.roundRobinRandom, 56, 4, ⟨16, 1⟩⟩ = .ok single := rfl
  have hlarge : BlockPlan.check ⟨.roundRobinSequential, 56, 8, ⟨8, 3⟩⟩ = .ok large := rfl
  have hfew : BlockPlan.check ⟨.roundRobinPerPages, 40, 8, ⟨16, 4⟩⟩ = .ok few := rfl
  obtain ⟨singles, hsingles, hagree⟩ := strategies_agree (σ := Xoshiro) rfl hsingle
  obtain ⟨larges, hlarges, hturns⟩ := strategies_agree (σ := Xoshiro) rfl hlarge
  obtain ⟨fews, hfews, hpages⟩ := strategies_agree (σ := Xoshiro) rfl hfew
  obtain ⟨honeChannel, -⟩ := hagree (Xoshiro.ofSeed 21)
  obtain ⟨-, hpageSized, -⟩ := hturns (Xoshiro.ofSeed 21)
  obtain ⟨-, -, hfewPages⟩ := hpages (Xoshiro.ofSeed 21)
  exact ⟨⟨_, _, hsingles _, hsingles _, (honeChannel rfl).2⟩,
    ⟨_, _, hlarges _, hlarges _, hpageSized rfl⟩,
    ⟨_, _, hfews _, hfews _, hfewPages (by decide)⟩⟩

end AccessPattern
