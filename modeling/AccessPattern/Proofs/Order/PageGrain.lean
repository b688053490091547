import AccessPattern.Proofs.Order.PageTurns

/-!
# Pages as large blocks

The page strategy orders pages as the shuffled block strategy would order blocks of the size of a
page. The extent is rounded up to whole pages and each page is taken for one large block; then the
lanes of large blocks are as long as the lanes of page runs, so the shuffles draw the same indices,
and interleaving does not look at what it interleaves. Each large block stands for the blocks of
the extent that lie in it, which are fewer only where the extent ends within the last page.
-/

namespace AccessPattern

/-- The numbers below a limit that are reached from a start in steps. -/
def stepsBelow (step limit start : Nat) : List Nat :=
  (List.range limit).filter fun number => start ≤ number ∧ step ∣ number - start

namespace BlockPlan

variable {σ : Type} [WordSource σ] {plan : BlockPlan}

/-- As numbers, the blocks of a page ascend. -/
theorem pairwise_map_toNat_pageBlocks (plan : BlockPlan) (page : Nat) :
    ((plan.pageBlocks page).map UInt64.toNat).Pairwise (· < ·) :=
  plan.pairwise_map_toNat_linearOffsets.sublist (List.filter_sublist.map _)

/-- The blocks of a page are reached from its start in steps of the block size, up to the end of
the page or of the extent, whichever comes first. -/
theorem map_toNat_pageBlocks (hstriped : plan.strategy.isStriped) (page : Nat) :
    (plan.pageBlocks page).map UInt64.toNat =
      stepsBelow plan.blockSize.toNat
        (min (page * plan.geometry.pageSize.toNat + plan.geometry.pageSize.toNat)
          plan.extent.toNat)
        (page * plan.geometry.pageSize.toNat) := by
  have haligned : plan.blockSize.toNat ∣ page * plan.geometry.pageSize.toNat := by
    rw [← blocksPerPage_mul_blockSize hstriped, ← Nat.mul_assoc]
    exact Nat.dvd_mul_left _ _
  apply (plan.pairwise_map_toNat_pageBlocks page).eq_of_mem_iff (List.pairwise_lt_range.filter _)
  intro number
  rw [List.mem_filter, List.mem_range, decide_eq_true_eq, List.mem_map, Nat.lt_min]
  constructor
  · rintro ⟨offset, hoffset, rfl⟩
    obtain ⟨hblock, hextent, hpage⟩ := plan.mem_pageBlocks.mp hoffset
    rw [Nat.div_eq_iff plan.pageSize_pos] at hpage
    have hpageSize := plan.pageSize_pos
    exact ⟨⟨by omega, hextent⟩, hpage.1, Nat.dvd_sub hblock haligned⟩
  · rintro ⟨⟨hend, hextent⟩, hstart, hsteps⟩
    have hnumber : (UInt64.ofNat number).toNat = number :=
      UInt64.toNat_ofNat_of_lt' (Nat.lt_trans hextent plan.extent.toNat_lt)
    refine ⟨UInt64.ofNat number, plan.mem_pageBlocks.mpr ?_, hnumber⟩
    rw [hnumber, Nat.div_eq_iff plan.pageSize_pos]
    exact ⟨(Nat.dvd_sub_iff_left hstart haligned).mp hsteps, hextent, hstart, by omega⟩

section PageSized

variable (hpageSized : plan.blockSize = plan.geometry.pageSize)
include hpageSized

/-- Where blocks are as large as pages, there are as many of them. -/
theorem pageCount_eq_blockCount : plan.pageCount = plan.blockCount.toNat := by
  have hsize := plan.blockSize_pos
  rw [pageCount, ← plan.blockCount_mul_blockSize, ← hpageSized, Nat.div_eq_iff hsize]
  omega

/-- Where blocks are as large as pages, the lanes are the pages dealt onto the channels. -/
theorem lanes_of_pageSized :
    plan.lanes = (columns plan.geometry.channels.toNat plan.pageCount).map
      (List.map plan.blockOffset) := by
  rw [lanes, Geometry.lanes_eq, columns, List.map_map]
  refine List.map_congr_left fun channel _ => ?_
  rw [Geometry.lane, linearOffsets_eq, List.filter_map, Function.comp_apply, column,
    pageCount_eq_blockCount hpageSized]
  congr 1
  apply List.filter_congr
  intro block hblock
  rw [Function.comp_apply, plan.toNat_channelOf_blockOffset (List.mem_range.mp hblock),
    ← hpageSized, Nat.mul_div_cancel _ plan.blockSize_pos]

/-- Where blocks are as large as pages, shuffling the lanes of blocks visits the pages. -/
theorem shuffledLanes_run_of_pageSized (source : σ) :
    plan.shuffledLanes.run source =
      Prod.map (List.map plan.blockOffset) id (plan.pageTurns.run source) := by
  rw [shuffledLanes_run, lanes_of_pageSized hpageSized, shuffleEach_map]
  exact Prod.ext (interleave_map _ _) rfl

end PageSized

/-- The pages that a plan touches as the blocks of another plan, to be shuffled on each channel. -/
def wholePages (plan : BlockPlan)
    (hfits : plan.pageCount * plan.geometry.pageSize.toNat < UInt64.size) : BlockPlan where
  strategy := .roundRobinRandom
  extent := UInt64.ofNat (plan.pageCount * plan.geometry.pageSize.toNat)
  blockSize := plan.geometry.pageSize
  geometry := plan.geometry
  blockSize_ne_zero := plan.pageSize_ne_zero
  pageSize_ne_zero := plan.pageSize_ne_zero
  channels_ne_zero := plan.channels_ne_zero
  extent_mod_blockSize := UInt64.toNat_inj.mp <| by
    rw [UInt64.toNat_mod, UInt64.toNat_ofNat_of_lt' hfits, Nat.mul_mod_left]
    rfl
  pageSize_mod_blockSize _ := UInt64.toNat_inj.mp <| by
    rw [UInt64.toNat_mod, Nat.mod_self]
    rfl

variable (hfits : plan.pageCount * plan.geometry.pageSize.toNat < UInt64.size)

/-- There are as many large blocks as the plan touches pages. -/
theorem blockCount_wholePages :
    (plan.wholePages hfits).blockCount.toNat = plan.pageCount := by
  change (UInt64.ofNat (plan.pageCount * plan.geometry.pageSize.toNat) /
    plan.geometry.pageSize).toNat = _
  rw [UInt64.toNat_div, UInt64.toNat_ofNat_of_lt' hfits, Nat.mul_div_cancel _ plan.pageSize_pos]

/-- The large blocks are visited as the plan visits its pages. -/
theorem pageTurns_wholePages :
    (plan.wholePages hfits).pageTurns (σ := σ) = plan.pageTurns := by
  have hcount : (plan.wholePages hfits).pageCount = plan.pageCount :=
    (pageCount_eq_blockCount rfl).trans (blockCount_wholePages hfits)
  rw [pageTurns, hcount]
  rfl

/-- The shuffled large blocks are the starts of the visited pages. -/
theorem generate_wholePages (source : σ) :
    (plan.wholePages hfits).generate.run source =
      Prod.map (List.map (plan.wholePages hfits).blockOffset) id (plan.pageTurns.run source) := by
  rw [← pageTurns_wholePages hfits]
  exact shuffledLanes_run_of_pageSized rfl source

/-- As numbers, the large blocks start at the multiples of the page size. -/
theorem map_toNat_generate_wholePages (source : σ) :
    ((plan.wholePages hfits).generate.run source).1.map UInt64.toNat =
      (plan.pageTurns.run source).1.map (· * plan.geometry.pageSize.toNat) := by
  rw [generate_wholePages, Prod.map_fst, List.map_map]
  refine List.map_congr_left fun page hpage => ?_
  have htouched := List.mem_range.mp ((plan.pageTurns_perm source).mem_iff.mp hpage)
  exact toNat_blockOffset _ (by rwa [blockCount_wholePages])

end BlockPlan

/-- Ordering by pages is ordering large blocks and then taking each of them apart. The plan that
takes every touched page for one block of the shuffled block strategy is accepted. Started from any
source, both orders leave it in the same state, and the offsets of the page order are, for the
large blocks in turn, the offsets from the start of the block on, in steps of the block size, below
the end of the page and of the extent. -/
theorem page_order_refines_block_order {σ : Type} [WordSource σ] {extent blockSize : UInt64}
    {geometry : Geometry} {plan : BlockPlan}
    (haccepted :
      BlockPlan.check ⟨.roundRobinPerPages, extent, blockSize, geometry⟩ = .ok plan)
    {pages : Nat}
    (hpages : pages = (extent.toNat + geometry.pageSize.toNat - 1) / geometry.pageSize.toNat)
    (hfits : pages * geometry.pageSize.toNat < UInt64.size) :
    ∃ large, BlockPlan.check ⟨.roundRobinRandom, UInt64.ofNat (pages * geometry.pageSize.toNat),
        geometry.pageSize, geometry⟩ = .ok large ∧
      ∀ source : σ,
        (plan.generate.run source).1.map UInt64.toNat =
          ((large.generate.run source).1.map UInt64.toNat).flatMap (fun start =>
            stepsBelow blockSize.toNat (min (start + geometry.pageSize.toNat) extent.toNat)
              start) ∧
        (plan.generate.run source).2 = (large.generate.run source).2 := by
  obtain ⟨hstrategy, rfl, rfl, rfl⟩ :=
    PlanRequest.mk.inj (BlockPlan.toPlanRequest_of_check haccepted)
  obtain rfl : pages = plan.pageCount := hpages
  have hstriped : plan.strategy.isStriped := by rw [hstrategy]; rfl
  have hgenerate : plan.generate (σ := σ) = plan.shuffledPages := by
    rw [BlockPlan.generate, hstrategy]
  refine ⟨plan.wholePages hfits, (plan.wholePages hfits).check_toPlanRequest, fun source => ?_⟩
  rw [BlockPlan.map_toNat_generate_wholePages, BlockPlan.generate_wholePages, hgenerate,
    BlockPlan.shuffledPages_run hstriped, Prod.map_fst, List.map_flatMap, List.flatMap_map]
  exact ⟨List.flatMap_congr fun page _ => BlockPlan.map_toNat_pageBlocks hstriped page, rfl⟩

/-- Ten pages on four channels, the extent ending in the middle of the last: from one seed, the
page order takes the large blocks apart, and both orders have drawn the same words. -/
theorem page_order_refines_block_order_half_page :
    ∃ plan large,
      BlockPlan.check ⟨.roundRobinPerPages, 152, 4, ⟨16, 4⟩⟩ = .ok plan ∧
      BlockPlan.check ⟨.roundRobinRandom, 160, 16, ⟨16, 4⟩⟩ = .ok large ∧
      (plan.generate.run (Xoshiro.ofSeed 21)).1.map UInt64.toNat =
        ((large.generate.run (Xoshiro.ofSeed 21)).1.map UInt64.toNat).flatMap
          (fun start => stepsBelow 4 (min (start + 16) 152) start) ∧
      (plan.generate.run (Xoshiro.ofSeed 21)).2 = (large.generate.run (Xoshiro.ofSeed 21)).2 := by
  let plan : BlockPlan :=
    ⟨⟨.roundRobinPerPages, 152, 4, ⟨16, 4⟩⟩, by decide, by decide, by decide, by decide, by decide⟩
  have haccepted : BlockPlan.check ⟨.roundRobinPerPages, 152, 4, ⟨16, 4⟩⟩ = .ok plan := rfl
  have hpages : 10 = (UInt64.toNat 152 + UInt64.toNat 16 - 1) / UInt64.toNat 16 := by decide
  obtain ⟨large, hlarge, hruns⟩ :=
    page_order_refines_block_order (σ := Xoshiro) haccepted hpages (by decide)
  obtain ⟨hoffsets, hsource⟩ := hruns (Xoshiro.ofSeed 21)
  exact ⟨plan, large, haccepted, hlarge, hoffsets, hsource⟩

end AccessPattern
