import AccessPattern.Proofs.Order.Pages
import AccessPattern.Proofs.Order.Permutation

/-!
# Whole pages in rotation

The page strategy deals the pages onto the channels, shuffles the pages of each channel and takes
them back in turn, so it orders pages as another strategy would order blocks. `pageTurns` is that
order of pages; the offsets are the blocks of one page after the other. Shuffling within a channel
cannot be seen from the channels alone, which therefore rotate as if nothing had been shuffled,
wherever in its lane the last page ends up.
-/

namespace AccessPattern

namespace BlockPlan

variable {σ : Type} [WordSource σ]

/-- The pages in the order in which the page strategy visits them. -/
def pageTurns (plan : BlockPlan) : StateM σ (List Nat) := do
  let lanes ← shuffleEach (columns plan.geometry.channels.toNat plan.pageCount)
  pure (interleave lanes)

variable (plan : BlockPlan) (source : σ)

/-- The pages of each channel are shuffled, and then the channels take turns. -/
theorem pageTurns_run :
    plan.pageTurns.run source = Prod.map interleave id
      ((shuffleEach (columns plan.geometry.channels.toNat plan.pageCount)).run source) :=
  rfl

/-- All touched pages are visited, each once. -/
theorem pageTurns_perm :
    (plan.pageTurns.run source).1.Perm (List.range plan.pageCount) := by
  refine (interleave_perm _).trans ((flatMap_shuffleEach_perm _ _).trans ?_)
  rw [columns, ← List.flatMap_def]
  exact flatMap_filter_perm _ _ _ fun page _ => Nat.mod_lt _ plan.channels_pos

/-- The channels of the visited pages rotate. -/
theorem map_mod_pageTurns :
    (plan.pageTurns.run source).1.map (· % plan.geometry.channels.toNat) =
      (List.range plan.pageCount).map (· % plan.geometry.channels.toNat) := by
  have hconstant : ∀ pages ∈ columns plan.geometry.channels.toNat plan.pageCount,
      ∃ channel, ∀ page ∈ pages, page % plan.geometry.channels.toNat = channel := by
    intro pages hpages
    obtain ⟨channel, -, rfl⟩ := List.mem_map.mp hpages
    exact ⟨channel, fun page hpage => plan.mod_of_mem_channelPages hpage⟩
  rw [pageTurns_run, Prod.map_fst, ← interleave_map, map_shuffleEach_of_constant _ hconstant,
    interleave_map, interleave_columns plan.channels_pos]

/-- The runs of all lanes are the pages dealt onto the channels. -/
theorem map_pageRuns_lanes {plan : BlockPlan} (hstriped : plan.strategy.isStriped) :
    plan.lanes.map plan.pageRuns =
      (columns plan.geometry.channels.toNat plan.pageCount).map (List.map plan.pageBlocks) := by
  rw [lanes, Geometry.lanes_eq, columns, List.map_map, List.map_map]
  exact List.map_congr_left fun channel _ => pageRuns_lane hstriped channel

/-- There are as many runs in each lane as pages are dealt onto its channel. -/
theorem map_length_pageRuns_lanes {plan : BlockPlan} (hstriped : plan.strategy.isStriped) :
    (plan.lanes.map plan.pageRuns).map List.length =
      (columns plan.geometry.channels.toNat plan.pageCount).map List.length := by
  rw [map_pageRuns_lanes hstriped, List.map_map]
  exact List.map_congr_left fun pages _ => List.length_map _

/-- The page strategy puts out the blocks of the visited pages and draws as the visit does. -/
theorem shuffledPages_run {plan : BlockPlan} (hstriped : plan.strategy.isStriped) (source : σ) :
    plan.shuffledPages.run source =
      Prod.map (List.flatMap plan.pageBlocks) id (plan.pageTurns.run source) := by
  rw [shuffledPages_run_pageRuns, map_pageRuns_lanes hstriped, pageTurns_run, shuffleEach_map]
  refine Prod.ext ?_ rfl
  simp [List.flatMap_def]

/-- A page holds exactly the multiples of the block size below the end of the extent whose
quotient by the page size it is. -/
theorem mem_pageBlocks {page : Nat} {offset : UInt64} :
    offset ∈ plan.pageBlocks page ↔
      plan.blockSize.toNat ∣ offset.toNat ∧ offset.toNat < plan.extent.toNat ∧
        offset.toNat / plan.geometry.pageSize.toNat = page := by
  simp [pageBlocks, Geometry.pageOf, and_assoc]

/-- The blocks of a page follow each other in steps of the block size. -/
theorem isChain_pageBlocks {plan : BlockPlan} (hstriped : plan.strategy.isStriped) (page : Nat) :
    (plan.pageBlocks page).IsChain fun before after =>
      after.toNat = before.toNat + plan.blockSize.toNat := by
  have hbelow {block : Nat}
      (hblock : block ∈ chunk plan.blocksPerPage.toNat plan.blockCount.toNat page) :
      block < plan.blockCount.toNat :=
    ((mem_chunk (blocksPerPage_pos hstriped)).mp hblock).1
  rw [pageBlocks_eq_map hstriped, List.isChain_map]
  refine (isChain_chunk _ _ page).imp_of_mem_imp fun {before after} hbefore hafter hnext => ?_
  rw [toNat_blockOffset _ (hbelow hbefore), toNat_blockOffset _ (hbelow hafter), hnext,
    Nat.succ_mul]

end BlockPlan

/-- What the page strategy puts out is a list of whole pages, one for each page that the extent
touches. A page is all blocks of the extent that lie in it, ascending in steps of the block size,
and the page of every turn lies on the channel whose turn it is. -/
theorem generate_whole_pages_in_rotation {σ : Type} [WordSource σ] {request : PlanRequest}
    {plan : BlockPlan} (haccepted : BlockPlan.check request = .ok plan)
    (hpages : request.strategy = .roundRobinPerPages) (source : σ) :
    ∃ (pages : List Nat) (run : Nat → List UInt64),
      (plan.generate.run source).1 = (pages.map run).flatten ∧
      pages.Perm (List.range ((request.extent.toNat + request.geometry.pageSize.toNat - 1) /
        request.geometry.pageSize.toNat)) ∧
      (∀ turn page, pages[turn]? = some page →
        page % request.geometry.channels.toNat = turn % request.geometry.channels.toNat) ∧
      ∀ page ∈ pages,
        run page ≠ [] ∧
        (∀ offset, offset ∈ run page ↔
          request.blockSize.toNat ∣ offset.toNat ∧ offset.toNat < request.extent.toNat ∧
            offset.toNat / request.geometry.pageSize.toNat = page) ∧
        (run page).IsChain fun before after =>
          after.toNat = before.toNat + request.blockSize.toNat := by
  have hrequest := BlockPlan.toPlanRequest_of_check haccepted
  subst hrequest
  have hstriped : plan.strategy.isStriped := by rw [hpages]; rfl
  have hperm := plan.pageTurns_perm source
  refine ⟨(plan.pageTurns.run source).1, plan.pageBlocks, ?_, hperm, ?_, ?_⟩
  · have hgenerate : plan.generate (σ := σ) = plan.shuffledPages := by
      rw [BlockPlan.generate, hpages]
    rw [hgenerate, BlockPlan.shuffledPages_run hstriped, ← List.flatMap_def]
    rfl
  · intro turn page hpage
    have hturn : turn < plan.pageCount := by
      obtain ⟨hlength, -⟩ := List.getElem?_eq_some_iff.mp hpage
      rwa [hperm.length_eq, List.length_range] at hlength
    have hchannel := congrArg (·[turn]?) (plan.map_mod_pageTurns source)
    simpa [hpage, hturn] using hchannel
  · intro page hpage
    have htouched := List.mem_range.mp (hperm.mem_iff.mp hpage)
    exact ⟨BlockPlan.pageBlocks_ne_nil hstriped htouched, fun _ => plan.mem_pageBlocks,
      BlockPlan.isChain_pageBlocks hstriped page⟩

/-- Ten pages on four channels, the last page half as long: the channels rotate all the same. -/
theorem generate_whole_pages_in_rotation_half_page :
    ∃ plan, BlockPlan.check ⟨.roundRobinPerPages, 152, 4, ⟨16, 4⟩⟩ = .ok plan ∧
      ∃ (pages : List Nat) (run : Nat → List UInt64),
        (plan.generate.run (Xoshiro.ofSeed 21)).1 = (pages.map run).flatten ∧
        pages.Perm (List.range 10) ∧
        (∀ turn page, pages[turn]? = some page → page % 4 = turn % 4) ∧
        ∀ page ∈ pages, ∀ offset, offset ∈ run page ↔
          4 ∣ offset.toNat ∧ offset.toNat < 152 ∧ offset.toNat / 16 = page := by
  let plan : BlockPlan :=
    ⟨⟨.roundRobinPerPages, 152, 4, ⟨16, 4⟩⟩, by decide, by decide, by decide, by decide, by decide⟩
  have haccepted : BlockPlan.check ⟨.roundRobinPerPages, 152, 4, ⟨16, 4⟩⟩ = .ok plan := rfl
  obtain ⟨pages, run, hgenerate, hperm, hturns, hruns⟩ :=
    generate_whole_pages_in_rotation haccepted rfl (Xoshiro.ofSeed 21)
  exact ⟨plan, haccepted, pages, run, hgenerate, hperm, hturns,
    fun page hpage => (hruns page hpage).2.1⟩

end AccessPattern
