import AccessPattern.Proofs.Order.Blocks
import AccessPattern.Proofs.Order.Chunks
import AccessPattern.Order.Lanes
import Mathlib.Data.List.SplitBy

/-!
# The pages of a striped plan

Where channels matter a page is made of whole blocks, so page `p` holds the blocks with quotient
`p` by the number of blocks per page, the last page perhaps fewer. The lane of a channel then is
the pages of that channel one after the other, and cutting it into page runs gives these pages
back.
-/

namespace AccessPattern.BlockPlan

/-- Lists that are only taken of some items are the lists of those items. -/
private theorem flatMap_ite_nil {α β : Type} (keep : α → Bool) (list : α → List β)
    (items : List α) :
    (items.flatMap fun item => if keep item then list item else []) =
      (items.filter keep).flatMap list := by
  induction items with
  | nil => rfl
  | cons item items ih =>
    rw [List.flatMap_cons, List.filter_cons, ih]
    split <;> simp

variable (plan : BlockPlan)

/-- How many pages the extent touches; the last of them may reach beyond its end. -/
def pageCount : Nat :=
  (plan.extent.toNat + plan.geometry.pageSize.toNat - 1) / plan.geometry.pageSize.toNat

/-- The offsets of all blocks of the extent that lie in a page, ascending. -/
def pageBlocks (page : Nat) : List UInt64 :=
  plan.linearOffsets.filter fun offset => (plan.geometry.pageOf offset).toNat == page

/-- The pages that a channel owns, ascending. -/
def channelPages (channel : Nat) : List Nat :=
  column plan.geometry.channels.toNat plan.pageCount channel

/-- The pages have a size as a natural number too. -/
@[simp] theorem pageSize_pos : 0 < plan.geometry.pageSize.toNat :=
  toNat_pos plan.pageSize_ne_zero

/-- There is a channel, counted as a natural number. -/
@[simp] theorem channels_pos : 0 < plan.geometry.channels.toNat :=
  toNat_pos plan.channels_ne_zero

/-- A page is touched when it starts below the end of the extent. -/
theorem lt_pageCount_iff {page : Nat} :
    page < plan.pageCount ↔ page * plan.geometry.pageSize.toNat < plan.extent.toNat := by
  rw [pageCount, Nat.lt_iff_add_one_le, Nat.le_div_iff_mul_le plan.pageSize_pos, Nat.succ_mul]
  have := plan.pageSize_pos
  omega

/-- The blocks of a page lie in it. -/
theorem pageOf_of_mem_pageBlocks {page : Nat} {offset : UInt64}
    (h : offset ∈ plan.pageBlocks page) : (plan.geometry.pageOf offset).toNat = page := by
  simpa using (List.mem_filter.mp h).2

/-- The pages of a channel ascend. -/
theorem pairwise_channelPages (channel : Nat) : (plan.channelPages channel).Pairwise (· < ·) :=
  List.pairwise_lt_range.filter _

/-- A channel owns touched pages only. -/
theorem lt_pageCount_of_mem_channelPages {channel page : Nat}
    (h : page ∈ plan.channelPages channel) : page < plan.pageCount :=
  List.mem_range.mp (List.mem_filter.mp h).1

/-- The pages of a channel are those whose remainder by the channels is the channel. -/
theorem mod_of_mem_channelPages {channel page : Nat} (h : page ∈ plan.channelPages channel) :
    page % plan.geometry.channels.toNat = channel := by
  simpa using (List.mem_filter.mp h).2

section WholeBlocks

variable {plan} (hpages : plan.geometry.pageSize % plan.blockSize = 0)
include hpages

/-- Where pages are made of whole blocks, these make up the page. -/
theorem blocksPerPage_mul_blockSize_of_mod :
    plan.blocksPerPage.toNat * plan.blockSize.toNat = plan.geometry.pageSize.toNat :=
  toNat_div_mul hpages

/-- A page of whole blocks holds a block. -/
theorem blocksPerPage_pos_of_mod : 0 < plan.blocksPerPage.toNat := by
  have hpage := plan.pageSize_pos
  rw [← blocksPerPage_mul_blockSize_of_mod hpages] at hpage
  exact Nat.pos_of_mul_pos_right hpage

end WholeBlocks

section Striped

variable {plan} (hstriped : plan.strategy.isStriped)
include hstriped

/-- The blocks of a page make up the page. -/
theorem blocksPerPage_mul_blockSize :
    plan.blocksPerPage.toNat * plan.blockSize.toNat = plan.geometry.pageSize.toNat :=
  blocksPerPage_mul_blockSize_of_mod (plan.pageSize_mod_blockSize hstriped)

/-- A page holds a block. -/
theorem blocksPerPage_pos : 0 < plan.blocksPerPage.toNat :=
  blocksPerPage_pos_of_mod (plan.pageSize_mod_blockSize hstriped)

/-- The page of a block is its quotient by the blocks per page. -/
theorem pageOf_blockOffset {block : Nat} (h : block < plan.blockCount.toNat) :
    (plan.geometry.pageOf (plan.blockOffset block)).toNat = block / plan.blocksPerPage.toNat := by
  rw [Geometry.pageOf, UInt64.toNat_div, toNat_blockOffset _ h,
    ← blocksPerPage_mul_blockSize hstriped, Nat.mul_div_mul_right _ _ plan.blockSize_pos]

/-- The blocks of a page are one chunk of all blocks. -/
theorem pageBlocks_eq_map (page : Nat) :
    plan.pageBlocks page =
      (chunk plan.blocksPerPage.toNat plan.blockCount.toNat page).map plan.blockOffset := by
  rw [pageBlocks, linearOffsets_eq, List.filter_map,
    ← filter_range_eq_chunk (blocksPerPage_pos hstriped)]
  congr 1
  apply List.filter_congr
  intro block hblock
  rw [Function.comp_apply, pageOf_blockOffset hstriped (List.mem_range.mp hblock)]

/-- A page starts with a block, and is touched when that block belongs to the extent. -/
theorem lt_pageCount_iff_block {page : Nat} :
    page < plan.pageCount ↔ page * plan.blocksPerPage.toNat < plan.blockCount.toNat := by
  rw [lt_pageCount_iff, ← blocksPerPage_mul_blockSize hstriped, ← blockCount_mul_blockSize,
    ← Nat.mul_assoc]
  exact Nat.mul_lt_mul_right plan.blockSize_pos

/-- A page that is touched holds a block of the extent. -/
theorem pageBlocks_ne_nil {page : Nat} (h : page < plan.pageCount) : plan.pageBlocks page ≠ [] := by
  rw [pageBlocks_eq_map hstriped, ne_eq, List.map_eq_nil_iff]
  exact chunk_ne_nil (blocksPerPage_pos hstriped) ((lt_pageCount_iff_block hstriped).mp h)

/-- Page by page, the blocks of the extent are the ascending offsets. -/
theorem flatMap_pageBlocks :
    (List.range plan.pageCount).flatMap plan.pageBlocks = plan.linearOffsets := by
  have hcover : plan.blockCount.toNat ≤ plan.pageCount * plan.blocksPerPage.toNat :=
    Nat.le_of_not_lt fun h => Nat.lt_irrefl _ ((lt_pageCount_iff_block hstriped).mpr h)
  rw [funext (pageBlocks_eq_map hstriped), ← List.map_flatMap, flatMap_chunk,
    Nat.min_eq_left hcover, linearOffsets_eq]

/-- The lane of a channel is its pages, one after the other. -/
theorem lane_eq_flatMap (channel : Nat) :
    plan.geometry.lane plan.linearOffsets channel =
      (plan.channelPages channel).flatMap plan.pageBlocks := by
  have hpage (page : Nat) :
      ((plan.pageBlocks page).filter fun offset =>
        (plan.geometry.channelOf offset).toNat == channel) =
      if page % plan.geometry.channels.toNat == channel then plan.pageBlocks page else [] := by
    have hchannel {offset : UInt64} (hoffset : offset ∈ plan.pageBlocks page) :
        (plan.geometry.channelOf offset).toNat = page % plan.geometry.channels.toNat := by
      rw [Geometry.channelOf, UInt64.toNat_mod, plan.pageOf_of_mem_pageBlocks hoffset]
    split
    · next howned =>
      exact List.filter_eq_self.mpr fun offset hoffset => by rw [hchannel hoffset, howned]
    · next hother =>
      exact List.filter_eq_nil_iff.mpr fun offset hoffset => by rwa [hchannel hoffset]
  rw [Geometry.lane, ← flatMap_pageBlocks hstriped, List.filter_flatMap, funext hpage,
    flatMap_ite_nil]
  rfl

/-- Cut into page runs, the lane of a channel gives its pages back. -/
theorem pageRuns_lane (channel : Nat) :
    plan.pageRuns (plan.geometry.lane plan.linearOffsets channel) =
      (plan.channelPages channel).map plan.pageBlocks := by
  rw [lane_eq_flatMap hstriped, List.flatMap_def, pageRuns]
  apply List.splitBy_flatten
  · rintro hnil
    obtain ⟨page, hpage, hempty⟩ := List.mem_map.mp hnil
    exact pageBlocks_ne_nil hstriped (plan.lt_pageCount_of_mem_channelPages hpage) hempty
  · rintro run hrun
    obtain ⟨page, -, rfl⟩ := List.mem_map.mp hrun
    refine List.Pairwise.isChain (List.pairwise_of_forall_mem_list fun a ha b hb => ?_)
    rw [beq_iff_eq, ← UInt64.toNat_inj, plan.pageOf_of_mem_pageBlocks ha,
      plan.pageOf_of_mem_pageBlocks hb]
  · refine List.Pairwise.isChain (List.pairwise_map.mpr ?_)
    refine (plan.pairwise_channelPages channel).imp_of_mem fun {before after} hbefore hafter hlt => ?_
    have hfirst := pageBlocks_ne_nil hstriped (plan.lt_pageCount_of_mem_channelPages hbefore)
    have hsecond := pageBlocks_ne_nil hstriped (plan.lt_pageCount_of_mem_channelPages hafter)
    refine ⟨hfirst, hsecond, beq_false_of_ne fun heq => ?_⟩
    have hpages := congrArg UInt64.toNat heq
    rw [plan.pageOf_of_mem_pageBlocks (List.getLast_mem hfirst),
      plan.pageOf_of_mem_pageBlocks (List.head_mem hsecond)] at hpages
    omega

end Striped

end AccessPattern.BlockPlan
