import AccessPattern.Proofs.Checked.Steps
import AccessPattern.Proofs.Order.Ranks

/-!
# What the lanes hold

The blocks of an extent are put one after the other into the lane of their channel. However blocks
and pages lie to each other, a lane then holds the blocks of its channel, ascending, and no others.

Where pages are made of whole blocks, what stands at a place of a lane can be computed: each cycle
of pages gives a channel one page, so the place, divided by the blocks of a page, tells the cycle and
the block within the page.
-/

namespace AccessPattern

namespace BlockPlan

variable (plan : BlockPlan)

/-- There is one lane for each channel. -/
@[simp] theorem length_lanes : plan.lanes.length = plan.geometry.channels.toNat := by
  simp [lanes, Geometry.lanes_eq]

/-- At the place of a channel stands the lane of that channel. -/
theorem getElem?_lanes {channel : Nat} (hchannel : channel < plan.geometry.channels.toNat) :
    plan.lanes[channel]? = some (plan.geometry.lane plan.linearOffsets channel) := by
  simp [lanes, Geometry.lanes_eq, List.getElem?_range hchannel]

/-- The lanes are as long as the ascending offsets are many on each channel. -/
@[simp] theorem map_length_lanes :
    plan.lanes.map List.length = plan.geometry.histogram plan.linearOffsets := by
  rw [lanes, Geometry.lanes_eq, Geometry.histogram_eq, List.map_map]
  exact List.map_congr_left fun channel _ => List.countP_eq_length_filter.symm

/-- In the lane of a channel stand the blocks of the extent that it owns. -/
@[simp] theorem mem_lane {channel : Nat} {offset : UInt64} :
    offset ∈ plan.geometry.lane plan.linearOffsets channel ↔
      (plan.blockSize.toNat ∣ offset.toNat ∧ offset.toNat < plan.extent.toNat) ∧
        (plan.geometry.channelOf offset).toNat = channel := by
  simp [Geometry.lane]

/-- The offsets of a lane ascend. -/
theorem pairwise_map_toNat_lane (channel : Nat) :
    ((plan.geometry.lane plan.linearOffsets channel).map UInt64.toNat).Pairwise (· < ·) :=
  plan.pairwise_map_toNat_linearOffsets.sublist (List.filter_sublist.map _)

variable {plan} (hpages : plan.geometry.pageSize % plan.blockSize = 0)
include hpages

/-- The block that a channel takes after so many others stands at that place of its lane, unless the
extent ends before. -/
theorem getElem?_map_toNat_lane (place : Nat) {channel offset : Nat}
    (hchannel : channel < plan.geometry.channels.toNat)
    (hoffset : offset = (place / plan.blocksPerPage.toNat * plan.geometry.channels.toNat + channel) *
        plan.geometry.pageSize.toNat + place % plan.blocksPerPage.toNat * plan.blockSize.toNat) :
    ((plan.geometry.lane plan.linearOffsets channel).map UInt64.toNat)[place]? =
      if offset < plan.extent.toNat then some offset else none := by
  have hblock : offset =
      blockAt plan.blocksPerPage.toNat plan.geometry.channels.toNat place channel *
        plan.blockSize.toNat := by
    rw [hoffset, blockAt, ← blocksPerPage_mul_blockSize_of_mod hpages, ← Nat.mul_assoc,
      ← Nat.add_mul]
  rw [lane_eq_channelBlocks hpages, List.getElem?_map, List.getElem?_map,
    getElem?_channelBlocks (blocksPerPage_pos_of_mod hpages) _ _ hchannel, hblock,
    ← plan.blockCount_mul_blockSize]
  simp only [Nat.mul_lt_mul_right plan.blockSize_pos]
  split
  · next hlimit => rw [Option.map_some, Option.map_some, plan.toNat_blockOffset hlimit]
  · rfl

end BlockPlan

/-- Putting one block of the extent after the other into the lane of its channel does not fail. It
gives one lane for each channel, with as many offsets as the histogram of the ascending offsets
counts for the channel; in the lane stand the blocks of the extent that the channel owns and no
others, strictly ascending. Where pages are made of whole blocks, the offset at each place of a lane
is known: it lies in the page that the cycle of the place gives the channel, as many blocks after
the start of the page as the place has beyond whole pages. The lane ends where this offset would not
lie in the extent any more. -/
theorem lanes_hold_blocks_of_channels {request : PlanRequest} {plan : BlockPlan}
    (haccepted : BlockPlan.check request = .ok plan) :
    Checked.lanes request.geometry request.blockSize plan.blockCount = .ok plan.lanes ∧
    plan.lanes.length = request.geometry.channels.toNat ∧
    plan.lanes.map List.length = request.geometry.histogram plan.linearOffsets ∧
    ∀ channel < request.geometry.channels.toNat, ∃ lane, plan.lanes[channel]? = some lane ∧
      (lane.map UInt64.toNat).Pairwise (· < ·) ∧
      (∀ offset : UInt64, offset ∈ lane ↔
        (request.blockSize.toNat ∣ offset.toNat ∧ offset.toNat < request.extent.toNat) ∧
          (request.geometry.channelOf offset).toNat = channel) ∧
      (request.geometry.pageSize % request.blockSize = 0 → ∀ place perPage offset : Nat,
        perPage = request.geometry.pageSize.toNat / request.blockSize.toNat →
        offset = (place / perPage * request.geometry.channels.toNat + channel) *
          request.geometry.pageSize.toNat + place % perPage * request.blockSize.toNat →
        (lane.map UInt64.toNat)[place]? =
          if offset < request.extent.toNat then some offset else none) := by
  obtain rfl := BlockPlan.toPlanRequest_of_check haccepted
  refine ⟨Checked.lanes_eq plan, plan.length_lanes, plan.map_length_lanes, ?_⟩
  intro channel hchannel
  refine ⟨plan.geometry.lane plan.linearOffsets channel, plan.getElem?_lanes hchannel,
    plan.pairwise_map_toNat_lane channel, fun offset => plan.mem_lane, ?_⟩
  intro hpages place perPage offset hperPage hoffset
  rw [← UInt64.toNat_div] at hperPage
  subst hperPage
  exact BlockPlan.getElem?_map_toNat_lane hpages place hchannel hoffset

/-- Blocks that are larger than pages and no multiple of them, on three channels; and five and a half
pages of four blocks on four channels, where the second lane ends with the half page. -/
theorem lanes_hold_blocks_of_channels_large_blocks :
    (∃ plan, BlockPlan.check ⟨.linear, 120, 24, ⟨16, 3⟩⟩ = .ok plan ∧ plan.lanes.length = 3 ∧
      ∃ lane, plan.lanes[1]? = some lane ∧ (lane.map UInt64.toNat).Pairwise (· < ·) ∧
        ∀ offset : UInt64, offset ∈ lane ↔ (24 ∣ offset.toNat ∧ offset.toNat < 120) ∧
          (Geometry.channelOf ⟨16, 3⟩ offset).toNat = 1) ∧
    ∃ plan, BlockPlan.check ⟨.random, 88, 4, ⟨16, 4⟩⟩ = .ok plan ∧
      ∃ lane, plan.lanes[1]? = some lane ∧
        (lane.map UInt64.toNat)[5]? = some 84 ∧ (lane.map UInt64.toNat)[6]? = none := by
  let large : BlockPlan :=
    ⟨⟨.linear, 120, 24, ⟨16, 3⟩⟩, by decide, by decide, by decide, by decide, by decide⟩
  let half : BlockPlan :=
    ⟨⟨.random, 88, 4, ⟨16, 4⟩⟩, by decide, by decide, by decide, by decide, by decide⟩
  have hlarge : BlockPlan.check ⟨.linear, 120, 24, ⟨16, 3⟩⟩ = .ok large := rfl
  have hhalf : BlockPlan.check ⟨.random, 88, 4, ⟨16, 4⟩⟩ = .ok half := rfl
  obtain ⟨-, hlength, -, hlanes⟩ := lanes_hold_blocks_of_channels hlarge
  obtain ⟨-, -, -, hpaged⟩ := lanes_hold_blocks_of_channels hhalf
  obtain ⟨lane, hlane, hascending, hmem, -⟩ := hlanes 1 (by decide)
  obtain ⟨paged, hpage, -, -, hplaces⟩ := hpaged 1 (by decide)
  have hfifth := hplaces (by decide) 5 4 84 (by decide) (by decide)
  have hsixth := hplaces (by decide) 6 4 88 (by decide) (by decide)
  exact ⟨⟨large, hlarge, hlength, lane, hlane, hascending, hmem⟩,
    ⟨half, hhalf, paged, hpage, hfifth, hsixth⟩⟩

/-- Larger blocks skip pages, here those of the third channel. -/
example : Geometry.lanes ⟨16, 3⟩ [0, 24, 48, 72, 96] = [[0, 48, 96], [24, 72], []] := by decide

end AccessPattern
