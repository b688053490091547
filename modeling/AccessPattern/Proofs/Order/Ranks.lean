import AccessPattern.Proofs.Order.Pages
import AccessPattern.Proofs.Order.Unmixing
import Mathlib.Data.List.Perm.Subperm

/-!
# The rotation as a sorted list

Numbered blocks lie in pages and pages are dealt onto channels, so the channel of a block and the
number of blocks that its channel has before it, its rank, can be computed from its number. On each
channel the ranks are the numbers from zero on without a gap; hence the rank of a block is its place
in its lane, which is the turn in which the block is visited. Within a turn the channels ascend.
The rotation is therefore the list of all blocks, sorted by rank and then by channel.
-/

namespace AccessPattern

/-- When a block has its turn, with so many blocks per page and so many channels: after as many
turns as there are blocks before it on its channel, and in its turn after the channels before it. -/
def turnOf (perPage channels block : Nat) : Nat × Nat :=
  (block / perPage / channels * perPage + block % perPage, block / perPage % channels)

/-- The block that a channel takes after so many others. -/
def blockAt (perPage channels rank channel : Nat) : Nat :=
  (rank / perPage * channels + channel) * perPage + rank % perPage

/-- The blocks of one channel, ascending. -/
def channelBlocks (perPage channels limit channel : Nat) : List Nat :=
  (List.range limit).filter fun block => block / perPage % channels == channel

/-- The blocks below a limit in the order in which the channels take them in turn. -/
def blocksInTurn (perPage channels limit : Nat) : List Nat :=
  interleave (((List.range channels).map (channelBlocks perPage channels limit)).map List.toArray)

/-- A list of ascending numbers without gaps holds each number at its place. -/
theorem eq_range_of_downward_closed {numbers : List Nat} (hascending : numbers.Pairwise (· < ·))
    (hclosed : ∀ number ∈ numbers, ∀ smaller < number, smaller ∈ numbers) :
    numbers = List.range numbers.length := by
  have hnodup : numbers.Nodup := hascending.imp fun hlt => Nat.ne_of_lt hlt
  refine hascending.eq_of_mem_iff List.pairwise_lt_range fun number => ?_
  rw [List.mem_range]
  constructor
  · intro hmem
    have hsubset : List.range (number + 1) ⊆ numbers := by
      intro smaller hsmaller
      rcases Nat.lt_succ_iff_lt_or_eq.mp (List.mem_range.mp hsmaller) with hlt | rfl
      · exact hclosed number hmem smaller hlt
      · exact hmem
    have hle := (List.nodup_range.subperm hsubset).length_le
    rwa [List.length_range] at hle
  · intro hlt
    by_contra hmissing
    have hsubset : numbers ⊆ List.range number := by
      intro other hother
      rw [List.mem_range]
      rcases Nat.lt_trichotomy other number with hbelow | rfl | habove
      · exact hbelow
      · exact absurd hother hmissing
      · exact absurd (hclosed other hother number habove) hmissing
    have hle := (hnodup.subperm hsubset).length_le
    rw [List.length_range] at hle
    omega

/-- The blocks of a channel are those whose turn it is that the channel takes. -/
@[simp] theorem mem_channelBlocks {perPage channels limit channel block : Nat} :
    block ∈ channelBlocks perPage channels limit channel ↔
      block < limit ∧ (turnOf perPage channels block).2 = channel := by
  simp [channelBlocks, turnOf]

/-- The blocks of a channel ascend. -/
theorem pairwise_channelBlocks (perPage channels limit channel : Nat) :
    (channelBlocks perPage channels limit channel).Pairwise (· < ·) :=
  List.pairwise_lt_range.filter _

/-- All blocks get a turn. -/
theorem blocksInTurn_perm (perPage limit : Nat) {channels : Nat} (hchannels : 0 < channels) :
    (blocksInTurn perPage channels limit).Perm (List.range limit) := by
  refine (interleave_perm _).trans ?_
  rw [List.flatMap_map, List.flatMap_map]
  exact flatMap_filter_perm _ _ _ fun _ _ => Nat.mod_lt _ hchannels

section Numbers

variable {perPage channels : Nat} (hperPage : 0 < perPage)
include hperPage

/-- On one channel the ranks ascend with the blocks. -/
theorem turnOf_fst_lt {first second : Nat} (hlt : first < second)
    (hchannel : (turnOf perPage channels first).2 = (turnOf perPage channels second).2) :
    (turnOf perPage channels first).1 < (turnOf perPage channels second).1 := by
  have hfirst := Nat.div_add_mod' first perPage
  have hsecond := Nat.div_add_mod' second perPage
  have hinside := Nat.mod_lt first hperPage
  simp only [turnOf] at hchannel ⊢
  rcases Nat.lt_or_eq_of_le (Nat.div_le_div_right (c := perPage) (Nat.le_of_lt hlt))
    with hpage | hpage
  · have hcycle : first / perPage / channels < second / perPage / channels := by
      have hearly := Nat.div_add_mod (first / perPage) channels
      have hlate := Nat.div_add_mod (second / perPage) channels
      by_contra hnot
      have := Nat.mul_le_mul_left channels (Nat.le_of_not_lt hnot)
      omega
    calc first / perPage / channels * perPage + first % perPage
        < (first / perPage / channels + 1) * perPage := by
          rw [Nat.succ_mul]
          omega
      _ ≤ second / perPage / channels * perPage := Nat.mul_le_mul_right _ hcycle
      _ ≤ second / perPage / channels * perPage + second % perPage := Nat.le_add_right _ _
  · rw [hpage] at hfirst ⊢
    omega

/-- A block is the one that its channel takes in its turn. -/
theorem blockAt_turnOf (block : Nat) :
    blockAt perPage channels (turnOf perPage channels block).1 (turnOf perPage channels block).2 =
      block := by
  have hinside := Nat.mod_lt block hperPage
  have hcycle : (block / perPage / channels * perPage + block % perPage) / perPage =
      block / perPage / channels := by
    rw [Nat.mul_comm, Nat.mul_add_div hperPage, Nat.div_eq_of_lt hinside, Nat.add_zero]
  rw [blockAt, turnOf, hcycle, Nat.mul_add_mod', Nat.mod_eq_of_lt hinside, Nat.div_add_mod',
    Nat.div_add_mod']

/-- The block that a channel takes after so many others has its turn then. -/
theorem turnOf_blockAt (rank : Nat) {channel : Nat} (hchannel : channel < channels) :
    turnOf perPage channels (blockAt perPage channels rank channel) = (rank, channel) := by
  have hinside := Nat.mod_lt rank hperPage
  have hpage : ((rank / perPage * channels + channel) * perPage + rank % perPage) / perPage =
      rank / perPage * channels + channel := by
    rw [Nat.mul_comm, Nat.mul_add_div hperPage, Nat.div_eq_of_lt hinside, Nat.add_zero]
  have hcycle : (rank / perPage * channels + channel) / channels = rank / perPage := by
    rw [Nat.mul_comm, Nat.mul_add_div (Nat.zero_lt_of_lt hchannel), Nat.div_eq_of_lt hchannel,
      Nat.add_zero]
  rw [turnOf, blockAt, hpage, hcycle, Nat.mul_add_mod', Nat.mod_eq_of_lt hinside, Nat.mul_add_mod',
    Nat.mod_eq_of_lt hchannel, Nat.div_add_mod']

/-- Every rank is taken by some block on each channel. -/
theorem exists_turnOf_eq (rank : Nat) {channel : Nat} (hchannel : channel < channels) :
    ∃ block, turnOf perPage channels block = (rank, channel) :=
  ⟨_, turnOf_blockAt hperPage rank hchannel⟩

/-- On one channel the ranks are the numbers from zero on: the block of a smaller rank comes before
one of a greater, so it lies below the limit too. -/
theorem map_rank_channelBlocks (limit : Nat) {channel : Nat} (hchannel : channel < channels) :
    (channelBlocks perPage channels limit channel).map
        (fun block => (turnOf perPage channels block).1) =
      List.range (channelBlocks perPage channels limit channel).length := by
  have hascending := pairwise_channelBlocks perPage channels limit channel
  have hranks : ((channelBlocks perPage channels limit channel).map
      fun block => (turnOf perPage channels block).1).Pairwise (· < ·) := by
    rw [List.pairwise_map]
    refine hascending.imp_of_mem fun {first second} hfirst hsecond hlt => ?_
    have hchannels := (mem_channelBlocks.mp hfirst).2.trans (mem_channelBlocks.mp hsecond).2.symm
    exact turnOf_fst_lt hperPage hlt hchannels
  rw [eq_range_of_downward_closed hranks, List.length_map]
  intro rank hrank smaller hsmaller
  obtain ⟨block, hblock, rfl⟩ := List.mem_map.mp hrank
  obtain ⟨hlimit, hsame⟩ := mem_channelBlocks.mp hblock
  obtain ⟨other, hother⟩ := exists_turnOf_eq hperPage smaller hchannel
  have hbefore : other ≤ block := by
    by_contra hafter
    have hgreater := turnOf_fst_lt hperPage (Nat.lt_of_not_le hafter)
      (hsame.trans (congrArg Prod.snd hother).symm)
    rw [hother] at hgreater
    exact Nat.lt_asymm hgreater hsmaller
  exact List.mem_map.mpr ⟨other, mem_channelBlocks.mpr
    ⟨Nat.lt_of_le_of_lt hbefore hlimit, congrArg Prod.snd hother⟩, congrArg Prod.fst hother⟩

/-- A block stands in its lane at the place of its rank. -/
theorem turnOf_of_getElem? {limit channel rank block : Nat} (hchannel : channel < channels)
    (h : (channelBlocks perPage channels limit channel)[rank]? = some block) :
    turnOf perPage channels block = (rank, channel) := by
  have hrank := congrArg (·[rank]?) (map_rank_channelBlocks hperPage limit hchannel)
  have hplace := (List.getElem?_eq_some_iff.mp h).1
  rw [List.getElem?_map, h, List.getElem?_range hplace] at hrank
  exact Prod.ext (Option.some.inj hrank) (mem_channelBlocks.mp (List.mem_of_getElem? h)).2

/-- The block that a channel takes after so many others stands at that place of its lane, unless the
lane ends before. -/
theorem getElem?_channelBlocks (limit rank : Nat) {channel : Nat} (hchannel : channel < channels) :
    (channelBlocks perPage channels limit channel)[rank]? =
      if blockAt perPage channels rank channel < limit then
        some (blockAt perPage channels rank channel)
      else none := by
  cases hplace : (channelBlocks perPage channels limit channel)[rank]? with
  | some block =>
    have hturn := turnOf_of_getElem? hperPage hchannel hplace
    have hblock : blockAt perPage channels _ _ = block := blockAt_turnOf hperPage block
    rw [hturn] at hblock
    have hlimit := (mem_channelBlocks.mp (List.mem_of_getElem? hplace)).1
    rw [hblock, if_pos hlimit]
  | none =>
    refine (if_neg fun hlimit => ?_).symm
    have hturn := turnOf_blockAt hperPage rank hchannel
    have hmem : blockAt perPage channels rank channel ∈
        channelBlocks perPage channels limit channel :=
      mem_channelBlocks.mpr ⟨hlimit, congrArg Prod.snd hturn⟩
    obtain ⟨place, hfound⟩ := List.getElem?_of_mem hmem
    have hatRank : place = rank :=
      (Prod.mk.inj ((turnOf_of_getElem? hperPage hchannel hfound).symm.trans hturn)).1
    rw [hatRank, hplace] at hfound
    contradiction

/-- The blocks are sorted by their turns. -/
theorem pairwise_turnOf_blocksInTurn (limit : Nat) :
    (blocksInTurn perPage channels limit).Pairwise fun before after =>
      Prod.Lex (· < ·) (· < ·) (turnOf perPage channels before)
        (turnOf perPage channels after) := by
  have hitems (turn : Nat) :
      turnItems (((List.range channels).map (channelBlocks perPage channels limit)).map
        List.toArray) turn =
      (List.range channels).filterMap fun channel =>
        (channelBlocks perPage channels limit channel)[turn]? := by
    rw [turnItems, List.map_map, List.filterMap_map]
    simp [Function.comp_def]
  change ((List.range _).flatMap (turnItems _)).Pairwise _
  rw [funext hitems, List.pairwise_flatMap]
  constructor
  · intro turn _
    rw [List.pairwise_filterMap]
    refine List.pairwise_lt_range.imp_of_mem fun {first second} hfirst hsecond hlt => ?_
    intro before hbefore after hafter
    rw [turnOf_of_getElem? hperPage (List.mem_range.mp hfirst) hbefore,
      turnOf_of_getElem? hperPage (List.mem_range.mp hsecond) hafter]
    exact .right _ hlt
  · refine List.pairwise_lt_range.imp fun {early late} hlt before hbefore after hafter => ?_
    obtain ⟨first, hfirst, hearly⟩ := List.mem_filterMap.mp hbefore
    obtain ⟨second, hsecond, hlate⟩ := List.mem_filterMap.mp hafter
    rw [turnOf_of_getElem? hperPage (List.mem_range.mp hfirst) hearly,
      turnOf_of_getElem? hperPage (List.mem_range.mp hsecond) hlate]
    exact .left _ _ hlt

end Numbers

namespace BlockPlan

/-- The blocks of a channel are visited in ascending order. -/
theorem lane_rotatedOffsets (plan : BlockPlan) {channel : Nat}
    (hchannel : channel < plan.geometry.channels.toNat) :
    plan.geometry.lane plan.rotatedOffsets channel =
      plan.geometry.lane plan.linearOffsets channel := by
  have hsorted : SortedInto (fun offset => (plan.geometry.channelOf offset).toNat)
      plan.geometry.channels.toNat plan.linearOffsets (plan.lanes.map List.toArray) :=
    sortedInto_buckets _ _ _
  have hplace : channel < (plan.lanes.map List.toArray).length := by
    rwa [hsorted.length_eq]
  refine (hsorted.filter_interleave_eq hplace).trans ?_
  simp [lanes, Geometry.lanes_eq]

variable {plan : BlockPlan}

/-- Where pages are made of whole blocks, the lane of a channel is the blocks of the channel. -/
theorem lane_eq_channelBlocks (hpages : plan.geometry.pageSize % plan.blockSize = 0)
    (channel : Nat) :
    plan.geometry.lane plan.linearOffsets channel =
      (channelBlocks plan.blocksPerPage.toNat plan.geometry.channels.toNat plan.blockCount.toNat
        channel).map plan.blockOffset := by
  rw [Geometry.lane, linearOffsets_eq, List.filter_map, channelBlocks]
  refine congrArg (List.map plan.blockOffset) (List.filter_congr fun block hblock => ?_)
  rw [Function.comp_apply, plan.toNat_channelOf_blockOffset (List.mem_range.mp hblock),
    ← blocksPerPage_mul_blockSize_of_mod hpages, Nat.mul_div_mul_right _ _ plan.blockSize_pos]

variable (hstriped : plan.strategy.isStriped)
include hstriped

/-- The lanes of a striped plan are the blocks of each channel. -/
theorem lanes_eq_channelBlocks :
    plan.lanes = ((List.range plan.geometry.channels.toNat).map
      (channelBlocks plan.blocksPerPage.toNat plan.geometry.channels.toNat
        plan.blockCount.toNat)).map (List.map plan.blockOffset) := by
  rw [lanes, Geometry.lanes_eq, List.map_map]
  exact List.map_congr_left fun channel _ =>
    lane_eq_channelBlocks (plan.pageSize_mod_blockSize hstriped) channel

/-- The sequential rotation visits the blocks in turn. -/
theorem rotatedOffsets_eq :
    plan.rotatedOffsets = (blocksInTurn plan.blocksPerPage.toNat plan.geometry.channels.toNat
      plan.blockCount.toNat).map plan.blockOffset := by
  rw [rotatedOffsets, lanes_eq_channelBlocks hstriped, blocksInTurn, ← interleave_map, List.map_map,
    List.map_map, List.map_map, List.map_map]
  congr 1
  exact List.map_congr_left fun channel _ => List.map_toArray.symm

end BlockPlan

/-- The sequential rotation is the list of all blocks, sorted without ties by their turns: by rank,
and then by channel. The random source has no part in it and is left as it was, and the blocks of
each channel ascend. -/
theorem sequential_order_sorted_by_turn {request : PlanRequest} {plan : BlockPlan}
    (haccepted : BlockPlan.check request = .ok plan)
    (hstrategy : request.strategy = .roundRobinSequential) :
    ∃ order : List UInt64,
      (∀ {σ : Type} [WordSource σ] (source : σ), plan.generate.run source = (order, source)) ∧
      (∃ blocks : List Nat,
        order.map UInt64.toNat = blocks.map (· * request.blockSize.toNat) ∧
        blocks.Perm (List.range (request.extent.toNat / request.blockSize.toNat)) ∧
        blocks.Pairwise fun before after => Prod.Lex (· < ·) (· < ·)
          (turnOf (request.geometry.pageSize.toNat / request.blockSize.toNat)
            request.geometry.channels.toNat before)
          (turnOf (request.geometry.pageSize.toNat / request.blockSize.toNat)
            request.geometry.channels.toNat after)) ∧
      ∀ channel < request.geometry.channels.toNat,
        ((request.geometry.lane order channel).map UInt64.toNat).Pairwise (· < ·) := by
  have hrequest := BlockPlan.toPlanRequest_of_check haccepted
  subst hrequest
  have hstriped : plan.strategy.isStriped := by rw [hstrategy]; rfl
  refine ⟨plan.rotatedOffsets, fun source => ?_, ?_, ?_⟩
  · rw [BlockPlan.generate, hstrategy]
    rfl
  · have hperm := blocksInTurn_perm plan.blocksPerPage.toNat plan.blockCount.toNat plan.channels_pos
    have hsorted : (blocksInTurn _ plan.geometry.channels.toNat _).Pairwise _ :=
      pairwise_turnOf_blocksInTurn (BlockPlan.blocksPerPage_pos hstriped) plan.blockCount.toNat
    rw [← UInt64.toNat_div, ← UInt64.toNat_div]
    refine ⟨_, ?_, hperm, hsorted⟩
    rw [BlockPlan.rotatedOffsets_eq hstriped, List.map_map]
    exact List.map_congr_left fun block hblock =>
      plan.toNat_blockOffset (List.mem_range.mp (hperm.mem_iff.mp hblock))
  · intro channel hchannel
    rw [plan.lane_rotatedOffsets hchannel]
    exact plan.pairwise_map_toNat_linearOffsets.sublist (List.filter_sublist.map _)

/-- Five pages of two blocks on two channels, the last page cut short. -/
theorem sequential_order_sorted_by_turn_short_page :
    ∃ plan, BlockPlan.check ⟨.roundRobinSequential, 36, 4, ⟨8, 2⟩⟩ = .ok plan ∧
      ∃ blocks : List Nat,
        (plan.generate.run (Xoshiro.ofSeed 5)).1.map UInt64.toNat = blocks.map (· * 4) ∧
        blocks.Perm (List.range 9) ∧
        blocks.Pairwise fun before after =>
          Prod.Lex (· < ·) (· < ·) (turnOf 2 2 before) (turnOf 2 2 after) := by
  let plan : BlockPlan :=
    ⟨⟨.roundRobinSequential, 36, 4, ⟨8, 2⟩⟩, by decide, by decide, by decide, by decide, by decide⟩
  have haccepted : BlockPlan.check ⟨.roundRobinSequential, 36, 4, ⟨8, 2⟩⟩ = .ok plan := rfl
  obtain ⟨order, horder, ⟨blocks, hblocks, hperm, hsorted⟩, -⟩ :=
    sequential_order_sorted_by_turn haccepted rfl
  refine ⟨plan, haccepted, blocks, ?_, hperm, hsorted⟩
  rw [horder (Xoshiro.ofSeed 5)]
  exact hblocks

/-- The second page of a channel follows when the first page of every channel is used up. -/
example : blocksInTurn 2 2 9 = [0, 2, 1, 3, 4, 6, 5, 7, 8] := by decide

end AccessPattern
