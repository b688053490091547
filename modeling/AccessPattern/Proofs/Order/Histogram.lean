import AccessPattern.Proofs.Checked.Steps
import AccessPattern.Proofs.Order.Ranks
import AccessPattern.Proofs.Order.Rotation
import AccessPattern.Proofs.Replay
import Mathlib.Algebra.Ring.Nat

/-!
# How many blocks each channel has

The histogram counts the offsets of each channel, so it loses none and does not see their order. An
order of a plan holds the blocks of the extent, each once; what the channels get of it is therefore
fixed by the extent, the block size and the geometry, and neither a strategy nor a seed can change
it.

Where pages are made of whole blocks the counts can be computed: the blocks come in cycles of one
page per channel, each whole cycle gives every channel a page of blocks, and the last one, which may
be cut short, gives a channel what is left of it behind the pages of the channels before.
-/

namespace AccessPattern

namespace Geometry

variable (g : Geometry)

/-- There is one count for each channel. -/
@[simp] theorem length_histogram (offsets : List UInt64) :
    (g.histogram offsets).length = g.channels.toNat := by
  simp [histogram_eq]

/-- The count of a channel is the number of offsets whose page falls to it. -/
theorem getElem?_histogram (offsets : List UInt64) {channel : Nat}
    (hchannel : channel < g.channels.toNat) :
    (g.histogram offsets)[channel]? = some (offsets.countP fun offset =>
      offset.toNat / g.pageSize.toNat % g.channels.toNat == channel) := by
  simp [histogram_eq, List.getElem?_range hchannel, channelOf, pageOf]

/-- With at least one channel, every offset is counted once. -/
theorem sum_histogram (hchannels : g.channels ≠ 0) (offsets : List UInt64) :
    (g.histogram offsets).sum = offsets.length := by
  have hperm := flatMap_filter_perm g.channels.toNat (fun offset => (g.channelOf offset).toNat)
    offsets fun offset _ => channelOf_lt hchannels offset
  rw [← hperm.length_eq, List.length_flatMap, histogram_eq]
  simp only [List.countP_eq_length_filter]

variable {g}

/-- The order of the offsets does not matter. -/
theorem histogram_perm {offsets others : List UInt64} (h : others.Perm offsets) :
    g.histogram others = g.histogram offsets := by
  rw [histogram_eq, histogram_eq]
  exact List.map_congr_left fun channel _ => h.countP_eq _

/-- How many of the blocks that make up an extent lie on each channel. -/
def blockCounts (g : Geometry) (extent blockSize : UInt64) : List Nat :=
  (List.range g.channels.toNat).map (g.blocksOn extent blockSize)

end Geometry

/-- Whatever its strategy and the source, an order of a plan has the counts of the blocks of the
extent. -/
theorem BlockPlan.histogram_generate {σ : Type} [WordSource σ] (plan : BlockPlan) (source : σ) :
    plan.geometry.histogram (plan.generate.run source).1 =
      plan.geometry.blockCounts plan.extent plan.blockSize := by
  rw [Geometry.histogram_perm (plan.generate_perm_linearOffsets source), Geometry.histogram_eq,
    Geometry.blockCounts]
  refine List.map_congr_left fun channel _ => ?_
  rw [← plan.length_lane, Geometry.lane, List.countP_eq_length_filter]

/-- A manifest of an order of a plan records these counts. -/
theorem BlockPlan.channelBlocks_describe {σ : Type} [WordSource σ] (plan : BlockPlan) (source : σ)
    (seed : Option UInt64) (testset : String) (time : Timestamp) :
    (Manifest.describe plan seed (plan.generate.run source).1 testset time).channelBlocks.map
        UInt64.toNat = plan.geometry.blockCounts plan.extent plan.blockSize := by
  have hlength : (plan.generate.run source).1.length < UInt64.size := by
    simpa using plan.blockCount.toNat_lt
  rw [← plan.histogram_generate source]
  exact (Manifest.counts_describe seed hlength).2

section Cycles

variable {perPage channels channel : Nat} (hperPage : 0 < perPage)
include hperPage

/-- The blocks behind a whole cycle lie on the channels as those from the start on. -/
theorem length_channelBlocks_add (limit : Nat) :
    (channelBlocks perPage channels (perPage * channels + limit) channel).length =
      (channelBlocks perPage channels (perPage * channels) channel).length +
        (channelBlocks perPage channels limit channel).length := by
  have hshift (block : Nat) :
      (perPage * channels + block) / perPage % channels = block / perPage % channels := by
    rw [Nat.mul_add_div hperPage, Nat.add_mod_left]
  rw [channelBlocks, List.range_add, List.filter_append, List.length_append, List.filter_map,
    List.length_map]
  simp only [Function.comp_def, hshift]
  rfl

/-- Within one cycle a channel has the blocks of its page, as far as they go. -/
theorem length_channelBlocks_of_le {limit : Nat} (hlimit : limit ≤ perPage * channels) :
    (channelBlocks perPage channels limit channel).length =
      min perPage (limit - channel * perPage) := by
  have hpage : channelBlocks perPage channels limit channel = chunk perPage limit channel := by
    rw [← filter_range_eq_chunk hperPage, channelBlocks]
    refine List.filter_congr fun block hblock => ?_
    have hbelow : block / perPage < channels :=
      Nat.div_lt_of_lt_mul (Nat.lt_of_lt_of_le (List.mem_range.mp hblock) hlimit)
    rw [Nat.mod_eq_of_lt hbelow]
  rw [hpage, length_chunk]

/-- A channel has a page of blocks in each whole cycle, and of the rest what belongs to its page. -/
theorem length_channelBlocks_cycles (hchannel : channel < channels) (cycles : Nat) {rest : Nat}
    (hrest : rest ≤ perPage * channels) :
    (channelBlocks perPage channels (perPage * channels * cycles + rest) channel).length =
      cycles * perPage + min perPage (rest - channel * perPage) := by
  induction cycles with
  | zero => simpa using length_channelBlocks_of_le hperPage hrest
  | succ cycles ih =>
    have hwhole : (channelBlocks perPage channels (perPage * channels) channel).length =
        perPage := by
      rw [length_channelBlocks_of_le hperPage (Nat.le_refl _)]
      have hpages := Nat.mul_le_mul_left perPage (Nat.succ_le_of_lt hchannel)
      rw [Nat.mul_succ, Nat.mul_comm perPage channel] at hpages
      omega
    have hcycle : perPage * channels * (cycles + 1) + rest =
        perPage * channels + (perPage * channels * cycles + rest) := by
      rw [Nat.mul_succ]
      omega
    rw [hcycle, length_channelBlocks_add hperPage, hwhole, ih, Nat.succ_mul]
    omega

/-- So many of the first blocks lie on a channel. -/
theorem length_channelBlocks (hchannel : channel < channels) (limit : Nat) :
    (channelBlocks perPage channels limit channel).length =
      limit / (perPage * channels) * perPage +
        min perPage (limit % (perPage * channels) - channel * perPage) := by
  have hcycle : 0 < perPage * channels := Nat.mul_pos hperPage (Nat.zero_lt_of_lt hchannel)
  rw [← length_channelBlocks_cycles hperPage hchannel _ (Nat.le_of_lt (Nat.mod_lt limit hcycle)),
    Nat.div_add_mod]

end Cycles

namespace Geometry

variable {g : Geometry} {extent blockSize : UInt64} (hpage : g.pageSize ≠ 0)
  (hpages : g.pageSize % blockSize = 0)
include hpage hpages

/-- Where pages are made of whole blocks, a channel has a page of blocks in each whole cycle of
pages, and from the rest what is left behind the pages of the channels before it. -/
theorem blocksOn_eq {channel : Nat} (hchannel : channel < g.channels.toNat) :
    g.blocksOn extent blockSize channel =
      extent.toNat / blockSize.toNat /
          (g.pageSize.toNat / blockSize.toNat * g.channels.toNat) *
        (g.pageSize.toNat / blockSize.toNat) +
      min (g.pageSize.toNat / blockSize.toNat)
        (extent.toNat / blockSize.toNat %
            (g.pageSize.toNat / blockSize.toNat * g.channels.toNat) -
          channel * (g.pageSize.toNat / blockSize.toNat)) := by
  have hwhole := toNat_div_mul hpages
  rw [UInt64.toNat_div] at hwhole
  have hpositive : 0 < g.pageSize.toNat / blockSize.toNat * blockSize.toNat := by
    rw [hwhole]
    exact toNat_pos hpage
  have hblock := Nat.pos_of_mul_pos_left hpositive
  rw [← length_channelBlocks (Nat.pos_of_mul_pos_right hpositive) hchannel, blocksOn,
    channelBlocks, List.countP_eq_length_filter]
  refine congrArg List.length (List.filter_congr fun block _ => ?_)
  rw [← hwhole, Nat.mul_div_mul_right _ _ hblock, Nat.mul_div_cancel _ hblock]

/-- Two channels never differ by more than a page of blocks. -/
theorem blockCounts_le_add {first second : Nat} (hfirst : first ∈ g.blockCounts extent blockSize)
    (hsecond : second ∈ g.blockCounts extent blockSize) :
    first ≤ second + g.pageSize.toNat / blockSize.toNat := by
  obtain ⟨channel, hchannel, rfl⟩ := List.mem_map.mp hfirst
  obtain ⟨other, hother, rfl⟩ := List.mem_map.mp hsecond
  rw [blocksOn_eq hpage hpages (List.mem_range.mp hchannel),
    blocksOn_eq hpage hpages (List.mem_range.mp hother), Nat.add_assoc]
  refine Nat.add_le_add_left ((Nat.min_le_left _ _).trans (Nat.le_add_left _ _)) _

end Geometry

/-- Offsets of any kind are counted without a fault, one count a channel, each the number of offsets
that the channel owns; together the counts are the number of offsets, and their order does not
matter. So every plan for an extent, block size and geometry has the same counts, in the orders that
it generates and in the manifests of these, whatever its strategy and the source. Where pages are
made of whole blocks these counts are known: every channel has a page of blocks in each whole cycle
of pages, and from the rest as much of its page as is left behind the channels before it. So no two
channels differ by more than a page of blocks. -/
theorem histogram_counts_channels {g : Geometry} (hpage : g.pageSize ≠ 0)
    (hchannels : g.channels ≠ 0) :
    (∀ offsets, Checked.histogram g offsets = .ok (g.histogram offsets) ∧
      (g.histogram offsets).length = g.channels.toNat ∧
      (∀ channel < g.channels.toNat, (g.histogram offsets)[channel]? = some
        (offsets.countP fun offset =>
          offset.toNat / g.pageSize.toNat % g.channels.toNat == channel)) ∧
      (g.histogram offsets).sum = offsets.length ∧
      ∀ others, others.Perm offsets → g.histogram others = g.histogram offsets) ∧
    ∀ extent blockSize : UInt64,
      (∀ (strategy : Strategy) (plan : BlockPlan),
        BlockPlan.check ⟨strategy, extent, blockSize, g⟩ = .ok plan →
        ∀ {σ : Type} [WordSource σ] (source : σ),
          g.histogram (plan.generate.run source).1 = g.blockCounts extent blockSize ∧
          ∀ seed testset time, (Manifest.describe plan seed (plan.generate.run source).1 testset
            time).channelBlocks.map UInt64.toNat = g.blockCounts extent blockSize) ∧
      (g.pageSize % blockSize = 0 →
        ∀ perPage blocks channels, perPage = g.pageSize.toNat / blockSize.toNat →
          blocks = extent.toNat / blockSize.toNat → channels = g.channels.toNat →
          (∀ channel < channels, (g.blockCounts extent blockSize)[channel]? =
            some (blocks / (perPage * channels) * perPage +
              min perPage (blocks % (perPage * channels) - channel * perPage))) ∧
          ∀ first ∈ g.blockCounts extent blockSize, ∀ second ∈ g.blockCounts extent blockSize,
            first ≤ second + perPage) := by
  refine ⟨fun offsets => ⟨Checked.histogram_eq hpage hchannels offsets, g.length_histogram offsets,
    fun channel => g.getElem?_histogram offsets, g.sum_histogram hchannels offsets,
    fun others => Geometry.histogram_perm⟩, fun extent blockSize => ⟨?_, ?_⟩⟩
  · intro strategy plan haccepted σ _ source
    obtain ⟨-, rfl, rfl, rfl⟩ := PlanRequest.mk.inj (BlockPlan.toPlanRequest_of_check haccepted)
    exact ⟨plan.histogram_generate source, plan.channelBlocks_describe source⟩
  · rintro hpages perPage blocks channels rfl rfl rfl
    refine ⟨fun channel hchannel => ?_, fun first hfirst second hsecond =>
      Geometry.blockCounts_le_add hpage hpages hfirst hsecond⟩
    rw [Geometry.blockCounts, List.getElem?_map, List.getElem?_range hchannel, Option.map_some,
      Geometry.blocksOn_eq hpage hpages hchannel]

/-- Five and a half pages of four blocks on four channels: the first channel has eight blocks and
the second six in any order of them, for instance in a shuffled one and in a rotated one. -/
theorem histogram_counts_channels_half_page :
    ∃ shuffled rotated,
      BlockPlan.check ⟨.random, 88, 4, ⟨16, 4⟩⟩ = .ok shuffled ∧
      BlockPlan.check ⟨.roundRobinPerPages, 88, 4, ⟨16, 4⟩⟩ = .ok rotated ∧
      Geometry.histogram ⟨16, 4⟩ (shuffled.generate.run (Xoshiro.ofSeed 3)).1 =
        Geometry.histogram ⟨16, 4⟩ (rotated.generate.run (Xoshiro.ofSeed 8)).1 ∧
      (Geometry.histogram ⟨16, 4⟩ (rotated.generate.run (Xoshiro.ofSeed 8)).1)[1]? =
        some (22 / (4 * 4) * 4 + min 4 (22 % (4 * 4) - 1 * 4)) := by
  let shuffled : BlockPlan :=
    ⟨⟨.random, 88, 4, ⟨16, 4⟩⟩, by decide, by decide, by decide, by decide, by decide⟩
  let rotated : BlockPlan :=
    ⟨⟨.roundRobinPerPages, 88, 4, ⟨16, 4⟩⟩, by decide, by decide, by decide, by decide, by decide⟩
  obtain ⟨-, hcounts⟩ := histogram_counts_channels (g := ⟨16, 4⟩) (by decide) (by decide)
  obtain ⟨hplans, hclosed⟩ := hcounts 88 4
  obtain ⟨hentries, -⟩ := hclosed (by decide) 4 22 4 (by decide) (by decide) (by decide)
  have hshuffled := (hplans .random shuffled rfl (Xoshiro.ofSeed 3)).1
  have hrotated := (hplans .roundRobinPerPages rotated rfl (Xoshiro.ofSeed 8)).1
  refine ⟨shuffled, rotated, rfl, rfl, hshuffled.trans hrotated.symm, ?_⟩
  rw [hrotated]
  exact hentries 1 (by decide)

end AccessPattern
