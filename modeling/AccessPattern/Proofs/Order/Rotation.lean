import AccessPattern.Proofs.Order.Pages
import AccessPattern.Proofs.Order.Shuffling

/-!
# Channels in turn

Interleaving visits the lanes in turn and passes over those that have run out, so after any number
of items every lane has given as many as there were whole turns, one more if it stands before the
place reached in the turn under way, and never more than it has. Which lane is visited when depends
on the lengths of the lanes only. A lane holds the blocks of one channel, so shuffling it changes
neither its length nor the channel of what it gives: the channels follow each other in the same way
whether or not the lanes are shuffled.
-/

namespace AccessPattern

/-- The lanes below a number that still have an item in a turn. -/
def lanesInTurn (length : Nat → Nat) (lanes turn : Nat) : List Nat :=
  (List.range lanes).filter fun lane => turn < length lane

/-- Items taken from lanes of some lengths were taken in turn: there were some whole cycles, and in
the next one the lanes before a cut had their turn. Lanes that had run out gave nothing more. -/
def TakenInTurn (lanes : Nat) (length taken : Nat → Nat) : Prop :=
  ∃ cycle cut, cut < lanes ∧ ∀ lane < lanes,
    taken lane = if lane < cut then min (length lane) (cycle + 1) else min (length lane) cycle

/-- Of two lanes taken in turn none is more than one item ahead, unless the other has run out. -/
theorem TakenInTurn.le_succ {lanes : Nat} {length taken : Nat → Nat}
    (h : TakenInTurn lanes length taken) {ahead behind : Nat} (hahead : ahead < lanes)
    (hbehind : behind < lanes) (hleft : taken behind < length behind) :
    taken ahead ≤ taken behind + 1 := by
  obtain ⟨cycle, cut, -, htaken⟩ := h
  have hfirst := htaken ahead hahead
  have hsecond := htaken behind hbehind
  split at hfirst <;> split at hsecond <;> omega

/-- Lanes that hold nothing but their own number tell whose turn it is. -/
theorem turnItems_replicate (length : Nat → Nat) (lanes turn : Nat) :
    turnItems ((List.range lanes).map fun lane => Array.replicate (length lane) lane) turn =
      lanesInTurn length lanes turn := by
  have hitem : (fun lane => (Array.replicate (length lane) lane)[turn]?) =
      Option.guard fun lane => decide (turn < length lane) := by
    funext lane
    simp [Array.getElem?_replicate, Option.guard]
  rw [turnItems, List.filterMap_map, lanesInTurn, ← List.filterMap_eq_filter, ← hitem]
  rfl

/-- A lane is visited once in a turn if it has an item left, and otherwise not at all. -/
@[simp] theorem count_lanesInTurn (length : Nat → Nat) (lanes turn lane : Nat) :
    (lanesInTurn length lanes turn).count lane =
      if lane < lanes ∧ turn < length lane then 1 else 0 := by
  rw [lanesInTurn, (List.nodup_range.filter _).count]
  simp

/-- In whole cycles a lane is visited once a cycle until it has run out. -/
theorem count_cycles {length : Nat → Nat} {lanes lane : Nat} (h : lane < lanes) (cycles : Nat) :
    ((List.range cycles).flatMap (lanesInTurn length lanes)).count lane =
      min (length lane) cycles := by
  induction cycles with
  | zero => simp
  | succ cycles ih =>
    rw [List.range_succ, List.flatMap_append, List.flatMap_singleton, List.count_append, ih,
      count_lanesInTurn]
    split <;> omega

/-- What comes first in several turns is some whole turns and then a part of the next. -/
theorem exists_eq_append_of_prefix_flatMap {α : Type} {turn : Nat → List α} {turns : Nat}
    {first : List α} (h : first <+: (List.range turns).flatMap turn) :
    ∃ cycle part, first = (List.range cycle).flatMap turn ++ part ∧ part <+: turn cycle := by
  induction turns with
  | zero => exact ⟨0, [], List.prefix_nil.mp h, List.nil_prefix⟩
  | succ turns ih =>
    rw [List.range_succ, List.flatMap_append, List.flatMap_singleton] at h
    obtain ⟨rest, hrest⟩ := h
    rcases List.append_eq_append_iff.mp hrest with ⟨more, hmore, -⟩ | ⟨part, hpart, hturn⟩
    · exact ih ⟨more, hmore.symm⟩
    · exact ⟨turns, part, hpart, rest, hturn.symm⟩

/-- A part of a turn is the turn of the lanes before a cut. -/
theorem eq_lanesInTurn_of_prefix {length : Nat → Nat} {lanes turn : Nat} {part : List Nat}
    (h : part <+: lanesInTurn length lanes turn) :
    ∃ cut ≤ lanes, part = lanesInTurn length cut turn := by
  obtain ⟨before, hbefore, hpart⟩ := List.prefix_filter_iff.mp h
  rw [List.prefix_iff_eq_take, List.take_range] at hbefore
  exact ⟨min before.length lanes, Nat.min_le_right _ _, hpart.trans (congrArg _ hbefore)⟩

/-- The lanes visited first in any number of turns have been visited in turn. A turn that has reached
its end is the next whole cycle, so the cut is always a lane. -/
theorem takenInTurn_of_prefix {length : Nat → Nat} {lanes turns : Nat} (hlanes : 0 < lanes)
    {first : List Nat} (h : first <+: (List.range turns).flatMap (lanesInTurn length lanes)) :
    TakenInTurn lanes length first.count := by
  obtain ⟨cycle, part, rfl, hpart⟩ := exists_eq_append_of_prefix_flatMap h
  obtain ⟨cut, hcut, rfl⟩ := eq_lanesInTurn_of_prefix hpart
  have hcount (lane : Nat) (hlane : lane < lanes) :
      ((List.range cycle).flatMap (lanesInTurn length lanes) ++
        lanesInTurn length cut cycle).count lane =
      if lane < cut then min (length lane) (cycle + 1) else min (length lane) cycle := by
    rw [List.count_append, count_cycles hlane, count_lanesInTurn]
    split <;> split <;> omega
  rcases Nat.lt_or_eq_of_le hcut with hinside | rfl
  · exact ⟨cycle, cut, hinside, hcount⟩
  · refine ⟨cycle + 1, 0, hlanes, fun lane hlane => (hcount lane hlane).trans ?_⟩
    rw [if_pos hlane, if_neg (Nat.not_lt_zero _)]

/-- How many of the blocks that make up an extent lie on a channel. -/
def Geometry.blocksOn (g : Geometry) (extent blockSize : UInt64) (channel : Nat) : Nat :=
  (List.range (extent.toNat / blockSize.toNat)).countP fun block =>
    block * blockSize.toNat / g.pageSize.toNat % g.channels.toNat == channel

namespace BlockPlan

variable (plan : BlockPlan)

/-- The same blocks ordered by another strategy, which may look at channels if the old one does. -/
def withStrategy (strategy : Strategy) (h : strategy.isStriped → plan.strategy.isStriped) :
    BlockPlan where
  toPlanRequest := { plan.toPlanRequest with strategy }
  blockSize_ne_zero := plan.blockSize_ne_zero
  pageSize_ne_zero := plan.pageSize_ne_zero
  channels_ne_zero := plan.channels_ne_zero
  extent_mod_blockSize := plan.extent_mod_blockSize
  pageSize_mod_blockSize hstriped := plan.pageSize_mod_blockSize (h hstriped)

/-- A lane is as long as its channel has blocks. -/
theorem length_lane (channel : Nat) :
    (plan.geometry.lane plan.linearOffsets channel).length =
      plan.geometry.blocksOn plan.extent plan.blockSize channel := by
  rw [Geometry.lane, ← List.countP_eq_length_filter, linearOffsets_eq, List.countP_map,
    Geometry.blocksOn, ← UInt64.toNat_div]
  refine List.countP_congr fun block hblock => ?_
  rw [Function.comp_apply, plan.toNat_channelOf_blockOffset (List.mem_range.mp hblock)]

/-- All blocks of a lane lie on the channel of the lane. -/
theorem channelOf_of_mem_lanes {lane : List UInt64} (h : lane ∈ plan.lanes) :
    ∃ channel, ∀ offset ∈ lane, plan.geometry.channelOf offset = channel := by
  rw [lanes, Geometry.lanes_eq] at h
  obtain ⟨channel, -, rfl⟩ := List.mem_map.mp h
  refine ⟨UInt64.ofNat channel, fun offset hoffset => ?_⟩
  have hchannel := (List.mem_filter.mp hoffset).2
  rw [← beq_iff_eq.mp hchannel, UInt64.ofNat_toNat]

/-- By their channels, the lanes hold nothing but their own number. -/
theorem map_channelOf_lanes :
    (plan.lanes.map List.toArray).map
        (Array.map fun offset => (plan.geometry.channelOf offset).toNat) =
      (List.range plan.geometry.channels.toNat).map fun channel =>
        Array.replicate (plan.geometry.blocksOn plan.extent plan.blockSize channel) channel := by
  rw [lanes, Geometry.lanes_eq, List.map_map, List.map_map]
  refine List.map_congr_left fun channel _ => ?_
  rw [Function.comp_apply, Function.comp_apply, List.map_toArray, ← List.toArray_replicate,
    ← plan.length_lane]
  congr 1
  refine List.map_eq_replicate_iff.mpr fun offset hoffset => ?_
  exact beq_iff_eq.mp (List.mem_filter.mp hoffset).2

/-- The channels of the interleaved ascending lanes are the lanes in turn. -/
theorem map_channelOf_rotatedOffsets :
    ∃ turns, plan.rotatedOffsets.map (fun offset => (plan.geometry.channelOf offset).toNat) =
      (List.range turns).flatMap
        (lanesInTurn (plan.geometry.blocksOn plan.extent plan.blockSize)
          plan.geometry.channels.toNat) := by
  rw [rotatedOffsets, ← interleave_map, map_channelOf_lanes, interleave,
    ← funext (turnItems_replicate _ _)]
  exact ⟨_, rfl⟩

/-- Shuffling the lanes cannot be seen from the channels. -/
theorem map_channelOf_shuffledLanes {σ : Type} [WordSource σ] (source : σ) :
    (plan.shuffledLanes.run source).1.map plan.geometry.channelOf =
      plan.rotatedOffsets.map plan.geometry.channelOf := by
  rw [shuffledLanes_run, Prod.map_fst, rotatedOffsets, ← interleave_map, ← interleave_map,
    map_shuffleEach_of_constant _ fun _ hlane => plan.channelOf_of_mem_lanes hlane]

/-- The offsets that come first in an order with the channels of the interleaved ascending lanes
have been taken from the channels in turn. -/
theorem takenInTurn_of_map_channelOf {order first : List UInt64}
    (horder : order.map plan.geometry.channelOf = plan.rotatedOffsets.map plan.geometry.channelOf)
    (h : first <+: order) :
    TakenInTurn plan.geometry.channels.toNat
      (plan.geometry.blocksOn plan.extent plan.blockSize)
      fun channel => (plan.geometry.lane first channel).length := by
  obtain ⟨turns, hturns⟩ := plan.map_channelOf_rotatedOffsets
  have hnumbers : order.map (fun offset => (plan.geometry.channelOf offset).toNat) =
      plan.rotatedOffsets.map fun offset => (plan.geometry.channelOf offset).toNat := by
    simpa only [List.map_map, Function.comp_def] using congrArg (List.map UInt64.toNat) horder
  have hprefix := h.map fun offset => (plan.geometry.channelOf offset).toNat
  rw [hnumbers, hturns] at hprefix
  have htaken := takenInTurn_of_prefix plan.channels_pos hprefix
  have hcount : (first.map fun offset => (plan.geometry.channelOf offset).toNat).count =
      fun channel => (plan.geometry.lane first channel).length := by
    funext channel
    rw [List.count, List.countP_map, Geometry.lane, List.countP_eq_length_filter]
    rfl
  rwa [hcount] at htaken

end BlockPlan

/-- Where a striped strategy is accepted, so are both strategies that take one block per channel in
turn, and whatever the sources hand out, the channels of both orders are the same. Both are fair:
among the blocks that come first in one of them, as many as one likes, each channel has had its
turn in every whole cycle and in the cycle under way if it stands before a cut, as long as it had
blocks of the extent left. So no channel is ever more than one block ahead of another one that
still has blocks. -/
theorem round_robin_channels_in_turn {σ τ : Type} [WordSource σ] [WordSource τ]
    {strategy : Strategy} {extent blockSize : UInt64} {geometry : Geometry} {plan : BlockPlan}
    (hstriped : strategy.isStriped)
    (haccepted : BlockPlan.check ⟨strategy, extent, blockSize, geometry⟩ = .ok plan) :
    ∃ random sequential,
      BlockPlan.check ⟨.roundRobinRandom, extent, blockSize, geometry⟩ = .ok random ∧
      BlockPlan.check ⟨.roundRobinSequential, extent, blockSize, geometry⟩ = .ok sequential ∧
      ∀ (source : σ) (other : τ),
        (random.generate.run source).1.map geometry.channelOf =
          (sequential.generate.run other).1.map geometry.channelOf ∧
        ∀ order ∈ [(random.generate.run source).1, (sequential.generate.run other).1],
          ∀ first, first <+: order →
            TakenInTurn geometry.channels.toNat (geometry.blocksOn extent blockSize)
              (fun channel => (geometry.lane first channel).length) ∧
            ∀ ahead < geometry.channels.toNat, ∀ behind < geometry.channels.toNat,
              (geometry.lane first behind).length < geometry.blocksOn extent blockSize behind →
              (geometry.lane first ahead).length ≤ (geometry.lane first behind).length + 1 := by
  obtain ⟨rfl, rfl, rfl, rfl⟩ := PlanRequest.mk.inj (BlockPlan.toPlanRequest_of_check haccepted)
  let random := plan.withStrategy .roundRobinRandom fun _ => hstriped
  let sequential := plan.withStrategy .roundRobinSequential fun _ => hstriped
  refine ⟨random, sequential, random.check_toPlanRequest, sequential.check_toPlanRequest,
    fun source other => ?_⟩
  have hrandom : (random.generate.run source).1.map plan.geometry.channelOf =
      plan.rotatedOffsets.map plan.geometry.channelOf :=
    random.map_channelOf_shuffledLanes source
  have hsequential : (sequential.generate.run other).1.map plan.geometry.channelOf =
      plan.rotatedOffsets.map plan.geometry.channelOf := rfl
  refine ⟨hrandom.trans hsequential.symm, fun order horder first hfirst => ?_⟩
  have hchannels : order.map plan.geometry.channelOf =
      plan.rotatedOffsets.map plan.geometry.channelOf := by
    rcases List.mem_pair.mp horder with rfl | rfl
    · exact hrandom
    · exact hsequential
  have htaken := plan.takenInTurn_of_map_channelOf hchannels hfirst
  exact ⟨htaken, fun ahead hahead behind hbehind => htaken.le_succ hahead hbehind⟩

/-- Ten pages on four channels, the last page half as long, so that two channels run out before the
others: the 33 blocks that come first in the shuffled order were taken in turn. -/
theorem round_robin_channels_in_turn_half_page :
    ∃ random sequential,
      BlockPlan.check ⟨.roundRobinRandom, 152, 4, ⟨16, 4⟩⟩ = .ok random ∧
      BlockPlan.check ⟨.roundRobinSequential, 152, 4, ⟨16, 4⟩⟩ = .ok sequential ∧
      (random.generate.run (Xoshiro.ofSeed 21)).1.map (Geometry.channelOf ⟨16, 4⟩) =
        (sequential.generate.run (Xoshiro.ofSeed 0)).1.map (Geometry.channelOf ⟨16, 4⟩) ∧
      TakenInTurn 4 (Geometry.blocksOn ⟨16, 4⟩ 152 4) fun channel =>
        (Geometry.lane ⟨16, 4⟩ ((random.generate.run (Xoshiro.ofSeed 21)).1.take 33)
          channel).length := by
  let plan : BlockPlan :=
    ⟨⟨.roundRobinPerPages, 152, 4, ⟨16, 4⟩⟩, by decide, by decide, by decide, by decide, by decide⟩
  have haccepted : BlockPlan.check ⟨.roundRobinPerPages, 152, 4, ⟨16, 4⟩⟩ = .ok plan := rfl
  obtain ⟨random, sequential, hrandom, hsequential, hturns⟩ :=
    round_robin_channels_in_turn (σ := Xoshiro) (τ := Xoshiro) rfl haccepted
  obtain ⟨hchannels, hfair⟩ := hturns (Xoshiro.ofSeed 21) (Xoshiro.ofSeed 0)
  have hfirst := hfair _ List.mem_cons_self _ (List.take_prefix 33 _)
  exact ⟨random, sequential, hrandom, hsequential, hchannels, hfirst.1⟩

end AccessPattern
