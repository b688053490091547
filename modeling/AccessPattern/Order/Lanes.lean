import AccessPattern.Plan.Block

/-!
# Channel lanes and page runs

The blocks of a plan split into one lane per channel, each ascending. A lane splits further into
runs: maximal stretches of neighbours that lie in the same page. Lanes are put back together by
`interleave`, which goes round the lanes and takes one item of each that still has one.
-/

namespace AccessPattern

/-- The offsets that each channel owns, in their order. -/
def Geometry.lanes (g : Geometry) (offsets : List UInt64) : List (List UInt64) :=
  Buckets.buckets g.channels.toNat (fun offset => (g.channelOf offset).toNat) offsets

/-- Those of the offsets that a channel owns, in their order. -/
def Geometry.lane (g : Geometry) (offsets : List UInt64) (channel : Nat) : List UInt64 :=
  offsets.filter fun offset => (g.channelOf offset).toNat == channel

/-- The lanes are the lane of each channel in turn. -/
theorem Geometry.lanes_eq (g : Geometry) (offsets : List UInt64) :
    g.lanes offsets = (List.range g.channels.toNat).map (g.lane offsets) :=
  Buckets.buckets_eq _ _ _

namespace BlockPlan

/-- The blocks of a plan split by channel, in channel order; each lane is ascending. -/
def lanes (plan : BlockPlan) : List (List UInt64) :=
  plan.geometry.lanes plan.linearOffsets

/-- Cut a list of offsets wherever two neighbours lie in different pages. -/
def pageRuns (plan : BlockPlan) (offsets : List UInt64) : List (List UInt64) :=
  offsets.splitBy fun before after => plan.geometry.pageOf before == plan.geometry.pageOf after

end BlockPlan

/-- The greatest number of items in any of the lanes. -/
def longestLane {α : Type} (lanes : List (Array α)) : Nat :=
  lanes.foldl (fun longest lane => max longest lane.size) 0

/-- Go round the lanes, taking the next item of each lane that has one, until all are used up. -/
def interleave {α : Type} (lanes : List (Array α)) : List α :=
  (List.range (longestLane lanes)).flatMap fun turn => lanes.filterMap fun lane => lane[turn]?

end AccessPattern
