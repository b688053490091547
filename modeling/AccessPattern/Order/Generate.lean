import AccessPattern.Order.Lanes
import AccessPattern.Random.Shuffle
import AccessPattern.Random.Xoshiro

/-!
# Generated orders

`generate` turns a plan into the offsets of its blocks in the order of the plan's strategy,
drawing what it needs from a random source. Every order emits each block of the extent once; the
strategies differ in how the lanes of the channels are arranged before they are interleaved.
-/

namespace AccessPattern

variable {σ : Type} [WordSource σ]

/-- Shuffle each list in turn, drawing from one source. -/
def shuffleEach {α : Type} (lists : List (List α)) : StateM σ (List (Array α)) :=
  lists.mapM fun list => Shuffle.shuffle list.toArray

namespace BlockPlan

/-- The offsets of a plan as a single shuffled list. -/
def shuffledOffsets (plan : BlockPlan) : StateM σ (List UInt64) := do
  let offsets ← Shuffle.shuffle plan.linearOffsets.toArray
  pure offsets.toList

/-- One block per channel in turn, each lane ascending. -/
def rotatedOffsets (plan : BlockPlan) : List UInt64 :=
  interleave (plan.lanes.map List.toArray)

/-- One block per channel in turn, each lane shuffled. -/
def shuffledLanes (plan : BlockPlan) : StateM σ (List UInt64) := do
  let lanes ← shuffleEach plan.lanes
  pure (interleave lanes)

/-- One page run per channel in turn, the runs of each lane shuffled. -/
def shuffledPages (plan : BlockPlan) : StateM σ (List UInt64) := do
  let lanes ← shuffleEach (plan.lanes.map plan.pageRuns)
  pure (interleave lanes).flatten

/-- The offsets of a plan in the order of its strategy. -/
def generate (plan : BlockPlan) : StateM σ (List UInt64) :=
  match plan.strategy with
  | .linear => pure plan.linearOffsets
  | .random => plan.shuffledOffsets
  | .roundRobinSequential => pure plan.rotatedOffsets
  | .roundRobinRandom => plan.shuffledLanes
  | .roundRobinPerPages => plan.shuffledPages

/-- The offsets of a plan in the order that a seed determines. -/
def offsetsOfSeed (plan : BlockPlan) (seed : UInt64) : List UInt64 :=
  (plan.generate.run (Xoshiro.ofSeed seed)).1

end BlockPlan

/-- Check a request and generate it from a seed. -/
def generateOffsets (request : PlanRequest) (seed : UInt64) : Except PlanError (List UInt64) := do
  let plan ← BlockPlan.check request
  pure (plan.offsetsOfSeed seed)

end AccessPattern
