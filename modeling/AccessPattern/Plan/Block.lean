import AccessPattern.Plan.Geometry
import AccessPattern.Plan.Strategy

/-!
# Block plans

A plan fixes what a testset covers: the extent, the size of its blocks, the backend geometry and
the ordering strategy. A plan can only be had from `BlockPlan.check`, which refuses what could not
be generated, so every plan carries the facts on which generation relies.
-/

namespace AccessPattern

/-- What a plan is asked to be, before it is checked. -/
structure PlanRequest where
  strategy : Strategy
  extent : UInt64
  blockSize : UInt64
  geometry : Geometry
deriving DecidableEq, Repr

/-- A request that can be generated. -/
structure BlockPlan extends PlanRequest where
  /-- Blocks have a size. -/
  blockSize_ne_zero : blockSize ≠ 0
  /-- Pages have a size. -/
  pageSize_ne_zero : geometry.pageSize ≠ 0
  /-- There is a channel. -/
  channels_ne_zero : geometry.channels ≠ 0
  /-- The extent is made of whole blocks. -/
  extent_mod_blockSize : extent % blockSize = 0
  /-- Where channels matter, pages are made of whole blocks. -/
  pageSize_mod_blockSize : strategy.isStriped → geometry.pageSize % blockSize = 0
deriving DecidableEq, Repr

/-- Why a request cannot be generated. -/
inductive PlanError where
  | zeroBlockSize
  | zeroPageSize
  | noChannels
  /-- The extent is not made of whole blocks. -/
  | unevenExtent (blockSize extent : UInt64)
  /-- A page is not made of whole blocks, which the strategy needs. -/
  | unevenPage (blockSize pageSize : UInt64) (strategy : Strategy)
deriving DecidableEq, Repr

/-- The wording of a plan error. -/
def PlanError.message : PlanError → String
  | .zeroBlockSize => "block_size must be greater than 0"
  | .zeroPageSize => "page_size must be greater than 0"
  | .noChannels => "channel count must be at least 1"
  | .unevenExtent blockSize extent =>
    s!"block_size {blockSize} does not evenly divide extent {extent}"
  | .unevenPage blockSize pageSize strategy =>
    s!"block_size {blockSize} does not evenly divide page_size {pageSize} " ++
      s!"(required by {strategy.name})"

namespace BlockPlan

/-- Check a request; the first fact that fails is reported. -/
def check (request : PlanRequest) : Except PlanError BlockPlan :=
  if hb : request.blockSize = 0 then .error .zeroBlockSize
  else if hp : request.geometry.pageSize = 0 then .error .zeroPageSize
  else if hc : request.geometry.channels = 0 then .error .noChannels
  else if he : request.extent % request.blockSize = 0 then
    if hs : request.strategy.isStriped → request.geometry.pageSize % request.blockSize = 0 then
      .ok ⟨request, hb, hp, hc, he, hs⟩
    else
      .error (.unevenPage request.blockSize request.geometry.pageSize request.strategy)
  else .error (.unevenExtent request.blockSize request.extent)

/-- How many blocks the extent is made of. -/
def blockCount (plan : BlockPlan) : UInt64 :=
  plan.extent / plan.blockSize

/-- How many blocks fit into one page. -/
def blocksPerPage (plan : BlockPlan) : UInt64 :=
  plan.geometry.pageSize / plan.blockSize

/-- The offsets of all blocks, ascending. -/
def linearOffsets (plan : BlockPlan) : List UInt64 :=
  (List.range plan.blockCount.toNat).map fun block => UInt64.ofNat block * plan.blockSize

/-- A checked plan asks for what the request asked for. -/
theorem toPlanRequest_of_check {request : PlanRequest} {plan : BlockPlan}
    (h : check request = .ok plan) : plan.toPlanRequest = request := by
  unfold check at h
  split at h <;> try contradiction
  split at h <;> try contradiction
  split at h <;> try contradiction
  split at h <;> try contradiction
  split at h <;> try contradiction
  cases h
  rfl

/-- The request of a plan passes the check again. -/
@[simp] theorem check_toPlanRequest (plan : BlockPlan) : check plan.toPlanRequest = .ok plan := by
  unfold check
  rw [dif_neg plan.blockSize_ne_zero, dif_neg plan.pageSize_ne_zero, dif_neg plan.channels_ne_zero,
    dif_pos plan.extent_mod_blockSize, dif_pos plan.pageSize_mod_blockSize]

end BlockPlan

end AccessPattern
