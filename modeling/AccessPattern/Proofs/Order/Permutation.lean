import AccessPattern.Proofs.Order.Blocks
import AccessPattern.Proofs.Order.Interleave
import AccessPattern.Proofs.Order.Shuffling
import Mathlib.Data.List.SplitBy

/-!
# Every order is a permutation

Splitting the blocks into lanes loses none and doubles none, and neither does cutting lanes into
page runs, shuffling or interleaving. Hence each strategy puts out every block of the extent once,
whatever the source. Nothing is asked of the geometry beyond what a plan carries: block sizes that
do not divide the page, a last page that is cut short, more channels than pages and an empty
extent are all covered.
-/

namespace AccessPattern

/-- An item is sorted into the bucket of its number and into no other. -/
private theorem flatMap_range_single {α : Type} (item : α) {number limit : Nat}
    (h : number < limit) :
    ((List.range limit).flatMap fun i => if number == i then [item] else []) = [item] := by
  induction limit with
  | zero => exact absurd h (Nat.not_lt_zero _)
  | succ limit ih =>
    rw [List.range_succ, List.flatMap_append]
    by_cases hlast : number = limit
    · have hbefore :
          ((List.range limit).flatMap fun i => if number == i then [item] else []) = [] := by
        rw [List.flatMap_eq_nil_iff]
        intro i hi
        rw [List.mem_range] at hi
        simp [hlast, Nat.ne_of_gt hi]
      rw [hbefore]
      simp [hlast]
    · rw [ih (by omega)]
      simp [hlast]

/-- Sorting items by a number below a limit and listing the sorts in turn reorders the items. -/
theorem flatMap_filter_perm {α : Type} (limit : Nat) (number : α → Nat) (items : List α)
    (h : ∀ item ∈ items, number item < limit) :
    ((List.range limit).flatMap fun i => items.filter fun item => number item == i).Perm items := by
  induction items with
  | nil => simp
  | cons item items ih =>
    have hsplit : (fun i => (item :: items).filter fun item => number item == i) = fun i =>
        (if number item == i then [item] else []) ++ items.filter fun item => number item == i := by
      funext i
      rw [List.filter_cons]
      split <;> rfl
    rw [hsplit]
    apply (List.flatMap_append_perm _ _ _).symm.trans
    rw [flatMap_range_single item (h item List.mem_cons_self)]
    exact (ih fun other hother => h other (List.mem_cons_of_mem _ hother)).cons item

namespace BlockPlan

variable (plan : BlockPlan)

/-- The lanes together hold every block once. -/
theorem flatten_lanes_perm : plan.lanes.flatten.Perm plan.linearOffsets := by
  rw [lanes, Geometry.lanes_eq, ← List.flatMap_def]
  exact flatMap_filter_perm _ _ _ fun offset _ =>
    Geometry.channelOf_lt plan.channels_ne_zero offset

/-- Cutting lists into page runs and joining the runs gives the lists back. -/
theorem flatten_flatten_pageRuns (lanes : List (List UInt64)) :
    (lanes.map plan.pageRuns).flatten.flatten = lanes.flatten := by
  induction lanes with
  | nil => rfl
  | cons lane lanes ih =>
    rw [List.map_cons, List.flatten_cons, List.flatten_append, ih, List.flatten_cons]
    exact congrArg (· ++ lanes.flatten) (List.flatten_splitBy _ _)

variable {σ : Type} [WordSource σ]

/-- Every strategy reorders the ascending offsets. -/
theorem generate_perm_linearOffsets (source : σ) :
    (plan.generate.run source).1.Perm plan.linearOffsets := by
  unfold generate
  cases plan.strategy with
  | linear => exact .refl _
  | random => exact (Shuffle.shuffle_perm plan.linearOffsets.toArray source).toList
  | roundRobinSequential =>
    apply (interleave_perm _).trans
    rw [List.flatMap_map]
    simpa [List.flatMap_id'] using plan.flatten_lanes_perm
  | roundRobinRandom =>
    apply (interleave_perm _).trans
    exact (flatMap_shuffleEach_perm _ _).trans plan.flatten_lanes_perm
  | roundRobinPerPages =>
    apply (List.Perm.flatten (interleave_perm _)).trans
    apply (List.Perm.flatten (flatMap_shuffleEach_perm _ _)).trans
    rw [flatten_flatten_pageRuns]
    exact plan.flatten_lanes_perm

/-- An order has one offset for each block. -/
@[simp] theorem length_generate (source : σ) :
    (plan.generate.run source).1.length = plan.blockCount.toNat := by
  simp [(plan.generate_perm_linearOffsets source).length_eq]

/-- As numbers, the offsets of the blocks are the multiples of the block size in turn. -/
theorem map_toNat_linearOffsets :
    plan.linearOffsets.map UInt64.toNat =
      (List.range plan.blockCount.toNat).map (· * plan.blockSize.toNat) := by
  rw [linearOffsets_eq, List.map_map]
  exact List.map_congr_left fun block hblock => toNat_blockOffset _ (List.mem_range.mp hblock)

/-- As numbers, the offsets of the blocks ascend. -/
theorem pairwise_map_toNat_linearOffsets :
    (plan.linearOffsets.map UInt64.toNat).Pairwise (· < ·) := by
  rw [map_toNat_linearOffsets]
  exact List.pairwise_lt_range.map _ fun _ _ hlt =>
    Nat.mul_lt_mul_of_pos_right hlt plan.blockSize_pos

end BlockPlan

/-- An accepted request is generated completely and without repetition: there are as many offsets
as blocks, they are the multiples of the block size that make up the extent in some order, and
every offset of 64 bits is put out once if it is such a multiple and never otherwise.

The source may hand out any words in any number of states. How long it sees words refused before a
draw ends is its own affair, so every source whose draws end is included. -/
theorem generate_each_block_once {σ : Type} [WordSource σ] {request : PlanRequest}
    {plan : BlockPlan} (haccepted : BlockPlan.check request = .ok plan) (source : σ) :
    (plan.generate.run source).1.length = plan.blockCount.toNat ∧
      plan.blockCount.toNat * request.blockSize.toNat = request.extent.toNat ∧
      ((plan.generate.run source).1.map UInt64.toNat).Perm
        ((List.range plan.blockCount.toNat).map (· * request.blockSize.toNat)) ∧
      ∀ offset : UInt64, (plan.generate.run source).1.count offset =
        if request.blockSize.toNat ∣ offset.toNat ∧ offset.toNat < request.extent.toNat then 1
        else 0 := by
  have hrequest := BlockPlan.toPlanRequest_of_check haccepted
  have hperm := plan.generate_perm_linearOffsets source
  subst hrequest
  refine ⟨plan.length_generate source, plan.blockCount_mul_blockSize, ?_, ?_⟩
  · rw [← plan.map_toNat_linearOffsets]
    exact hperm.map _
  · intro offset
    rw [hperm.count_eq]
    split
    · next hblock =>
      exact List.count_eq_one_of_mem plan.nodup_linearOffsets (plan.mem_linearOffsets.mpr hblock)
    · next hblock =>
      exact List.count_eq_zero_of_not_mem fun hmem => hblock (plan.mem_linearOffsets.mp hmem)

/-- Three pages, the last cut short, on five channels: nine blocks come out once each. -/
theorem generate_each_block_once_short_page :
    ∃ plan, BlockPlan.check ⟨.roundRobinPerPages, 36, 4, ⟨16, 5⟩⟩ = .ok plan ∧
      (plan.generate.run (Xoshiro.ofSeed 7)).1.length = 9 ∧
      ∀ offset : UInt64, (plan.generate.run (Xoshiro.ofSeed 7)).1.count offset =
        if 4 ∣ offset.toNat ∧ offset.toNat < 36 then 1 else 0 := by
  let plan : BlockPlan :=
    ⟨⟨.roundRobinPerPages, 36, 4, ⟨16, 5⟩⟩, by decide, by decide, by decide, by decide, by decide⟩
  have haccepted : BlockPlan.check ⟨.roundRobinPerPages, 36, 4, ⟨16, 5⟩⟩ = .ok plan := rfl
  have hblocks : plan.blockCount.toNat = 9 := by decide
  obtain ⟨hlength, -, -, hcount⟩ := generate_each_block_once haccepted (Xoshiro.ofSeed 7)
  exact ⟨plan, haccepted, hlength.trans hblocks, hcount⟩

end AccessPattern
