import AccessPattern.Proofs.Order.BlockNumbers
import AccessPattern.Proofs.Plan.Requests

/-!
# Scaled sizes

Multiplying the extent, the block size and the page size by one factor changes none of the counts by
which a strategy orders the numbers of the blocks: their quotients stay the same. So the order of
the numbers and the draws for it stay the same too, and each offset is multiplied by the factor,
which moves it neither to another page nor to another channel. As long as the sizes fit into 64
bits, so do the offsets, since they lie below the extent.
-/

namespace AccessPattern

/-- A request with all sizes multiplied by a factor. -/
def PlanRequest.scaledBy (request : PlanRequest) (factor : Nat) : PlanRequest where
  strategy := request.strategy
  extent := UInt64.ofNat factor * request.extent
  blockSize := UInt64.ofNat factor * request.blockSize
  geometry :=
    { pageSize := UInt64.ofNat factor * request.geometry.pageSize
      channels := request.geometry.channels }

/-- All sizes of a request fit into 64 bits when they are multiplied by a factor. -/
structure PlanRequest.FitsScaled (request : PlanRequest) (factor : Nat) : Prop where
  extent : factor * request.extent.toNat < UInt64.size
  blockSize : factor * request.blockSize.toNat < UInt64.size
  pageSize : factor * request.geometry.pageSize.toNat < UInt64.size

section Products

variable {factor : Nat} {n other : UInt64}

/-- A product that fits into 64 bits is computed without overflow, however large the factor. -/
theorem toNat_ofNat_mul (h : factor * n.toNat < UInt64.size) :
    (UInt64.ofNat factor * n).toNat = factor * n.toNat := by
  rw [UInt64.toNat_mul, UInt64.toNat_ofNat', Nat.mod_mul_mod]
  exact Nat.mod_eq_of_lt h

variable (hfactor : 0 < factor) (h : factor * n.toNat < UInt64.size)
  (hother : factor * other.toNat < UInt64.size)
include hfactor h

/-- A product with a positive factor is positive when the other factor is. -/
theorem ofNat_mul_pos_iff : 0 < UInt64.ofNat factor * n ↔ 0 < n := by
  rw [UInt64.lt_iff_toNat_lt, UInt64.lt_iff_toNat_lt, toNat_ofNat_mul h]
  exact Nat.mul_pos_iff_of_pos_left hfactor

include hother

/-- A common factor does not change whether one number divides another. -/
theorem toNat_ofNat_mul_dvd_iff :
    (UInt64.ofNat factor * n).toNat ∣ (UInt64.ofNat factor * other).toNat ↔
      n.toNat ∣ other.toNat := by
  rw [toNat_ofNat_mul h, toNat_ofNat_mul hother]
  exact Nat.mul_dvd_mul_iff_left hfactor

/-- A common factor does not change a quotient. -/
theorem ofNat_mul_div_ofNat_mul :
    UInt64.ofNat factor * n / (UInt64.ofNat factor * other) = n / other := by
  rw [← UInt64.toNat_inj, UInt64.toNat_div, UInt64.toNat_div, toNat_ofNat_mul h,
    toNat_ofNat_mul hother]
  exact Nat.mul_div_mul_left _ _ hfactor

end Products

section Scaled

variable {request : PlanRequest} {factor : Nat} (hfactor : 0 < factor)
  (hfits : request.FitsScaled factor)
include hfactor hfits

/-- A scaled request makes a plan when the request does. -/
theorem PlanRequest.isPlannable_scaledBy_iff :
    (request.scaledBy factor).IsPlannable ↔ request.IsPlannable := by
  have hblock := ofNat_mul_pos_iff hfactor hfits.blockSize
  have hpage := ofNat_mul_pos_iff hfactor hfits.pageSize
  have hextent := toNat_ofNat_mul_dvd_iff hfactor hfits.blockSize hfits.extent
  have hpages := toNat_ofNat_mul_dvd_iff hfactor hfits.blockSize hfits.pageSize
  constructor
  · intro h
    exact ⟨hblock.mp h.blockSize_pos, hpage.mp h.pageSize_pos, h.channels_pos,
      hextent.mp h.blockSize_dvd_extent, fun hrobin => hpages.mp (h.blockSize_dvd_pageSize hrobin)⟩
  · intro h
    exact ⟨hblock.mpr h.blockSize_pos, hpage.mpr h.pageSize_pos, h.channels_pos,
      hextent.mpr h.blockSize_dvd_extent,
      fun hrobin => hpages.mpr (h.blockSize_dvd_pageSize hrobin)⟩

/-- An offset multiplied by the factor lies in the same page and so on the same channel. -/
theorem PlanRequest.channelOf_scaledBy {offset : UInt64} (h : factor * offset.toNat < UInt64.size) :
    (request.scaledBy factor).geometry.channelOf (UInt64.ofNat factor * offset) =
      request.geometry.channelOf offset := by
  change UInt64.ofNat factor * offset / (UInt64.ofNat factor * request.geometry.pageSize) %
    request.geometry.channels = _
  rw [ofNat_mul_div_ofNat_mul hfactor h hfits.pageSize]
  rfl

end Scaled

namespace BlockPlan

variable {plan larger : BlockPlan} {factor : Nat} (hfactor : 0 < factor)
  (hfits : plan.FitsScaled factor) (hlarger : larger.toPlanRequest = plan.scaledBy factor)
include hfactor hfits hlarger

/-- A scaled plan orders its blocks as the plan does, and puts in larger offsets. -/
theorem generate_run_scaled {σ : Type} [WordSource σ] (source : σ) :
    larger.generate.run source =
      Prod.map (List.map (UInt64.ofNat factor * ·)) id (plan.generate.run source) := by
  have hoffset : larger.blockOffset = (UInt64.ofNat factor * ·) ∘ plan.blockOffset := by
    funext block
    rw [Function.comp_apply, blockOffset, blockOffset, hlarger, ← UInt64.mul_assoc,
      UInt64.mul_comm (UInt64.ofNat factor), UInt64.mul_assoc]
    rfl
  have hcount : larger.blockCount = plan.blockCount := by
    rw [blockCount, hlarger]
    exact ofNat_mul_div_ofNat_mul hfactor hfits.extent hfits.blockSize
  have hperPage : larger.blocksPerPage = plan.blocksPerPage := by
    rw [blocksPerPage, hlarger]
    exact ofNat_mul_div_ofNat_mul hfactor hfits.pageSize hfits.blockSize
  rw [generate_run_orderNumbers, generate_run_orderNumbers, hoffset, hcount, hperPage, hlarger,
    Prod.map_map, ← List.map_comp_map]
  rfl

omit hfactor hlarger in
/-- The generated offsets are no larger than the extent, so they can be multiplied too. -/
theorem mul_toNat_lt_size_of_mem_generate {σ : Type} [WordSource σ] {source : σ} {offset : UInt64}
    (h : offset ∈ (plan.generate.run source).1) : factor * offset.toNat < UInt64.size := by
  have hmem := (plan.generate_perm_linearOffsets source).mem_iff.mp h
  have hlt := (plan.mem_linearOffsets.mp hmem).2
  exact Nat.lt_of_le_of_lt (Nat.mul_le_mul_left factor (Nat.le_of_lt hlt)) hfits.extent

end BlockPlan

/-- Multiplying all sizes by a factor, as long as they fit into 64 bits, changes nothing but the
scale. The scaled request is accepted if and only if the request is, and then the plans of both,
from the same source, give the same order: each offset is multiplied by the factor and lies on the
same channel as before, and the source is left in the same state. -/
theorem scaled_sizes_scale_offsets {request : PlanRequest} {factor : Nat} (hfactor : 1 ≤ factor)
    (hfits : request.FitsScaled factor) :
    ((∃ larger, BlockPlan.check (request.scaledBy factor) = .ok larger) ↔
      ∃ plan, BlockPlan.check request = .ok plan) ∧
    ∀ plan larger, BlockPlan.check request = .ok plan →
      BlockPlan.check (request.scaledBy factor) = .ok larger →
      ∀ {σ : Type} [WordSource σ] (source : σ),
        (larger.generate.run source).1.map UInt64.toNat =
          (plan.generate.run source).1.map (fun offset => factor * offset.toNat) ∧
        (larger.generate.run source).1.map (request.scaledBy factor).geometry.channelOf =
          (plan.generate.run source).1.map request.geometry.channelOf ∧
        (larger.generate.run source).2 = (plan.generate.run source).2 := by
  refine ⟨?_, fun plan larger hplan hlarger σ _ source => ?_⟩
  · rw [PlanRequest.exists_check_iff, PlanRequest.exists_check_iff]
    exact PlanRequest.isPlannable_scaledBy_iff hfactor hfits
  · have hrequest := BlockPlan.toPlanRequest_of_check hplan
    subst hrequest
    have hscaled := BlockPlan.generate_run_scaled hfactor hfits
      (BlockPlan.toPlanRequest_of_check hlarger) source
    rw [hscaled, Prod.map_fst, Prod.map_snd, List.map_map, List.map_map]
    refine ⟨List.map_congr_left fun offset hoffset => ?_,
      List.map_congr_left fun offset hoffset => ?_, rfl⟩
    · exact toNat_ofNat_mul (BlockPlan.mul_toNat_lt_size_of_mem_generate hfits hoffset)
    · exact PlanRequest.channelOf_scaledBy hfactor hfits
        (BlockPlan.mul_toNat_lt_size_of_mem_generate hfits hoffset)

/-- Five and a half pages of sixteen bytes, and as many pages of 2 EiB, which do fit. -/
theorem scaled_sizes_scale_offsets_largest :
    PlanRequest.FitsScaled ⟨.roundRobinPerPages, 88, 4, ⟨16, 4⟩⟩ 144115188075855872 ∧
      ∃ plan larger,
        BlockPlan.check ⟨.roundRobinPerPages, 88, 4, ⟨16, 4⟩⟩ = .ok plan ∧
        BlockPlan.check ⟨.roundRobinPerPages, 12682136550675316736, 576460752303423488,
          ⟨2305843009213693952, 4⟩⟩ = .ok larger ∧
        (larger.generate.run (Xoshiro.ofSeed 9)).1.map UInt64.toNat =
          (plan.generate.run (Xoshiro.ofSeed 9)).1.map
            (fun offset => 144115188075855872 * offset.toNat) ∧
        (larger.generate.run (Xoshiro.ofSeed 9)).2 = (plan.generate.run (Xoshiro.ofSeed 9)).2 := by
  let plan : BlockPlan :=
    ⟨⟨.roundRobinPerPages, 88, 4, ⟨16, 4⟩⟩, by decide, by decide, by decide, by decide, by decide⟩
  have hfits : PlanRequest.FitsScaled ⟨.roundRobinPerPages, 88, 4, ⟨16, 4⟩⟩ 144115188075855872 :=
    ⟨by decide, by decide, by decide⟩
  have haccepted : BlockPlan.check ⟨.roundRobinPerPages, 88, 4, ⟨16, 4⟩⟩ = .ok plan := rfl
  obtain ⟨hplans, hgenerate⟩ := scaled_sizes_scale_offsets (by decide) hfits
  obtain ⟨larger, hlarger⟩ := hplans.mpr ⟨plan, haccepted⟩
  obtain ⟨hoffsets, -, hsource⟩ :=
    hgenerate plan larger haccepted hlarger (Xoshiro.ofSeed 9)
  exact ⟨hfits, plan, larger, haccepted, hlarger, hoffsets, hsource⟩

end AccessPattern
