import AccessPattern.Manifest
import AccessPattern.Proofs.Except
import AccessPattern.Proofs.Order.Permutation

/-!
# Replaying a manifest

The manifest of generated offsets records enough to generate them again: the plan passes its check
again, and the seed is left out only where the order does not depend on it. Its counts do not
overflow, because no plan has more blocks than 64 bits can count.
-/

namespace AccessPattern

namespace BlockPlan

variable {plan : BlockPlan}

/-- A strategy that draws nothing gives the same order whatever the source. -/
theorem generate_eq_of_not_isRandomized {σ τ : Type} [WordSource σ] [WordSource τ]
    (h : plan.strategy.isRandomized = false) (source : σ) (other : τ) :
    (plan.generate.run source).1 = (plan.generate.run other).1 := by
  unfold generate
  cases hstrategy : plan.strategy with
  | linear => rfl
  | roundRobinSequential => rfl
  | random | roundRobinRandom | roundRobinPerPages =>
    rw [hstrategy] at h
    exact absurd h (by decide)

/-- There are as many offsets as the plan has blocks. -/
@[simp] theorem length_offsetsOfSeed (plan : BlockPlan) (seed : UInt64) :
    (plan.offsetsOfSeed seed).length = plan.blockCount.toNat :=
  plan.length_generate (Xoshiro.ofSeed seed)

end BlockPlan

/-- Every channel of a usable geometry can be computed, so offsets have a histogram. -/
theorem Geometry.histogram?_eq {g : Geometry} (hp : g.pageSize ≠ 0) (hc : g.channels ≠ 0)
    (offsets : List UInt64) : g.histogram? offsets = .ok (g.histogram offsets) := by
  have hchannels : offsets.mapM g.channelOf? = .ok (offsets.map g.channelOf) := by
    rw [mapM_eq_ok_iff, List.forall₂_map_right_iff, List.forall₂_same]
    exact fun offset _ => channelOf?_eq hp hc offset
  rw [histogram?, hchannels]
  rfl

/-- No channel owns more offsets than there are. -/
theorem Geometry.le_length_of_mem_histogram {g : Geometry} {offsets : List UInt64} {count : Nat}
    (h : count ∈ g.histogram offsets) : count ≤ offsets.length := by
  rw [histogram_eq] at h
  obtain ⟨channel, -, rfl⟩ := List.mem_map.mp h
  exact List.countP_le_length

namespace Manifest

/-- A manifest tells everything about the offsets that a plan has at a path: the path, the plan, a
seed from which they are generated, their number and how many each channel owns. -/
structure Replays (m : Manifest) (plan : BlockPlan) (offsets : List UInt64) (testset : String) :
    Prop where
  testset_eq : m.testset = testset
  plan_eq : m.plan = .ok plan
  /-- Any seed will do where none is recorded. -/
  offsetsOfSeed_eq : ∀ seed, plan.offsetsOfSeed (m.seed.getD seed) = offsets
  replay_eq : m.replay = .ok offsets
  blockCount_eq : m.blockCount.toNat = offsets.length
  channelBlocks_eq : plan.geometry.histogram? offsets = .ok (m.channelBlocks.map UInt64.toNat)

variable {plan : BlockPlan} {seed : UInt64} {testset : String} {time : Timestamp}

/-- The plan that a manifest records is the plan that it describes. -/
@[simp] theorem plan_describe (plan : BlockPlan) (seed : Option UInt64) (offsets : List UInt64)
    (testset : String) (time : Timestamp) :
    (describe plan seed offsets testset time).plan = .ok plan :=
  BlockPlan.check_toPlanRequest plan

/-- A seed is missing only where the order does not depend on it. -/
theorem offsetsOfSeed_seed_describe (offsets : List UInt64) (other : UInt64) :
    plan.offsetsOfSeed ((describe plan (some seed) offsets testset time).seed.getD other) =
      plan.offsetsOfSeed seed := by
  cases hrandom : plan.strategy.isRandomized with
  | true =>
    have hseed : (describe plan (some seed) offsets testset time).seed = some seed := by
      rw [describe, if_pos hrandom]
    rw [hseed, Option.getD_some]
  | false => exact BlockPlan.generate_eq_of_not_isRandomized hrandom _ _

/-- The counts of a manifest are those of its offsets, whatever the seed. -/
theorem counts_describe {offsets : List UInt64} (seed : Option UInt64)
    (h : offsets.length < UInt64.size) :
    (describe plan seed offsets testset time).blockCount.toNat = offsets.length ∧
      (describe plan seed offsets testset time).channelBlocks.map UInt64.toNat =
        plan.geometry.histogram offsets := by
  have hcount {count : Nat} (hle : count ≤ offsets.length) : (UInt64.ofNat count).toNat = count :=
    UInt64.toNat_ofNat_of_lt' (Nat.lt_of_le_of_lt hle h)
  refine ⟨hcount Nat.le.refl, ?_⟩
  change ((plan.geometry.histogram offsets).map UInt64.ofNat).map UInt64.toNat = _
  have hsame : ∀ count ∈ plan.geometry.histogram offsets,
      (UInt64.toNat ∘ UInt64.ofNat) count = id count :=
    fun count hmem => hcount (Geometry.le_length_of_mem_histogram hmem)
  rw [List.map_map, List.map_congr_left hsame, List.map_id]

/-- The manifest of generated offsets suffices to generate them again. -/
theorem replays_describe (plan : BlockPlan) (seed : UInt64) (testset : String)
    (time : Timestamp) :
    (describe plan (some seed) (plan.offsetsOfSeed seed) testset time).Replays plan
      (plan.offsetsOfSeed seed) testset := by
  have hlength : (plan.offsetsOfSeed seed).length < UInt64.size := by
    simpa using plan.blockCount.toNat_lt
  obtain ⟨hblocks, hchannels⟩ := counts_describe (some seed) hlength
  refine ⟨rfl, plan_describe _ _ _ _ _, offsetsOfSeed_seed_describe _, ?_, hblocks, ?_⟩
  · rw [replay, plan_describe]
    exact congrArg Except.ok (offsetsOfSeed_seed_describe _ 0)
  · rw [hchannels]
    exact Geometry.histogram?_eq plan.pageSize_ne_zero plan.channels_ne_zero _

end Manifest

end AccessPattern
