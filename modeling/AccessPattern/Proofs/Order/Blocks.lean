import AccessPattern.Plan.Block
import Mathlib.Data.List.Perm.Basic
import Mathlib.Data.List.Nodup

/-!
# The blocks of a plan

A plan has as many blocks as its extent holds block sizes without remainder. Their offsets are
products of 64-bit numbers that never wrap around, so they are the multiples of the block size
below the extent, each once.
-/

namespace AccessPattern

/-- A number of 64 bits other than zero is positive as a natural number. -/
theorem toNat_pos {n : UInt64} (h : n ≠ 0) : 0 < n.toNat :=
  Nat.pos_of_ne_zero fun hzero => h (UInt64.toNat_inj.mp hzero)

/-- Where a division leaves no remainder, the quotient times the divisor is the dividend. -/
theorem toNat_div_mul {n divisor : UInt64} (h : n % divisor = 0) :
    (n / divisor).toNat * divisor.toNat = n.toNat := by
  have hmod : n.toNat % divisor.toNat = 0 := by
    simpa using congrArg UInt64.toNat h
  rw [UInt64.toNat_div]
  exact Nat.div_mul_cancel (Nat.dvd_of_mod_eq_zero hmod)

section Blocks

variable {extent blockSize : UInt64} {block : Nat} (h : block < extent.toNat / blockSize.toNat)
include h

/-- The start of a block of an extent does not need more than 64 bits. -/
theorem mul_blockSize_lt_size : block * blockSize.toNat < UInt64.size :=
  calc block * blockSize.toNat
    _ ≤ extent.toNat / blockSize.toNat * blockSize.toNat := Nat.mul_le_mul_right _ (Nat.le_of_lt h)
    _ ≤ extent.toNat := Nat.div_mul_le_self _ _
    _ < UInt64.size := extent.toNat_lt

/-- The number of a block of an extent does not need more than 64 bits. -/
theorem toNat_ofNat_block : (UInt64.ofNat block).toNat = block :=
  UInt64.toNat_ofNat_of_lt' <|
    Nat.lt_trans (Nat.lt_of_lt_of_le h (Nat.div_le_self _ _)) extent.toNat_lt

/-- The start of a block of an extent is computed without overflow. -/
theorem toNat_ofNat_mul_blockSize :
    (UInt64.ofNat block * blockSize).toNat = block * blockSize.toNat := by
  rw [UInt64.toNat_mul, toNat_ofNat_block h]
  exact Nat.mod_eq_of_lt (mul_blockSize_lt_size h)

end Blocks

namespace BlockPlan

variable (plan : BlockPlan)

/-- The blocks have a size as a natural number too. -/
@[simp] theorem blockSize_pos : 0 < plan.blockSize.toNat :=
  toNat_pos plan.blockSize_ne_zero

/-- The blocks make up the extent. -/
@[simp] theorem blockCount_mul_blockSize :
    plan.blockCount.toNat * plan.blockSize.toNat = plan.extent.toNat :=
  toNat_div_mul plan.extent_mod_blockSize

/-- The blocks of the extent start below its end. -/
theorem mul_blockSize_lt_extent {block : Nat} (h : block < plan.blockCount.toNat) :
    block * plan.blockSize.toNat < plan.extent.toNat := by
  rw [← blockCount_mul_blockSize]
  exact Nat.mul_lt_mul_of_pos_right h plan.blockSize_pos

/-- The offset of a block. -/
def blockOffset (block : Nat) : UInt64 :=
  UInt64.ofNat block * plan.blockSize

/-- The ascending offsets are those of the blocks in turn. -/
theorem linearOffsets_eq :
    plan.linearOffsets = (List.range plan.blockCount.toNat).map plan.blockOffset :=
  rfl

/-- The offset of a block is computed without overflow. -/
theorem toNat_blockOffset {block : Nat} (h : block < plan.blockCount.toNat) :
    (plan.blockOffset block).toNat = block * plan.blockSize.toNat := by
  rw [blockCount, UInt64.toNat_div] at h
  exact toNat_ofNat_mul_blockSize h

/-- Different blocks have different offsets. -/
@[simp] theorem nodup_linearOffsets : plan.linearOffsets.Nodup := by
  rw [linearOffsets_eq]
  refine List.Nodup.map_on ?_ List.nodup_range
  intro first hfirst second hsecond heq
  have hnat := congrArg UInt64.toNat heq
  rw [toNat_blockOffset _ (List.mem_range.mp hfirst),
    toNat_blockOffset _ (List.mem_range.mp hsecond)] at hnat
  exact Nat.eq_of_mul_eq_mul_right plan.blockSize_pos hnat

/-- There is one ascending offset for each block. -/
@[simp] theorem length_linearOffsets : plan.linearOffsets.length = plan.blockCount.toNat := by
  simp [linearOffsets_eq]

/-- The offsets of the blocks are the multiples of the block size below the extent. -/
@[simp] theorem mem_linearOffsets {offset : UInt64} :
    offset ∈ plan.linearOffsets ↔
      plan.blockSize.toNat ∣ offset.toNat ∧ offset.toNat < plan.extent.toNat := by
  rw [linearOffsets_eq, List.mem_map]
  constructor
  · rintro ⟨block, hblock, rfl⟩
    rw [List.mem_range] at hblock
    rw [toNat_blockOffset _ hblock]
    exact ⟨Nat.dvd_mul_left _ _, plan.mul_blockSize_lt_extent hblock⟩
  · rintro ⟨⟨block, hblock⟩, hlt⟩
    have hcount : block < plan.blockCount.toNat := by
      rw [hblock, ← blockCount_mul_blockSize, Nat.mul_comm] at hlt
      exact Nat.lt_of_mul_lt_mul_right hlt
    refine ⟨block, List.mem_range.mpr hcount, UInt64.toNat_inj.mp ?_⟩
    rw [toNat_blockOffset _ hcount, hblock, Nat.mul_comm]

/-- The channel of a block is the remainder of its page. -/
theorem toNat_channelOf_blockOffset {block : Nat} (h : block < plan.blockCount.toNat) :
    (plan.geometry.channelOf (plan.blockOffset block)).toNat =
      block * plan.blockSize.toNat / plan.geometry.pageSize.toNat %
        plan.geometry.channels.toNat := by
  rw [Geometry.channelOf, UInt64.toNat_mod, Geometry.pageOf, UInt64.toNat_div,
    plan.toNat_blockOffset h]

end BlockPlan

end AccessPattern
