import AccessPattern.Coverage
import AccessPattern.Proofs.Order.Permutation
import Mathlib.Data.List.Perm.Subperm

/-!
# What passes the coverage check

The check passes when every offset is that of a whole block of the extent, no two offsets are that
of the same block, and every block has one. The scan keeps the set of the blocks seen so far, so
the statement about it has that set as a third place where blocks can be.

As a statement about numbers: the check passes on the multiples of the block size that lie in whole
blocks of the extent, in any order, and on nothing else.
-/

namespace AccessPattern

namespace Coverage

variable {blockSize : UInt64} {count : Nat}

/-- The number of the block at an offset. -/
def blockOf (blockSize offset : UInt64) : Nat :=
  (offset / blockSize).toNat

/-- The offset is that of one of the first blocks. -/
def IsBlock (blockSize : UInt64) (count : Nat) (offset : UInt64) : Prop :=
  offset % blockSize = 0 ∧ blockOf blockSize offset < count

/-- No block is found absent when all from a block on are in the set. -/
theorem firstAbsent_eq_none_iff {seen : Std.HashSet Nat} {block : Nat} :
    firstAbsent seen count block = none ↔
      ∀ other, block ≤ other → other < count → other ∈ seen := by
  fun_induction firstAbsent seen count block with
  | case1 block hlt hseen ih =>
    rw [ih]
    constructor
    · intro h other hle
      rcases Nat.eq_or_lt_of_le hle with rfl | hnext
      · exact fun _ => Std.HashSet.mem_iff_contains.mpr hseen
      · exact h other hnext
    · intro h other hle
      exact h other (Nat.le_of_succ_le hle)
  | case2 block hlt hseen =>
    refine ⟨fun h => (nomatch h), fun h => ?_⟩
    exact absurd (Std.HashSet.mem_iff_contains.mp (h block (Nat.le_refl _) hlt)) hseen
  | case3 block hlt =>
    refine ⟨fun _ other hle hother => ?_, fun _ => rfl⟩
    omega

/-- The scan passes over an offset when it is that of a block that was not seen before. -/
theorem scan_cons_eq_none_iff {offset : UInt64} {later : List UInt64} {position : Nat}
    {seen : Std.HashSet Nat} :
    scan blockSize count position seen (offset :: later) = none ↔
      IsBlock blockSize count offset ∧ blockOf blockSize offset ∉ seen ∧
      scan blockSize count (position + 1) (seen.insert (blockOf blockSize offset)) later = none := by
  rw [scan]
  change (if _ then _ else if count ≤ blockOf blockSize offset then _ else
    if seen.contains (blockOf blockSize offset) then _ else
      scan blockSize count (position + 1) (seen.insert (blockOf blockSize offset)) later) =
        none ↔ _
  rw [IsBlock, Std.HashSet.mem_iff_contains]
  by_cases haligned : offset % blockSize = 0
  · by_cases hlt : blockOf blockSize offset < count
    · rw [if_neg (not_not_intro haligned), if_neg (Nat.not_le_of_lt hlt)]
      by_cases hseen : seen.contains (blockOf blockSize offset)
      · simp [hseen]
      · simp [haligned, hlt, hseen]
    · simp [haligned, hlt, Nat.le_of_not_lt hlt]
  · simp [haligned]

/-- The scan finds no fault when the offsets are those of different blocks, none of which was seen
before, and all other blocks were. -/
theorem scan_eq_none_iff {offsets : List UInt64} {position : Nat} {seen : Std.HashSet Nat} :
    scan blockSize count position seen offsets = none ↔
      (∀ offset ∈ offsets, IsBlock blockSize count offset) ∧
      (∀ offset ∈ offsets, blockOf blockSize offset ∉ seen) ∧
      (offsets.map (blockOf blockSize)).Nodup ∧
      ∀ block < count, block ∈ seen ∨ block ∈ offsets.map (blockOf blockSize) := by
  induction offsets generalizing position seen with
  | nil =>
    rw [scan, Option.map_eq_none_iff, firstAbsent_eq_none_iff]
    simp
  | cons offset offsets ih =>
    have hinsert (block : Nat) : block ∈ seen.insert (blockOf blockSize offset) ↔
        blockOf blockSize offset = block ∨ block ∈ seen := by
      rw [Std.HashSet.mem_insert, beq_iff_eq]
    rw [scan_cons_eq_none_iff, ih, List.map_cons, List.nodup_cons, List.forall_mem_cons,
      List.forall_mem_cons]
    simp only [hinsert, not_or, List.mem_cons, List.mem_map, not_exists, not_and]
    constructor
    · intro ⟨hblock, hunseen, hblocks, hothers, hnodup, hall⟩
      refine ⟨⟨hblock, hblocks⟩, ⟨hunseen, fun other hother => (hothers other hother).2⟩,
        ⟨fun other hother heq => (hothers other hother).1 heq.symm, hnodup⟩, ?_⟩
      intro block hlt
      have := hall block hlt
      tauto
    · intro ⟨⟨hblock, hblocks⟩, ⟨hunseen, hothers⟩, ⟨hnew, hnodup⟩, hall⟩
      refine ⟨hblock, hunseen, hblocks,
        fun other hother => ⟨fun heq => hnew other hother heq.symm, hothers other hother⟩,
        hnodup, ?_⟩
      intro block hlt
      have := hall block hlt
      tauto

end Coverage

open Coverage

/-- The check passes when the offsets are those of different blocks and every block has one. -/
theorem checkCoverage_eq_none_iff {offsets : List UInt64} {extent blockSize : UInt64} :
    checkCoverage offsets extent blockSize = none ↔
      (∀ offset ∈ offsets, IsBlock blockSize (extent / blockSize).toNat offset) ∧
      (offsets.map (blockOf blockSize)).Nodup ∧
      ∀ block < (extent / blockSize).toNat, block ∈ offsets.map (blockOf blockSize) := by
  rw [checkCoverage, scan_eq_none_iff]
  simp

/-- The check passes when the offsets are the multiples of the block size in some order: the numbers
of their blocks are different, below the count and leave out none, so they are all below it. -/
theorem checkCoverage_eq_none_iff_perm {offsets : List UInt64} {extent blockSize : UInt64}
    (hblockSize : blockSize ≠ 0) :
    checkCoverage offsets extent blockSize = none ↔
      (offsets.map UInt64.toNat).Perm
        ((List.range (extent.toNat / blockSize.toNat)).map (· * blockSize.toNat)) := by
  rw [checkCoverage_eq_none_iff, UInt64.toNat_div]
  constructor
  · intro ⟨hblocks, hnodup, hall⟩
    have hperm : (offsets.map (blockOf blockSize)).Perm
        (List.range (extent.toNat / blockSize.toNat)) := by
      refine (List.perm_ext_iff_of_nodup hnodup List.nodup_range).mpr fun block => ?_
      rw [List.mem_range]
      refine ⟨fun hblock => ?_, hall block⟩
      obtain ⟨offset, hoffset, rfl⟩ := List.mem_map.mp hblock
      exact (hblocks offset hoffset).2
    have hoffsets : (offsets.map (blockOf blockSize)).map (· * blockSize.toNat) =
        offsets.map UInt64.toNat := by
      rw [List.map_map]
      exact List.map_congr_left fun offset hoffset => toNat_div_mul (hblocks offset hoffset).1
    rw [← hoffsets]
    exact hperm.map _
  · intro hperm
    have hblocks : (offsets.map (blockOf blockSize)).Perm
        (List.range (extent.toNat / blockSize.toNat)) := by
      have hdivided := hperm.map (· / blockSize.toNat)
      rw [List.map_map, List.map_map] at hdivided
      have hquotients : (fun offset : Nat => offset / blockSize.toNat) ∘ UInt64.toNat =
          blockOf blockSize := funext fun _ => (UInt64.toNat_div _ _).symm
      have hnumbers : (fun offset : Nat => offset / blockSize.toNat) ∘ (· * blockSize.toNat) =
          id := funext fun block => Nat.mul_div_cancel block (toNat_pos hblockSize)
      rwa [hquotients, hnumbers, List.map_id] at hdivided
    refine ⟨fun offset hoffset => ⟨?_, ?_⟩, hblocks.nodup_iff.mpr List.nodup_range,
      fun block hblock => hblocks.mem_iff.mpr (List.mem_range.mpr hblock)⟩
    · obtain ⟨block, -, hblock⟩ :=
        List.mem_map.mp (hperm.mem_iff.mp (List.mem_map_of_mem hoffset))
      apply UInt64.toNat_inj.mp
      rw [UInt64.toNat_mod, ← hblock, Nat.mul_mod_left]
      rfl
    · exact List.mem_range.mp (hblocks.mem_iff.mp (List.mem_map_of_mem hoffset))

/-- The offsets of a plan cover its extent in any order. -/
theorem BlockPlan.checkCoverage_of_perm (plan : BlockPlan) {offsets : List UInt64}
    (h : offsets.Perm plan.linearOffsets) :
    checkCoverage offsets plan.extent plan.blockSize = none := by
  rw [checkCoverage_eq_none_iff_perm plan.blockSize_ne_zero, ← UInt64.toNat_div]
  exact plan.map_toNat_linearOffsets ▸ h.map _

/-- A list holds the items of a list without repetitions, in some order, when it is as long and
holds each of them once. -/
theorem perm_iff_count_eq_one {α : Type} [BEq α] [LawfulBEq α] {items expected : List α}
    (hnodup : expected.Nodup) :
    items.Perm expected ↔
      items.length = expected.length ∧ ∀ item ∈ expected, items.count item = 1 := by
  constructor
  · intro hperm
    refine ⟨hperm.length_eq, fun item hitem => ?_⟩
    rw [hperm.count_eq, List.count_eq_one_of_mem hnodup hitem]
  · intro ⟨hlength, hcount⟩
    have hsubset : expected ⊆ items := fun item hitem =>
      List.count_pos_iff.mp (hcount item hitem ▸ Nat.one_pos)
    exact ((hnodup.subperm hsubset).perm_of_length_le (Nat.le_of_eq hlength)).symm

/-- The coverage check is sound and complete. Where blocks have a size it always has an answer, and
it finds no fault exactly when the offsets are the multiples of the block size that lie in whole
blocks of the extent, in some order: when there are as many offsets as whole blocks and each of
these multiples is one of them once. -/
theorem coverage_passes_iff_each_block_once (offsets : List UInt64) (extent : UInt64)
    {blockSize : UInt64} (hblockSize : blockSize ≠ 0) :
    ∃ found, checkCoverage? offsets extent blockSize = .ok found ∧
      (found = none ↔
        (offsets.map UInt64.toNat).Perm
          ((List.range (extent.toNat / blockSize.toNat)).map (· * blockSize.toNat))) ∧
      (found = none ↔
        offsets.length = extent.toNat / blockSize.toNat ∧
          ∀ block < extent.toNat / blockSize.toNat,
            (offsets.map UInt64.toNat).count (block * blockSize.toNat) = 1) := by
  have hnodup : ((List.range (extent.toNat / blockSize.toNat)).map
      (· * blockSize.toNat)).Nodup :=
    List.nodup_range.map fun _ _ heq => Nat.eq_of_mul_eq_mul_right (toNat_pos hblockSize) heq
  have hpasses : checkCoverage offsets extent blockSize = none ↔ _ :=
    checkCoverage_eq_none_iff_perm hblockSize
  refine ⟨checkCoverage offsets extent blockSize, if_neg hblockSize, hpasses, ?_⟩
  rw [hpasses, perm_iff_count_eq_one hnodup]
  simp only [List.length_map, List.length_range, List.forall_mem_map, List.mem_range]

/-- Three whole blocks and a rest that is not asked for: their offsets pass in any order. -/
theorem coverage_passes_iff_each_block_once_rest :
    (4096 : UInt64) ≠ 0 ∧ checkCoverage? [8192, 0, 4096] 13000 4096 = .ok none := by
  have hblockSize : (4096 : UInt64) ≠ 0 := by decide
  obtain ⟨found, hfound, hpasses, -⟩ :=
    coverage_passes_iff_each_block_once [8192, 0, 4096] 13000 hblockSize
  have hperm : ([8192, 0, 4096].map UInt64.toNat).Perm
      ((List.range (UInt64.toNat 13000 / UInt64.toNat 4096)).map (· * UInt64.toNat 4096)) := by
    decide
  rw [hpasses.mpr hperm] at hfound
  exact ⟨hblockSize, hfound⟩

end AccessPattern
