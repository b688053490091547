import AccessPattern.Proofs.Checked.Steps
import AccessPattern.Proofs.Coverage.FirstFault

/-!
# The coverage check in checked steps

The blocks that were seen are marked in a list with one mark for each block of the extent, and every
mark is looked up and set in checked steps. As long as the marks are those of the set that the scan
keeps, both do the same at each offset, so no step fails when blocks have a size, and the check
gives its report.
-/

namespace AccessPattern.Checked

open Coverage (blockOf firstAbsent firstAbsent_eq_some firstAbsent_eq_none_iff scan_cons)

/-- Look at the offsets from a position on, with a mark for each block seen before. At the end the
lowest block without a mark is missing. -/
def scan (blockSize expected : UInt64) (position : Nat) (marks : List Bool) :
    List UInt64 → Except StepFault (Option CoverageFault)
  | [] =>
    match marks.findIdx? (! ·) with
    | some block => do pure (some (.missing (← product (UInt64.ofNat block) blockSize)))
    | none => pure none
  | offset :: later => do
    if (← remainder offset blockSize) ≠ 0 then
      return some (.misaligned position offset)
    let block ← quotient offset blockSize
    if expected ≤ block then
      return some (.outOfRange position offset)
    if ← item marks block.toNat then
      return some (.duplicate position offset)
    scan blockSize expected (position + 1) (← change marks block.toNat fun _ => true) later

/-- The coverage check, beginning without marks. -/
def checkCoverage (offsets : List UInt64) (extent blockSize : UInt64) :
    Except StepFault (Option CoverageFault) := do
  let expected ← quotient extent blockSize
  scan blockSize expected 0 (List.replicate expected.toNat false) offsets

/-- A mark for each of the first blocks that a set has. -/
def marksOf (count : Nat) (seen : Std.HashSet Nat) : List Bool :=
  (List.range count).map seen.contains

variable {count block : Nat} {seen : Std.HashSet Nat}

/-- The marks of an empty set are not set. -/
@[simp] theorem marksOf_empty : marksOf count ∅ = List.replicate count false := by
  simp [marksOf, List.eq_replicate_iff]

/-- There is a mark for each block. -/
@[simp] theorem length_marksOf : (marksOf count seen).length = count := by
  simp [marksOf]

/-- The mark of a block says whether the set has it. -/
theorem getElem?_marksOf (h : block < count) :
    (marksOf count seen)[block]? = some (seen.contains block) := by
  simp [marksOf, List.getElem?_range h]

/-- A further block in the set changes the mark of this block and no other. -/
theorem marksOf_insert :
    marksOf count (seen.insert block) = (marksOf count seen).modify block fun _ => true := by
  refine List.ext_getElem? fun other => ?_
  rw [List.getElem?_modify]
  by_cases hother : other < count
  · rw [getElem?_marksOf hother, getElem?_marksOf hother, Std.HashSet.contains_insert]
    by_cases heq : block = other <;> simp [heq]
  · simp [marksOf, hother]

/-- The first mark that is not set is that of the lowest block that the set does not have. -/
theorem findIdx?_marksOf : (marksOf count seen).findIdx? (! ·) = firstAbsent seen count 0 := by
  cases hfirst : (marksOf count seen).findIdx? (! ·) with
  | none =>
    rw [List.findIdx?_eq_none_iff] at hfirst
    refine (firstAbsent_eq_none_iff.mpr fun block _ hblock => ?_).symm
    have hmark := hfirst _ (List.mem_of_getElem? (getElem?_marksOf hblock))
    rwa [Bool.not_eq_false', ← Std.HashSet.mem_iff_contains] at hmark
  | some block =>
    obtain ⟨hlength, habsent, hlower⟩ := List.findIdx?_eq_some_iff_getElem.mp hfirst
    have hblock : block < count := by simpa using hlength
    refine (firstAbsent_eq_some (Nat.zero_le _) hblock ?_ fun lower _ hbelow => ?_).symm
    · simpa [marksOf] using habsent
    · simpa [marksOf] using hlower lower hbelow

variable {extent blockSize : UInt64}

/-- With the marks of the blocks seen before no step fails, and the scan gives what it gives for
the set of these blocks. -/
theorem scan_marksOf (hblock : blockSize ≠ 0) (position : Nat) (seen : Std.HashSet Nat)
    (offsets : List UInt64) :
    scan blockSize (extent / blockSize) position (marksOf (extent / blockSize).toNat seen) offsets =
      .ok (Coverage.scan blockSize (extent / blockSize).toNat position seen offsets) := by
  induction offsets generalizing position seen with
  | nil =>
    rw [scan, Coverage.scan, ← findIdx?_marksOf]
    cases hfirst : (marksOf (extent / blockSize).toNat seen).findIdx? (! ·) with
    | none => rfl
    | some block =>
      obtain ⟨hlength, -⟩ := List.findIdx?_eq_some_iff_getElem.mp hfirst
      rw [length_marksOf, UInt64.toNat_div] at hlength
      change (product (UInt64.ofNat block) blockSize >>= _) = _
      rw [product_eq hlength]
      rfl
  | cons offset later ih =>
    rw [scan, scan_cons, remainder_eq hblock, quotient_eq hblock]
    change (if offset % blockSize ≠ 0 then _ else
      if extent / blockSize ≤ offset / blockSize then _ else
        item (marksOf (extent / blockSize).toNat seen) (blockOf blockSize offset) >>= _) = _
    by_cases haligned : offset % blockSize ≠ 0
    · rw [if_pos haligned, if_pos haligned]
      rfl
    · rw [if_neg haligned, if_neg haligned]
      have hle : extent / blockSize ≤ offset / blockSize ↔
          (extent / blockSize).toNat ≤ blockOf blockSize offset := UInt64.le_iff_toNat_le
      by_cases hrange : (extent / blockSize).toNat ≤ blockOf blockSize offset
      · rw [if_pos (hle.mpr hrange), if_pos hrange]
        rfl
      · have hplace := Nat.lt_of_not_le hrange
        rw [if_neg fun h => hrange (hle.mp h), if_neg hrange, item_eq (getElem?_marksOf hplace)]
        change (if seen.contains (blockOf blockSize offset) then _ else
          change _ (blockOf blockSize offset) _ >>= _) = _
        by_cases hseen : seen.contains (blockOf blockSize offset)
        · rw [if_pos hseen, if_pos hseen]
          rfl
        · rw [if_neg hseen, if_neg hseen, change_eq (length_marksOf ▸ hplace), ← marksOf_insert]
          exact ih _ _

/-- The check succeeds on all offsets when blocks have a size, and gives its report. -/
theorem checkCoverage_eq (hblock : blockSize ≠ 0) (offsets : List UInt64) :
    checkCoverage offsets extent blockSize =
      .ok (AccessPattern.checkCoverage offsets extent blockSize) := by
  rw [checkCoverage, quotient_eq hblock, AccessPattern.checkCoverage,
    ← scan_marksOf hblock, marksOf_empty]
  rfl

end AccessPattern.Checked
