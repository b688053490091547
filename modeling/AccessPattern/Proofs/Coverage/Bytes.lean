import AccessPattern.Proofs.Coverage

/-!
# Which bytes a passing sequence covers

The check counts in blocks: the extent is divided by the block size, and the remainder is dropped.
So a sequence that passes covers the whole blocks of the extent and no byte after them, and an
offset is out of range from the end of the whole blocks on.

Where the block size divides the extent, this is what one expects of a cover of the extent. Where it
does not, it never is: the last bytes are left out, and the block that would hold them is refused.
-/

namespace AccessPattern.Coverage

/-- A byte lies in the block at one of the offsets. -/
def Covers (offsets : List UInt64) (blockSize : UInt64) (byte : Nat) : Prop :=
  ∃ offset ∈ offsets, offset.toNat ≤ byte ∧ byte < offset.toNat + blockSize.toNat

/-- How many bytes the whole blocks of an extent hold. -/
def wholeBytes (extent blockSize : UInt64) : Nat :=
  extent.toNat / blockSize.toNat * blockSize.toNat

/-- What the check of an extent is expected to say: a sequence that passes covers all bytes of the
extent, and only an offset at or beyond its end is out of range. -/
def MeansExtent (extent blockSize : UInt64) : Prop :=
  ∀ offsets,
    (checkCoverage? offsets extent blockSize = .ok none →
      ∀ byte < extent.toNat, Covers offsets blockSize byte) ∧
    ∀ position offset,
      checkCoverage? offsets extent blockSize = .ok (some (.outOfRange position offset)) →
        extent.toNat ≤ offset.toNat

variable {offsets : List UInt64} {extent blockSize : UInt64} {byte : Nat}

/-- The bytes of the whole blocks lie in the extent. -/
theorem wholeBytes_le : wholeBytes extent blockSize ≤ extent.toNat :=
  Nat.div_mul_le_self _ _

/-- The whole blocks make up the extent when the block size divides it. -/
theorem wholeBytes_eq_iff :
    wholeBytes extent blockSize = extent.toNat ↔ blockSize.toNat ∣ extent.toNat :=
  ⟨fun h => ⟨_, by rw [Nat.mul_comm]; exact h.symm⟩, Nat.div_mul_cancel⟩

/-- A byte lies in one of the first blocks when it lies before their end. -/
theorem exists_block_iff {count size : Nat} (hsize : 0 < size) :
    (∃ block < count, block * size ≤ byte ∧ byte < block * size + size) ↔ byte < count * size := by
  constructor
  · rintro ⟨block, hblock, -, hlt⟩
    calc byte < (block + 1) * size := by rwa [Nat.succ_mul]
      _ ≤ count * size := Nat.mul_le_mul_right size hblock
  · intro hlt
    refine ⟨byte / size, Nat.div_lt_of_lt_mul (by rwa [Nat.mul_comm]), Nat.div_mul_le_self _ _, ?_⟩
    rw [← Nat.succ_mul, Nat.mul_comm]
    exact Nat.lt_mul_div_succ byte hsize

/-- The offsets of the whole blocks, in ascending order, pass. -/
theorem exists_passing (hblockSize : blockSize ≠ 0) :
    ∃ offsets, checkCoverage offsets extent blockSize = none := by
  refine ⟨(List.range (extent.toNat / blockSize.toNat)).map fun block =>
    UInt64.ofNat (block * blockSize.toNat), (checkCoverage_eq_none_iff_perm hblockSize).mpr ?_⟩
  rw [List.map_map]
  refine List.Perm.of_eq (List.map_congr_left fun block hblock => ?_)
  have hinside : block * blockSize.toNat ≤ extent.toNat :=
    (Nat.mul_le_mul_right _ (Nat.le_of_lt (List.mem_range.mp hblock))).trans wholeBytes_le
  have hfits : block * blockSize.toNat < UInt64.size :=
    Nat.lt_of_le_of_lt hinside extent.toNat_lt
  exact UInt64.toNat_ofNat_of_lt' hfits

/-- A sequence that passes covers the bytes of the whole blocks and no others. -/
theorem covers_iff_of_passes (hblockSize : blockSize ≠ 0)
    (h : checkCoverage offsets extent blockSize = none) :
    Covers offsets blockSize byte ↔ byte < wholeBytes extent blockSize := by
  have hperm := (checkCoverage_eq_none_iff_perm hblockSize).mp h
  have hmem (offset : Nat) : offset ∈ offsets.map UInt64.toNat ↔
      ∃ block < extent.toNat / blockSize.toNat, block * blockSize.toNat = offset := by
    rw [hperm.mem_iff, List.mem_map]
    simp only [List.mem_range]
  rw [wholeBytes, ← exists_block_iff (toNat_pos hblockSize)]
  constructor
  · rintro ⟨offset, hoffset, hbounds⟩
    obtain ⟨block, hblock, heq⟩ := (hmem offset.toNat).mp (List.mem_map_of_mem hoffset)
    exact ⟨block, hblock, heq ▸ hbounds⟩
  · rintro ⟨block, hblock, hbounds⟩
    obtain ⟨offset, hoffset, heq⟩ := List.mem_map.mp ((hmem _).mpr ⟨block, hblock, rfl⟩)
    exact ⟨offset, hoffset, heq ▸ hbounds⟩

/-- An offset that a scan finds out of range stands where it says, and no whole block is there. -/
theorem of_scan_eq_outOfRange {count start position : Nat} {seen : Std.HashSet Nat}
    {offset : UInt64}
    (h : scan blockSize count start seen offsets = some (.outOfRange position offset)) :
    start ≤ position ∧ offsets[position - start]? = some offset ∧
      count ≤ blockOf blockSize offset := by
  induction offsets generalizing start seen with
  | nil =>
    rw [scan, Option.map_eq_some_iff] at h
    obtain ⟨_, -, hfault⟩ := h
    contradiction
  | cons head later ih =>
    rw [scan] at h
    split at h
    · cases Option.some.inj h
    · dsimp only at h
      split at h
      · next hcount =>
        obtain ⟨rfl, rfl⟩ := CoverageFault.outOfRange.inj (Option.some.inj h)
        exact ⟨Nat.le_refl _, by rw [Nat.sub_self, List.getElem?_cons_zero], hcount⟩
      · split at h
        · cases Option.some.inj h
        · obtain ⟨hlater, hfound, hcount⟩ := ih h
          have hposition : position - start = (position - (start + 1)) + 1 := by omega
          exact ⟨Nat.le_of_succ_le hlater, by rw [hposition, List.getElem?_cons_succ, hfound], hcount⟩

/-- An offset is out of range only at or beyond the end of the whole blocks. -/
theorem of_checkCoverage_eq_outOfRange {position : Nat} {offset : UInt64}
    (h : checkCoverage offsets extent blockSize = some (.outOfRange position offset)) :
    offsets[position]? = some offset ∧ wholeBytes extent blockSize ≤ offset.toNat := by
  obtain ⟨-, hfound, hcount⟩ := of_scan_eq_outOfRange h
  rw [blockOf, UInt64.toNat_div, UInt64.toNat_div] at hcount
  exact ⟨hfound, (Nat.mul_le_mul_right _ hcount).trans (Nat.div_mul_le_self _ _)⟩

/-- Where blocks have a size the check has an answer. -/
theorem checkCoverage?_eq_ok_iff (hblockSize : blockSize ≠ 0) {found : Option CoverageFault} :
    checkCoverage? offsets extent blockSize = .ok found ↔
      checkCoverage offsets extent blockSize = found := by
  rw [checkCoverage?, if_neg hblockSize, Except.ok.injEq]

/-- The check speaks of the whole blocks of an extent. A sequence that passes covers their bytes and
no others, and an offset is out of range only at or beyond their end. So the check means what is
expected for exactly those extents that the block size divides. -/
theorem coverage_speaks_of_whole_blocks (extent : UInt64) {blockSize : UInt64}
    (hblockSize : blockSize ≠ 0) :
    (∀ offsets, checkCoverage? offsets extent blockSize = .ok none →
      ∀ byte, Covers offsets blockSize byte ↔ byte < wholeBytes extent blockSize) ∧
    (∀ offsets position offset,
      checkCoverage? offsets extent blockSize = .ok (some (.outOfRange position offset)) →
        offsets[position]? = some offset ∧ wholeBytes extent blockSize ≤ offset.toNat) ∧
    (MeansExtent extent blockSize ↔ blockSize.toNat ∣ extent.toNat) := by
  simp only [MeansExtent, checkCoverage?_eq_ok_iff hblockSize]
  refine ⟨fun offsets h byte => covers_iff_of_passes hblockSize h,
    fun offsets position offset => of_checkCoverage_eq_outOfRange, ?_⟩
  rw [← wholeBytes_eq_iff]
  constructor
  · intro hmeans
    obtain ⟨offsets, hpasses⟩ : ∃ offsets, checkCoverage offsets extent blockSize = none :=
      exists_passing hblockSize
    refine Nat.le_antisymm wholeBytes_le (Nat.le_of_not_lt fun hrest => ?_)
    have hcovered : Covers offsets blockSize (wholeBytes extent blockSize) :=
      (hmeans offsets).1 hpasses _ hrest
    exact Nat.lt_irrefl _ ((covers_iff_of_passes hblockSize hpasses).mp hcovered)
  · intro hwhole offsets
    constructor
    · intro hpasses byte hbyte
      exact (covers_iff_of_passes hblockSize hpasses).mpr (hwhole ▸ hbyte)
    · intro position offset hfault
      exact hwhole ▸ (of_checkCoverage_eq_outOfRange hfault).2

/-- An extent of two blocks and a byte has two whole blocks. -/
theorem coverage_speaks_of_whole_blocks_odd :
    (4096 : UInt64) ≠ 0 ∧ checkCoverage? [4096, 0] 8193 4096 = .ok none ∧
      Covers [4096, 0] 4096 8191 ∧ ¬Covers [4096, 0] 4096 8192 ∧ ¬MeansExtent 8193 4096 := by
  have hblockSize : (4096 : UInt64) ≠ 0 := by decide
  have hpasses : checkCoverage? [4096, 0] 8193 4096 = .ok none := by
    rw [checkCoverage?_eq_ok_iff hblockSize, checkCoverage_eq_none_iff_perm hblockSize]
    decide
  obtain ⟨hcovers, -, hmeans⟩ := coverage_speaks_of_whole_blocks 8193 hblockSize
  refine ⟨hblockSize, hpasses, ?_, ?_, ?_⟩
  · exact (hcovers _ hpasses 8191).mpr (by decide)
  · exact fun h => absurd ((hcovers _ hpasses 8192).mp h) (by decide)
  · exact fun h => absurd (hmeans.mp h) (by decide)

/-- A block of 4096 bytes passes as a cover of 6000 bytes, although byte 5000 is in no block; and
the block that holds this byte is found out of range, although it begins before the end. -/
theorem coverage_passes_with_bytes_uncovered :
    checkCoverage? [0] 6000 4096 = .ok none ∧ ¬Covers [0] 4096 5000 ∧
      checkCoverage? [0, 4096] 6000 4096 = .ok (some (.outOfRange 1 4096)) ∧
      ¬MeansExtent 6000 4096 := by
  have hpasses : checkCoverage? [0] 6000 4096 = .ok none := by
    rw [checkCoverage?_eq_ok_iff (by decide), checkCoverage_eq_none_iff_perm (by decide)]
    decide
  have huncovered : ¬Covers [0] 4096 5000 := by
    rintro ⟨offset, hoffset, -, hlt⟩
    rw [List.mem_singleton.mp hoffset] at hlt
    exact absurd hlt (by decide)
  have hrefused : checkCoverage? [0, 4096] 6000 4096 = .ok (some (.outOfRange 1 4096)) := by
    decide +kernel
  exact ⟨hpasses, huncovered, hrefused,
    fun hmeans => huncovered ((hmeans [0]).1 hpasses 5000 (by decide))⟩

end AccessPattern.Coverage
