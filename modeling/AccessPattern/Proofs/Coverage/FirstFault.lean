import AccessPattern.Proofs.Coverage
import AccessPattern.Proofs.Plan.Requests
import Mathlib.Data.Nat.Find

/-!
# The first fault is reported

A scan passes over offsets of different whole blocks and remembers them, so what it finds at the
next offset depends on that offset and on the ones before it only. A sequence either consists of
such offsets or has a first one that is not, and this one is at fault in one way only. So each
report of the check says one thing about the sequence, no two reports say what can be true at once,
and one of them is always true.
-/

namespace AccessPattern.Coverage

/-- Offsets of whole blocks of an extent, no two of them the same. -/
structure DistinctBlocks (extent blockSize : UInt64) (offsets : List UInt64) : Prop where
  aligned : ∀ offset ∈ offsets, blockSize.toNat ∣ offset.toNat
  inRange : ∀ offset ∈ offsets,
    offset.toNat / blockSize.toNat < extent.toNat / blockSize.toNat
  nodup : offsets.Nodup

/-- What a report says of the offsets that were checked. -/
def Reports (extent blockSize : UInt64) (offsets : List UInt64) : Option CoverageFault → Prop
  | some (.misaligned position offset) =>
    offsets[position]? = some offset ∧
    DistinctBlocks extent blockSize (offsets.take position) ∧
    ¬blockSize.toNat ∣ offset.toNat
  | some (.outOfRange position offset) =>
    offsets[position]? = some offset ∧
    DistinctBlocks extent blockSize (offsets.take position) ∧
    blockSize.toNat ∣ offset.toNat ∧
    extent.toNat / blockSize.toNat ≤ offset.toNat / blockSize.toNat
  | some (.duplicate position offset) =>
    offsets[position]? = some offset ∧
    DistinctBlocks extent blockSize (offsets.take position) ∧
    blockSize.toNat ∣ offset.toNat ∧
    offset.toNat / blockSize.toNat < extent.toNat / blockSize.toNat ∧
    offset ∈ offsets.take position
  | some (.missing offset) =>
    DistinctBlocks extent blockSize offsets ∧
    ∃ block < extent.toNat / blockSize.toNat,
      offset.toNat = block * blockSize.toNat ∧ offset ∉ offsets ∧
      ∀ lower < block, lower * blockSize.toNat ∈ offsets.map UInt64.toNat
  | none =>
    DistinctBlocks extent blockSize offsets ∧
    ∀ block < extent.toNat / blockSize.toNat,
      block * blockSize.toNat ∈ offsets.map UInt64.toNat

variable {extent blockSize : UInt64} {offsets before later : List UInt64} {offset : UInt64}
  {count position : Nat} {seen : Std.HashSet Nat}

/-- A scan looks at the first offset: whether it is aligned, in range and new. -/
theorem scan_cons :
    scan blockSize count position seen (offset :: later) =
      if offset % blockSize ≠ 0 then some (.misaligned position offset)
      else if count ≤ blockOf blockSize offset then some (.outOfRange position offset)
      else if seen.contains (blockOf blockSize offset) then some (.duplicate position offset)
      else scan blockSize count (position + 1) (seen.insert (blockOf blockSize offset)) later :=
  rfl

/-- The search finds a block that is absent when the blocks below it are not. -/
theorem firstAbsent_eq_some {start block : Nat} (hstart : start ≤ block) (hblock : block < count)
    (habsent : block ∉ seen) (hlower : ∀ lower, start ≤ lower → lower < block → lower ∈ seen) :
    firstAbsent seen count start = some block := by
  fun_induction firstAbsent seen count start with
  | case1 start hlt hseen ih =>
    have hne : start ≠ block := fun heq =>
      habsent (heq ▸ Std.HashSet.mem_iff_contains.mpr hseen)
    exact ih (by omega) fun lower hle => hlower lower (Nat.le_of_succ_le hle)
  | case2 start hlt hunseen =>
    rcases Nat.eq_or_lt_of_le hstart with rfl | hbelow
    · rfl
    · exact absurd (Std.HashSet.mem_iff_contains.mp (hlower start (Nat.le_refl _) hbelow)) hunseen
  | case3 start hend => omega

/-- A scan passes over different blocks that were not seen and has seen them afterwards. -/
theorem scan_append (hblocks : ∀ offset ∈ before, IsBlock blockSize count offset)
    (hunseen : ∀ offset ∈ before, blockOf blockSize offset ∉ seen)
    (hnodup : (before.map (blockOf blockSize)).Nodup) :
    ∃ now : Std.HashSet Nat,
      (∀ block, block ∈ now ↔ block ∈ seen ∨ block ∈ before.map (blockOf blockSize)) ∧
      ∀ later, scan blockSize count position seen (before ++ later) =
        scan blockSize count (position + before.length) now later := by
  induction before generalizing position seen with
  | nil => exact ⟨seen, fun block => by simp, fun later => rfl⟩
  | cons first before ih =>
    obtain ⟨⟨haligned, hrange⟩, hblocks⟩ := List.forall_mem_cons.mp hblocks
    obtain ⟨hnew, hunseen⟩ := List.forall_mem_cons.mp hunseen
    obtain ⟨hfirst, hnodup⟩ := List.nodup_cons.mp hnodup
    have hstill : ∀ other ∈ before,
        blockOf blockSize other ∉ seen.insert (blockOf blockSize first) := by
      intro other hother hmem
      rcases Std.HashSet.mem_insert.mp hmem with heq | hmem
      · exact hfirst (List.mem_map.mpr ⟨other, hother, (beq_iff_eq.mp heq).symm⟩)
      · exact hunseen other hother hmem
    obtain ⟨now, hnow, hscan⟩ := ih hblocks hstill hnodup
    refine ⟨now, fun block => ?_, fun later => ?_⟩
    · rw [hnow, Std.HashSet.mem_insert, List.map_cons, List.mem_cons, beq_iff_eq, eq_comm]
      tauto
    · rw [List.cons_append, scan_cons, if_neg (not_not_intro haligned),
        if_neg (Nat.not_le_of_lt hrange),
        if_neg (fun h => hnew (Std.HashSet.mem_iff_contains.mpr h)), hscan, List.length_cons]
      congr 1
      omega

/-- A block is that of an offset when it lies in the whole blocks of the extent and is aligned. -/
theorem isBlock_iff : IsBlock blockSize (extent / blockSize).toNat offset ↔
    blockSize.toNat ∣ offset.toNat ∧
      offset.toNat / blockSize.toNat < extent.toNat / blockSize.toNat := by
  rw [IsBlock, blockOf, mod_eq_zero_iff_dvd, UInt64.toNat_div, UInt64.toNat_div]

/-- An aligned offset is the start of its block. -/
theorem blockOf_mul (h : blockSize.toNat ∣ offset.toNat) :
    blockOf blockSize offset * blockSize.toNat = offset.toNat :=
  toNat_div_mul (mod_eq_zero_iff_dvd.mpr h)

/-- A block is among those of aligned offsets when its start is one of the offsets. -/
theorem mem_map_blockOf_iff (hblockSize : blockSize ≠ 0)
    (haligned : ∀ offset ∈ offsets, blockSize.toNat ∣ offset.toNat) {block : Nat} :
    block ∈ offsets.map (blockOf blockSize) ↔
      block * blockSize.toNat ∈ offsets.map UInt64.toNat := by
  simp only [List.mem_map]
  refine exists_congr fun offset => and_congr_right fun hoffset => ?_
  rw [← blockOf_mul (haligned offset hoffset),
    Nat.mul_left_inj (Nat.ne_of_gt (toNat_pos hblockSize))]

/-- Different offsets of whole blocks belong to different blocks. -/
theorem DistinctBlocks.nodup_map_blockOf (h : DistinctBlocks extent blockSize offsets) :
    (offsets.map (blockOf blockSize)).Nodup := by
  refine List.Nodup.map_on (fun first hfirst second hsecond heq => ?_) h.nodup
  rw [← UInt64.toNat_inj, ← blockOf_mul (h.aligned first hfirst), heq,
    blockOf_mul (h.aligned second hsecond)]

/-- The check passes over different blocks and goes on with what comes after them. -/
theorem DistinctBlocks.checkCoverage_append (h : DistinctBlocks extent blockSize before) :
    ∃ now : Std.HashSet Nat,
      (∀ block, block ∈ now ↔ block ∈ before.map (blockOf blockSize)) ∧
      ∀ later, checkCoverage (before ++ later) extent blockSize =
        scan blockSize (extent / blockSize).toNat before.length now later := by
  have hblocks : ∀ offset ∈ before, IsBlock blockSize (extent / blockSize).toNat offset :=
    fun offset hoffset => isBlock_iff.mpr ⟨h.aligned offset hoffset, h.inRange offset hoffset⟩
  have hunseen : ∀ offset ∈ before, blockOf blockSize offset ∉ (∅ : Std.HashSet Nat) :=
    fun _ _ => Std.HashSet.not_mem_empty
  obtain ⟨now, hnow, hscan⟩ := scan_append hblocks hunseen h.nodup_map_blockOf
  refine ⟨now, fun block => by simp [hnow], fun later => ?_⟩
  rw [checkCoverage, hscan, Nat.zero_add]

/-- After different blocks the check is a scan from the next offset on. -/
theorem checkCoverage_eq_scan (hoffset : offsets[position]? = some offset)
    (hbefore : DistinctBlocks extent blockSize (offsets.take position)) :
    ∃ now : Std.HashSet Nat,
      (∀ block, block ∈ now ↔ block ∈ (offsets.take position).map (blockOf blockSize)) ∧
      checkCoverage offsets extent blockSize =
        scan blockSize (extent / blockSize).toNat position now
          (offset :: offsets.drop (position + 1)) := by
  obtain ⟨hplace, rfl⟩ := List.getElem?_eq_some_iff.mp hoffset
  obtain ⟨now, hnow, hscan⟩ := hbefore.checkCoverage_append
  have hfrom := hscan (offsets.drop position)
  rw [List.take_append_drop, List.length_take, Nat.min_eq_left (Nat.le_of_lt hplace),
    ← List.getElem_cons_drop hplace] at hfrom
  exact ⟨now, hnow, hfrom⟩

/-- The check gives every report that is true of the offsets. -/
theorem checkCoverage_of_reports (hblockSize : blockSize ≠ 0) {report : Option CoverageFault}
    (h : Reports extent blockSize offsets report) :
    checkCoverage offsets extent blockSize = report := by
  have haligned {offset : UInt64} (h : blockSize.toNat ∣ offset.toNat) :
      ¬offset % blockSize ≠ 0 := not_not_intro (mod_eq_zero_iff_dvd.mpr h)
  have hrange {offset : UInt64} : (extent / blockSize).toNat ≤ blockOf blockSize offset ↔
      extent.toNat / blockSize.toNat ≤ offset.toNat / blockSize.toNat := by
    rw [blockOf, UInt64.toNat_div, UInt64.toNat_div]
  match report, h with
  | some (.misaligned position offset), ⟨hoffset, hbefore, hmisaligned⟩ =>
    obtain ⟨now, -, hscan⟩ := checkCoverage_eq_scan hoffset hbefore
    rw [hscan, scan_cons, if_pos fun hzero => hmisaligned (mod_eq_zero_iff_dvd.mp hzero)]
  | some (.outOfRange position offset), ⟨hoffset, hbefore, hdvd, hbeyond⟩ =>
    obtain ⟨now, -, hscan⟩ := checkCoverage_eq_scan hoffset hbefore
    rw [hscan, scan_cons, if_neg (haligned hdvd), if_pos (hrange.mpr hbeyond)]
  | some (.duplicate position offset), ⟨hoffset, hbefore, hdvd, hinside, hmem⟩ =>
    obtain ⟨now, hnow, hscan⟩ := checkCoverage_eq_scan hoffset hbefore
    have hseen : now.contains (blockOf blockSize offset) :=
      Std.HashSet.mem_iff_contains.mp ((hnow _).mpr (List.mem_map_of_mem hmem))
    rw [hscan, scan_cons, if_neg (haligned hdvd),
      if_neg fun hle => Nat.not_le_of_lt hinside (hrange.mp hle), if_pos hseen]
  | some (.missing offset), ⟨hblocks, block, hblock, heq, habsent, hlower⟩ =>
    obtain ⟨now, hnow, hscan⟩ := hblocks.checkCoverage_append
    have hmem (other : Nat) : other ∈ now ↔
        other * blockSize.toNat ∈ offsets.map UInt64.toNat :=
      (hnow other).trans (mem_map_blockOf_iff hblockSize hblocks.aligned)
    have hfound : firstAbsent now (extent / blockSize).toNat 0 = some block := by
      refine firstAbsent_eq_some (Nat.zero_le _) (by rwa [UInt64.toNat_div]) (fun hin => ?_)
        fun lower _ hbelow => (hmem lower).mpr (hlower lower hbelow)
      obtain ⟨other, hother, hsame⟩ := List.mem_map.mp ((hmem block).mp hin)
      exact habsent (UInt64.toNat_inj.mp (hsame.trans heq.symm) ▸ hother)
    have hoffset : UInt64.ofNat block * blockSize = offset :=
      UInt64.toNat_inj.mp ((toNat_ofNat_mul_blockSize hblock).trans heq.symm)
    have hend := hscan []
    rw [List.append_nil, scan, hfound, Option.map_some, hoffset] at hend
    exact hend
  | none, ⟨hblocks, hall⟩ =>
    refine checkCoverage_eq_none_iff.mpr ⟨fun offset hoffset => ?_, hblocks.nodup_map_blockOf,
      fun block hblock => ?_⟩
    · exact isBlock_iff.mpr ⟨hblocks.aligned offset hoffset, hblocks.inRange offset hoffset⟩
    · rw [UInt64.toNat_div] at hblock
      exact (mem_map_blockOf_iff hblockSize hblocks.aligned).mpr (hall block hblock)

/-- Where a block is missing there is a lowest one, which is reported. -/
theorem DistinctBlocks.exists_reports (h : DistinctBlocks extent blockSize offsets)
    (habsent : ∃ block < extent.toNat / blockSize.toNat,
      block * blockSize.toNat ∉ offsets.map UInt64.toNat) :
    ∃ offset, Reports extent blockSize offsets (some (.missing offset)) := by
  obtain ⟨hblock, hlowest⟩ := Nat.find_spec habsent
  have heq := toNat_ofNat_mul_blockSize hblock
  refine ⟨UInt64.ofNat (Nat.find habsent) * blockSize, h, Nat.find habsent, hblock, heq, ?_, ?_⟩
  · intro hmem
    exact hlowest (List.mem_map.mpr ⟨_, hmem, heq⟩)
  · intro lower hbelow
    by_contra hmissing
    exact Nat.find_min habsent hbelow ⟨Nat.lt_trans hbelow hblock, hmissing⟩

/-- A new block can be added to different blocks. -/
theorem DistinctBlocks.concat (h : DistinctBlocks extent blockSize before)
    (haligned : blockSize.toNat ∣ offset.toNat)
    (hrange : offset.toNat / blockSize.toNat < extent.toNat / blockSize.toNat)
    (hnew : offset ∉ before) : DistinctBlocks extent blockSize (before ++ [offset]) where
  aligned := by
    rw [List.forall_mem_append, List.forall_mem_singleton]
    exact ⟨h.aligned, haligned⟩
  inRange := by
    rw [List.forall_mem_append, List.forall_mem_singleton]
    exact ⟨h.inRange, hrange⟩
  nodup := by
    rw [← List.concat_eq_append]
    exact h.nodup.concat hnew

/-- A sequence is of different blocks unless an offset in it is reported. -/
theorem distinctBlocks_or_exists_reports :
    DistinctBlocks extent blockSize offsets ∨
      ∃ report, Reports extent blockSize offsets report := by
  have hprefix (length : Nat) : DistinctBlocks extent blockSize (offsets.take length) ∨
      ∃ report, Reports extent blockSize offsets report := by
    induction length with
    | zero => exact .inl ⟨by simp, by simp, by simp⟩
    | succ length ih =>
      refine ih.elim (fun hbefore => ?_) .inr
      cases hoffset : offsets[length]? with
      | none =>
        rw [List.take_add_one, hoffset, Option.toList_none, List.append_nil]
        exact .inl hbefore
      | some offset =>
        by_cases haligned : blockSize.toNat ∣ offset.toNat
        · by_cases hrange : offset.toNat / blockSize.toNat < extent.toNat / blockSize.toNat
          · by_cases hmem : offset ∈ offsets.take length
            · exact .inr ⟨some (.duplicate length offset), hoffset, hbefore, haligned, hrange, hmem⟩
            · rw [List.take_add_one, hoffset, Option.toList_some]
              exact .inl (hbefore.concat haligned hrange hmem)
          · exact .inr ⟨some (.outOfRange length offset), hoffset, hbefore, haligned,
              Nat.le_of_not_lt hrange⟩
        · exact .inr ⟨some (.misaligned length offset), hoffset, hbefore, haligned⟩
  simpa using hprefix offsets.length

/-- Some report is true of the offsets. -/
theorem exists_reports : ∃ report, Reports extent blockSize offsets report := by
  refine distinctBlocks_or_exists_reports.elim (fun hblocks => ?_) id
  by_cases habsent : ∃ block < extent.toNat / blockSize.toNat,
      block * blockSize.toNat ∉ offsets.map UInt64.toNat
  · obtain ⟨offset, hmissing⟩ := hblocks.exists_reports habsent
    exact ⟨_, hmissing⟩
  · refine ⟨none, hblocks, fun block hblock => ?_⟩
    by_contra hmissing
    exact habsent ⟨block, hblock, hmissing⟩

/-- The check gives a report when it is true of the offsets, and only then. -/
theorem checkCoverage_eq_iff (hblockSize : blockSize ≠ 0) {report : Option CoverageFault} :
    checkCoverage offsets extent blockSize = report ↔ Reports extent blockSize offsets report := by
  refine ⟨fun h => ?_, checkCoverage_of_reports hblockSize⟩
  obtain ⟨other, hother⟩ : ∃ other, Reports extent blockSize offsets other := exists_reports
  rwa [← h, checkCoverage_of_reports hblockSize hother]

/-- Of different blocks one is missing when there are fewer than all. -/
theorem DistinctBlocks.exists_absent_iff (hblockSize : blockSize ≠ 0)
    (h : DistinctBlocks extent blockSize offsets) :
    (∃ block < extent.toNat / blockSize.toNat,
      block * blockSize.toNat ∉ offsets.map UInt64.toNat) ↔
      offsets.length < extent.toNat / blockSize.toNat := by
  have hnodup := h.nodup_map_blockOf
  have hinside : offsets.map (blockOf blockSize) ⊆
      List.range (extent.toNat / blockSize.toNat) := by
    intro block hblock
    obtain ⟨offset, hoffset, rfl⟩ := List.mem_map.mp hblock
    rw [List.mem_range, blockOf, UInt64.toNat_div]
    exact h.inRange offset hoffset
  simp only [← mem_map_blockOf_iff hblockSize h.aligned]
  constructor
  · rintro ⟨block, hblock, habsent⟩
    have hsubset := List.cons_subset.mpr ⟨List.mem_range.mpr hblock, hinside⟩
    have hlength := ((List.nodup_cons.mpr ⟨habsent, hnodup⟩).subperm hsubset).length_le
    rwa [List.length_cons, List.length_map, List.length_range] at hlength
  · intro hshort
    by_contra hall
    have hsubset : List.range (extent.toNat / blockSize.toNat) ⊆
        offsets.map (blockOf blockSize) := by
      intro block hblock
      by_contra habsent
      exact hall ⟨block, List.mem_range.mp hblock, habsent⟩
    have hlength := (List.nodup_range.subperm hsubset).length_le
    rw [List.length_range, List.length_map] at hlength
    omega

/-- The report of the check is the one that is true of the offsets: there always is one, and only
one. A fault at a position is that of the first offset at fault, the offsets before it being those
of different whole blocks, and the offset is not aligned, or else beyond the whole blocks, or else
that of a block before it. A block is reported missing when all offsets are those of different whole
blocks and some block is absent, which is when there are fewer offsets than blocks. -/
theorem first_fault_is_reported (offsets : List UInt64) (extent : UInt64) {blockSize : UInt64}
    (hblockSize : blockSize ≠ 0) :
    ∃ found, checkCoverage? offsets extent blockSize = .ok found ∧
      (∀ report, found = report ↔ Reports extent blockSize offsets report) ∧
      ((∃ offset, found = some (.missing offset)) ↔
        DistinctBlocks extent blockSize offsets ∧
          ∃ block < extent.toNat / blockSize.toNat,
            block * blockSize.toNat ∉ offsets.map UInt64.toNat) ∧
      ((∃ offset, found = some (.missing offset)) ↔
        DistinctBlocks extent blockSize offsets ∧
          offsets.length < extent.toNat / blockSize.toNat) := by
  have hreports (report : Option CoverageFault) :
      checkCoverage offsets extent blockSize = report ↔ Reports extent blockSize offsets report :=
    checkCoverage_eq_iff hblockSize
  have hmissing : (∃ offset, checkCoverage offsets extent blockSize = some (.missing offset)) ↔
      DistinctBlocks extent blockSize offsets ∧ ∃ block < extent.toNat / blockSize.toNat,
        block * blockSize.toNat ∉ offsets.map UInt64.toNat := by
    simp only [hreports]
    constructor
    · rintro ⟨offset, hblocks, block, hblock, heq, habsent, -⟩
      refine ⟨hblocks, block, hblock, fun hmem => habsent ?_⟩
      obtain ⟨other, hother, hsame⟩ := List.mem_map.mp hmem
      exact UInt64.toNat_inj.mp (hsame.trans heq.symm) ▸ hother
    · rintro ⟨hblocks, habsent⟩
      exact hblocks.exists_reports habsent
  refine ⟨checkCoverage offsets extent blockSize, if_neg hblockSize, hreports, hmissing, ?_⟩
  rw [hmissing]
  exact and_congr_right fun hblocks => hblocks.exists_absent_iff hblockSize

/-- The offset at position 2 repeats the one before it; the unaligned one that follows is not
reported, and neither is the missing first block. -/
theorem first_fault_is_reported_duplicate :
    (4 : UInt64) ≠ 0 ∧ Reports 16 4 [8, 4, 4, 1] (some (.duplicate 2 4)) ∧
      checkCoverage? [8, 4, 4, 1] 16 4 = .ok (some (.duplicate 2 4)) := by
  have hblockSize : (4 : UInt64) ≠ 0 := by decide
  have hbefore : DistinctBlocks 16 4 [8, 4] :=
    ⟨by simp, by simp, by decide⟩
  have hreports : Reports 16 4 [8, 4, 4, 1] (some (.duplicate 2 4)) :=
    ⟨rfl, hbefore, by decide, by decide, by decide⟩
  obtain ⟨found, hfound, hreport, -⟩ := first_fault_is_reported [8, 4, 4, 1] 16 hblockSize
  exact ⟨hblockSize, hreports, (hreport _).mpr hreports ▸ hfound⟩

end AccessPattern.Coverage
