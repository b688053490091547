import AccessPattern.Proofs.Coverage.Bytes
import AccessPattern.Proofs.Coverage.FirstFault
import AccessPattern.Proofs.Testset

/-!
# The lines that faults name

A fault of a testset names the place of an offset among the offsets that were read, as if it were a
line. Blank lines hold no offset, so the place falls behind the line by the number of blank lines
before it. In a text that was written by `render` there are none and the two agree.
-/

namespace AccessPattern

/-- The place and the offset of which a fault speaks, unless it speaks of a missing one. -/
def CoverageFault.place? : CoverageFault → Option (Nat × UInt64)
  | .misaligned position offset => some (position, offset)
  | .outOfRange position offset => some (position, offset)
  | .duplicate position offset => some (position, offset)
  | .missing _ => none

namespace Testset

/-- Whether a line is white space only. -/
def isBlankLine (line : Bytes) : Bool :=
  line.toText?.any fun text => (Text.trim text.toList).isEmpty

/-- The line under the number that a fault gives holds the offset of the fault, for every fault that
gives one. -/
def FaultsNameLines (bytes : Bytes) (extent blockSize : UInt64) : Prop :=
  ∀ source offsets fault position offset, read source bytes = .ok offsets →
    checkCoverage? offsets extent blockSize = .ok (some fault) →
    fault.place? = some (position, offset) →
      ∃ line, (lines bytes)[position]? = some line ∧ Holds line (some offset)

variable {source : String} {bytes line : Bytes} {rows : List Bytes} {offsets : List UInt64}
  {values : List (Option UInt64)} {extent blockSize offset : UInt64} {fault : CoverageFault}
  {position : Nat}

/-- A line does not hold two things. -/
theorem Holds.unique {value other : Option UInt64} (h : Holds line value) (h' : Holds line other) :
    value = other := by
  have hread : readLine "" 0 line = .ok value := readLine_of_holds h
  rw [readLine_of_holds h'] at hread
  exact (Except.ok.inj hread).symm

/-- A line of white space holds nothing. -/
theorem isBlankLine_iff : isBlankLine line = true ↔ Holds line none := by
  rw [isBlankLine, Option.any_eq_true]
  constructor
  · rintro ⟨text, htext, htrim⟩
    exact .nothing (Bytes.toText?_eq_some_iff.mp htext)
      (Text.trimsTo_iff.mpr (List.isEmpty_iff.mp htrim))
  · intro h
    cases h with
    | nothing hline htrim =>
      exact ⟨_, Bytes.toText?_eq_some_iff.mpr hline,
        List.isEmpty_iff.mpr (Text.trimsTo_iff.mp htrim)⟩

/-- An offset stands on the line that comes after as many lines with offsets as there are offsets
before it, and after any number of blank lines. From line to line a blank one leaves the place as
it is, and every other one takes one off it. -/
theorem exists_line_of_getElem? (hrows : List.Forall₂ Holds rows values)
    (hoffset : (values.filterMap id)[position]? = some offset) :
    ∃ before line after, rows = before ++ line :: after ∧ Holds line (some offset) ∧
      before.length = position + before.countP isBlankLine := by
  induction hrows generalizing position with
  | nil => exact nomatch hoffset
  | @cons row value rows values hrow hrows ih =>
    cases value with
    | none =>
      obtain ⟨before, line, after, rfl, hline, hlength⟩ := ih hoffset
      refine ⟨row :: before, line, after, rfl, hline, ?_⟩
      rw [List.length_cons, List.countP_cons_of_pos (isBlankLine_iff.mpr hrow), hlength]
      omega
    | some first =>
      cases position with
      | zero =>
        obtain rfl : first = offset := Option.some.inj hoffset
        exact ⟨[], row, rows, rfl, hrow, rfl⟩
      | succ position =>
        obtain ⟨before, line, after, rfl, hline, hlength⟩ := ih hoffset
        have hfilled : ¬isBlankLine row = true := fun hblank =>
          nomatch hrow.unique (isBlankLine_iff.mp hblank)
        refine ⟨row :: before, line, after, rfl, hline, ?_⟩
        rw [List.length_cons, List.countP_cons_of_neg hfilled, hlength]
        omega

/-- The wording of a fault gives its place as a line, counted from one. -/
theorem message_of_place? (h : fault.place? = some (position, offset)) :
    ∃ words ∈ [" is not block aligned", " is beyond the extent", " appears more than once"],
      fault.message = s!"offset {offset} at line {position + 1}" ++ words := by
  cases fault with
  | missing => contradiction
  | misaligned =>
    obtain ⟨rfl, rfl⟩ := Prod.mk.inj (Option.some.inj h)
    exact ⟨" is not block aligned", by simp, rfl⟩
  | outOfRange =>
    obtain ⟨rfl, rfl⟩ := Prod.mk.inj (Option.some.inj h)
    exact ⟨" is beyond the extent", by simp, rfl⟩
  | duplicate =>
    obtain ⟨rfl, rfl⟩ := Prod.mk.inj (Option.some.inj h)
    exact ⟨" appears more than once", by simp, rfl⟩

/-- At the place of a fault stands the offset of which it speaks. -/
theorem getElem?_of_place? (hfault : checkCoverage? offsets extent blockSize = .ok (some fault))
    (hplace : fault.place? = some (position, offset)) : offsets[position]? = some offset := by
  have hblockSize : blockSize ≠ 0 := by
    rintro rfl
    contradiction
  have hreport := (Coverage.checkCoverage_eq_iff hblockSize).mp
    ((Coverage.checkCoverage?_eq_ok_iff hblockSize).mp hfault)
  cases fault with
  | missing => contradiction
  | misaligned | outOfRange | duplicate =>
    obtain ⟨rfl, rfl⟩ := Prod.mk.inj (Option.some.inj hplace)
    exact hreport.1

/-- The offset of a fault stands on a line after as many lines with offsets as its place says. -/
theorem exists_line_of_place? (hread : read source bytes = .ok offsets)
    (hfault : checkCoverage? offsets extent blockSize = .ok (some fault))
    (hplace : fault.place? = some (position, offset)) :
    ∃ before line after, lines bytes = before ++ line :: after ∧ Holds line (some offset) ∧
      before.length = position + before.countP isBlankLine := by
  obtain ⟨values, hrows, rfl⟩ := read_eq_ok_iff.mp hread
  exact exists_line_of_getElem? hrows (getElem?_of_place? hfault hplace)

/-- Where no line is blank, faults name the lines of their offsets. -/
theorem faultsNameLines_of_forall (h : ∀ line ∈ lines bytes, ¬Holds line none) :
    FaultsNameLines bytes extent blockSize := by
  intro source offsets fault position offset hread hfault hplace
  obtain ⟨before, line, after, hlines, hline, hlength⟩ := exists_line_of_place? hread hfault hplace
  have hblank : before.countP isBlankLine = 0 := by
    rw [List.countP_eq_zero]
    intro earlier hearlier hblank
    apply h earlier _ (isBlankLine_iff.mp hblank)
    rw [hlines]
    exact List.mem_append_left _ hearlier
  refine ⟨line, ?_, hline⟩
  rw [hblank, Nat.add_zero] at hlength
  rw [hlines, ← hlength, List.getElem?_append_right (Nat.le_refl _), Nat.sub_self,
    List.getElem?_cons_zero]

/-- In a text that was rendered, faults name the lines of their offsets. -/
theorem faultsNameLines_render (offsets : List UInt64) :
    FaultsNameLines (Bytes.ofText (render offsets)) extent blockSize := by
  refine faultsNameLines_of_forall fun line hline hblank => ?_
  rw [lines_ofText_render] at hline
  obtain ⟨offset, -, rfl⟩ := List.mem_map.mp hline
  exact nomatch hblank.unique (holds_row offset)

/-- A fault gives the place of its offset among the offsets of the testset as a line. The offset
stands that many lines with offsets further down, and the blank lines before it are not counted. So
the line is the one that is named exactly if no blank line comes before it. -/
theorem fault_place_skips_blank_lines (hread : read source bytes = .ok offsets)
    (hfault : checkCoverage? offsets extent blockSize = .ok (some fault))
    (hplace : fault.place? = some (position, offset)) :
    (∃ words ∈ [" is not block aligned", " is beyond the extent", " appears more than once"],
      fault.message = s!"offset {offset} at line {position + 1}" ++ words) ∧
    ∃ before line after, lines bytes = before ++ line :: after ∧ Holds line (some offset) ∧
      before.length = position + before.countP isBlankLine ∧
      (before.length = position ↔ ∀ earlier ∈ before, ¬Holds earlier none) := by
  obtain ⟨before, line, after, hlines, hline, hlength⟩ := exists_line_of_place? hread hfault hplace
  refine ⟨message_of_place? hplace, before, line, after, hlines, hline, hlength, ?_⟩
  simp only [← isBlankLine_iff]
  rw [← List.countP_eq_zero, hlength]
  omega

/-- After a blank line an offset on the second line is the first of the offsets. -/
theorem fault_place_skips_blank_lines_second :
    read "testset" (Bytes.ofText "\n5000\n") = .ok [5000] ∧
      checkCoverage? [5000] 8192 4096 = .ok (some (.misaligned 0 5000)) ∧
      ∃ before line after, lines (Bytes.ofText "\n5000\n") = before ++ line :: after ∧
        Holds line (some 5000) ∧ before.length = 0 + before.countP isBlankLine := by
  have hread : read "testset" (Bytes.ofText "\n5000\n") = .ok [5000] := by decide
  have hfault : checkCoverage? [5000] 8192 4096 = .ok (some (.misaligned 0 5000)) := by decide
  obtain ⟨-, before, line, after, hlines, hline, hlength, -⟩ :=
    fault_place_skips_blank_lines hread hfault rfl
  exact ⟨hread, hfault, before, line, after, hlines, hline, hlength⟩

/-- A blank line is named for the offset that is not aligned on the line after it. -/
theorem fault_names_blank_line :
    ¬FaultsNameLines (Bytes.ofText "\n5000\n") 8192 4096 := by
  have hread : read "testset" (Bytes.ofText "\n5000\n") = .ok [5000] := by decide
  have hfault : checkCoverage? [5000] 8192 4096 = .ok (some (.misaligned 0 5000)) := by decide
  have hlines : lines (Bytes.ofText "\n5000\n") = [[], Bytes.ofText "5000"] := by decide
  intro hnames
  obtain ⟨line, hline, hholds⟩ := hnames _ _ _ 0 5000 hread hfault rfl
  rw [hlines] at hline
  obtain rfl : [] = line := Option.some.inj hline
  exact nomatch hholds.unique (isBlankLine_iff.mp (by decide))

end Testset

end AccessPattern
