import AccessPattern.Proofs.Testset.Grammar

/-!
# Testsets read back

The bytes of a rendered testset are one row of digits for each offset, with a newline after each.
None of the rows holds a newline, so splitting at newlines gives the rows again, and each row
holds its offset. Nothing is lost on the way, so the text determines the offsets.
-/

namespace AccessPattern

namespace Testset

/-- Rows that each end in a newline are split into these rows. -/
theorem lines_flatMap {rows : List Bytes} (h : ∀ row ∈ rows, newline ∉ row) :
    lines (rows.flatMap fun row => row ++ [newline]) = rows := by
  induction rows with
  | nil => rfl
  | cons row rows ih =>
    obtain ⟨hrow, hrows⟩ := List.forall_mem_cons.mp h
    rw [List.flatMap_cons, List.append_assoc, List.singleton_append, lines_append_newline hrow,
      ih hrows]

/-- The bytes of the digits of an offset. -/
def row (offset : UInt64) : Bytes :=
  Bytes.ofText (String.ofList (Text.digits offset.toNat))

/-- A rendered testset is a row for each offset. -/
theorem ofText_render (offsets : List UInt64) :
    Bytes.ofText (render offsets) = (offsets.map row).flatMap fun row => row ++ [newline] := by
  have hnewline : String.utf8EncodeChar '\n' = [newline] := by decide
  simp [render, row, hnewline, List.flatMap_assoc, List.flatMap_map]

/-- A row holds no newline. -/
theorem newline_notMem_row (offset : UInt64) : newline ∉ row offset := by
  rw [row, Bytes.ofText_ofList]
  intro hmem
  obtain ⟨c, hc, hbyte⟩ := List.mem_flatMap.mp hmem
  have hdigit := Text.isDigit_of_mem_digits hc
  have hrange := Text.toNat_of_isDigit hdigit
  rw [Text.utf8EncodeChar_of_isAscii (Text.isAscii_of_isDigit hdigit), List.mem_singleton] at hbyte
  have hnat := congrArg UInt8.toNat hbyte
  rw [UInt32.toNat_toUInt8] at hnat
  change 10 = c.toNat % 256 at hnat
  omega

/-- A row holds its offset. -/
theorem holds_row (offset : UInt64) : Holds (row offset) (some offset) := by
  refine .offset rfl (Text.trimsTo_iff.mpr ?_) (Text.denotes_digits offset.toNat)
  rw [String.toList_ofList]
  exact Text.trim_eq_self fun c hc => Text.isBlank_of_isDigit (Text.isDigit_of_mem_digits hc)

/-- The lines of a rendered testset are the rows of its offsets. -/
@[simp] theorem lines_ofText_render (offsets : List UInt64) :
    lines (Bytes.ofText (render offsets)) = offsets.map row := by
  rw [ofText_render, lines_flatMap]
  intro line hline
  obtain ⟨offset, -, rfl⟩ := List.mem_map.mp hline
  exact newline_notMem_row offset

/-- What is read from a rendered testset are its offsets, whatever label is used. -/
@[simp] theorem read_ofText_render (source : String) (offsets : List UInt64) :
    read source (Bytes.ofText (render offsets)) = .ok offsets := by
  rw [read_eq_ok_iff, lines_ofText_render]
  refine ⟨offsets.map some, ?_, ?_⟩
  · rw [List.forall₂_map_left_iff, List.forall₂_map_right_iff, List.forall₂_same]
    exact fun offset _ => holds_row offset
  · rw [List.filterMap_map, Function.id_comp, List.filterMap_some]

/-- The text of a testset loses nothing: it has one line for each offset, what is read from it under
any label are the offsets, and so no two sequences of offsets have the same text. -/
theorem rendered_offsets_read_back :
    (∀ offsets, (lines (Bytes.ofText (render offsets))).length = offsets.length) ∧
      (∀ source offsets, read source (Bytes.ofText (render offsets)) = .ok offsets) ∧
      Function.Injective render := by
  refine ⟨fun offsets => ?_, read_ofText_render, fun offsets others heq => ?_⟩
  · simp
  · have hread := congrArg (fun text => read "" (Bytes.ofText text)) heq
    simpa using hread

end Testset

end AccessPattern
