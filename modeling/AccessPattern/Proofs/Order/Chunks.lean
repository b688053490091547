import AccessPattern.Proofs.Order.Interleave
import Mathlib.Data.List.Chain
import Mathlib.Data.List.Range
import Mathlib.Data.List.Sort
import Mathlib.Order.Nat

/-!
# Numbers in rows

The numbers below a limit, written in rows of a width, are cut into chunks: one per row, the last
perhaps short. Read column by column they are dealt onto lanes, and interleaving the lanes deals
them back. Blocks lie in pages in this way, and pages on channels.
-/

namespace AccessPattern

/-- The numbers below a limit that stand in one row of a width. -/
def chunk (width limit row : Nat) : List Nat :=
  (List.range (min width (limit - row * width))).map (row * width + ·)

/-- A row is as long as the width, or as what is left below the limit. -/
@[simp] theorem length_chunk (width limit row : Nat) :
    (chunk width limit row).length = min width (limit - row * width) := by
  simp [chunk]

/-- The rows from the first on hold the numbers in order. -/
theorem flatMap_chunk (width limit rows : Nat) :
    (List.range rows).flatMap (chunk width limit) = List.range (min limit (rows * width)) := by
  induction rows with
  | zero => simp
  | succ rows ih =>
    rw [List.range_succ, List.flatMap_append, ih, List.flatMap_singleton, Nat.succ_mul]
    by_cases hfull : rows * width ≤ limit
    · rw [Nat.min_eq_right hfull, chunk, ← List.range_add]
      congr 1
      omega
    · have hempty : limit - rows * width = 0 := by omega
      rw [chunk, hempty, Nat.min_zero, List.range_zero, List.map_nil, List.append_nil]
      congr 1
      omega

/-- A number stands in the row that is its quotient by the width. -/
theorem mem_chunk {width limit row number : Nat} (hwidth : 0 < width) :
    number ∈ chunk width limit row ↔ number < limit ∧ number / width = row := by
  simp only [chunk, List.mem_map, List.mem_range, Nat.lt_min]
  constructor
  · rintro ⟨column, ⟨hcolumn, hlimit⟩, rfl⟩
    refine ⟨by omega, ?_⟩
    rw [Nat.mul_comm, Nat.mul_add_div hwidth, Nat.div_eq_of_lt hcolumn, Nat.add_zero]
  · rintro ⟨hlimit, rfl⟩
    have hdivision := Nat.div_add_mod' number width
    exact ⟨number % width, ⟨Nat.mod_lt _ hwidth, by omega⟩, hdivision⟩

/-- The numbers of a row ascend. -/
theorem pairwise_chunk (width limit row : Nat) : (chunk width limit row).Pairwise (· < ·) :=
  List.pairwise_lt_range.map _ fun _ _ hlt => Nat.add_lt_add_left hlt _

/-- The numbers of a row are consecutive. -/
theorem isChain_chunk (width limit row : Nat) :
    (chunk width limit row).IsChain fun before after => after = before + 1 := by
  rw [chunk, List.isChain_map]
  exact (List.isChain_range _ _).mpr fun _ _ => rfl

/-- A row is picked out of all numbers by its quotient. -/
theorem filter_range_eq_chunk {width : Nat} (hwidth : 0 < width) (limit row : Nat) :
    ((List.range limit).filter fun number => number / width == row) = chunk width limit row := by
  apply (List.pairwise_lt_range.filter _).eq_of_mem_iff (pairwise_chunk _ _ _)
  intro number
  simp [mem_chunk hwidth]

/-- A row that starts below the limit holds a number. -/
theorem chunk_ne_nil {width limit row : Nat} (hwidth : 0 < width) (hrow : row * width < limit) :
    chunk width limit row ≠ [] := by
  apply List.ne_nil_of_mem (a := row * width)
  exact (mem_chunk hwidth).mpr ⟨hrow, Nat.mul_div_cancel _ hwidth⟩

/-- The numbers below a limit that stand in one column of rows of a width. -/
def column (width limit place : Nat) : List Nat :=
  (List.range limit).filter fun number => number % width == place

/-- A column holds one number of each row, as long as the rows reach it. -/
theorem column_eq_map {width limit place : Nat} (hplace : place < width) :
    column width limit place =
      (List.range ((limit + width - 1 - place) / width)).map (· * width + place) := by
  have hwidth : 0 < width := Nat.zero_lt_of_lt hplace
  have hmem (number : Nat) : number ∈ column width limit place ↔
      number ∈ (List.range ((limit + width - 1 - place) / width)).map (· * width + place) := by
    simp only [column, List.mem_filter, List.mem_map, List.mem_range, beq_iff_eq]
    constructor
    · rintro ⟨hlimit, rfl⟩
      have hdivision := Nat.div_add_mod' number width
      refine ⟨number / width, ?_, hdivision⟩
      rw [Nat.lt_iff_add_one_le, Nat.le_div_iff_mul_le hwidth, Nat.succ_mul]
      omega
    · rintro ⟨row, hrow, rfl⟩
      rw [Nat.lt_iff_add_one_le, Nat.le_div_iff_mul_le hwidth, Nat.succ_mul] at hrow
      refine ⟨by omega, ?_⟩
      rw [Nat.mul_add_mod', Nat.mod_eq_of_lt hplace]
  have hleft : (column width limit place).Pairwise (· < ·) :=
    List.pairwise_lt_range.filter _
  have hright : ((List.range ((limit + width - 1 - place) / width)).map
      (· * width + place)).Pairwise (· < ·) := by
    refine List.Pairwise.map _ (fun first second hlt => ?_) List.pairwise_lt_range
    have := Nat.mul_lt_mul_of_pos_right hlt hwidth
    omega
  exact hleft.eq_of_mem_iff hright hmem

/-- The number in a row and column, if the limit is not reached before. -/
theorem getElem?_column {width limit place : Nat} (hplace : place < width) (row : Nat) :
    (column width limit place)[row]? =
      if row * width + place < limit then some (row * width + place) else none := by
  have hwidth : 0 < width := Nat.zero_lt_of_lt hplace
  have hrow : row < (limit + width - 1 - place) / width ↔ row * width + place < limit := by
    rw [Nat.lt_iff_add_one_le, Nat.le_div_iff_mul_le hwidth, Nat.succ_mul]
    omega
  rw [column_eq_map hplace, List.getElem?_map]
  split
  · next hlimit => rw [List.getElem?_range (hrow.mpr hlimit), Option.map_some]
  · next hlimit =>
    rw [List.getElem?_eq_none, Option.map_none]
    rw [List.length_range]
    exact Nat.le_of_not_lt fun hlt => hlimit (hrow.mp hlt)

/-- The lanes onto which the numbers below a limit are dealt in turn. -/
def columns (width limit : Nat) : List (List Nat) :=
  (List.range width).map (column width limit)

/-- One turn round the dealt lanes is one row. -/
@[simp] theorem turnItems_columns (width limit row : Nat) :
    turnItems ((columns width limit).map List.toArray) row = chunk width limit row := by
  have hprefix (places : Nat) (hplaces : places ≤ width) :
      ((List.range places).filterMap fun place => (column width limit place)[row]?) =
        (List.range (min places (limit - row * width))).map (row * width + ·) := by
    induction places with
    | zero => simp
    | succ places ih =>
      rw [List.range_succ, List.filterMap_append, ih (by omega), List.filterMap_cons,
        getElem?_column (by omega)]
      by_cases hlimit : row * width + places < limit
      · rw [if_pos hlimit, Nat.min_eq_left (by omega), Nat.min_eq_left (by omega),
          List.range_succ, List.map_append]
        rfl
      · rw [if_neg hlimit, Nat.min_eq_right (by omega), Nat.min_eq_right (by omega)]
        exact List.append_nil _
  rw [turnItems, columns, List.map_map, List.filterMap_map]
  simpa [Function.comp_def, chunk] using hprefix width (Nat.le_refl _)

/-- Interleaving the lanes onto which numbers were dealt gives the numbers in order. -/
theorem interleave_columns {width : Nat} (hwidth : 0 < width) (limit : Nat) :
    interleave ((columns width limit).map List.toArray) = List.range limit := by
  have hsize : ∀ lane ∈ (columns width limit).map List.toArray, lane.size ≤ limit := by
    intro lane hlane
    obtain ⟨numbers, hnumbers, rfl⟩ := List.mem_map.mp hlane
    obtain ⟨place, -, rfl⟩ := List.mem_map.mp hnumbers
    rw [List.size_toArray]
    exact Nat.le_trans (List.length_filter_le _ _) (Nat.le_of_eq List.length_range)
  rw [interleave_eq_flatMap hsize, funext (turnItems_columns width limit), flatMap_chunk,
    Nat.min_eq_left (Nat.le_mul_of_pos_right limit hwidth)]

end AccessPattern
