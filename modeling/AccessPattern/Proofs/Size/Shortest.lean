import AccessPattern.Proofs.Size
import AccessPattern.Proofs.Text.Trim

/-!
# The shortest text of a size

A size is rendered with the largest unit that divides it, in the fewest digits. Any other unit that
divides it leaves a greater number to be written before its letter, and writing the size without a
unit takes at least as many digits as the largest unit saves. White space, zeros in front, a plus
sign and a `b` only add characters, so no text that is read as the size is shorter.
-/

namespace AccessPattern

namespace Text

/-- A number from 10 on has one digit more than its tenth. -/
theorem length_digits_div_ten {n : Nat} (h : 10 ≤ n) :
    (digits n).length = (digits (n / 10)).length + 1 := by
  rw [digits, Nat.toDigits_of_base_le (by decide) h, List.length_append, List.length_singleton]
  rfl

end Text

namespace Size

variable {size : UInt64} {unit : SizeUnit}

/-- The units that divide a size are not larger than the largest. -/
theorem bytes_le_of_largestUnit? (h : largestUnit? size = some unit) :
    unit.bytes ∣ size.toNat ∧
      ∀ other : SizeUnit, other.bytes ∣ size.toNat → other.bytes ≤ unit.bytes := by
  have hdescending : SizeUnit.all.reverse.Pairwise fun larger smaller =>
      smaller.bytes ≤ larger.bytes := by decide
  obtain ⟨hdivides, before, after, hall, hbefore⟩ := List.find?_eq_some_iff_append.mp h
  refine ⟨Nat.dvd_of_mod_eq_zero (beq_iff_eq.mp hdivides), fun other hother => ?_⟩
  have hmem : other ∈ SizeUnit.all.reverse := by cases other <;> decide
  rw [hall, List.mem_append, List.mem_cons] at hmem
  rcases hmem with hmem | rfl | hmem
  · have hnot := hbefore other hmem
    rw [Nat.mod_eq_zero_of_dvd hother] at hnot
    contradiction
  · exact Nat.le_refl _
  · rw [hall, List.pairwise_append, List.pairwise_cons] at hdescending
    exact hdescending.2.1.1 other hmem

/-- Where there is no largest unit none divides the size. -/
theorem not_dvd_of_largestUnit? (h : largestUnit? size = none) (unit : SizeUnit) :
    ¬unit.bytes ∣ size.toNat := by
  intro hdivides
  have hmem : unit ∈ SizeUnit.all.reverse := by cases unit <;> decide
  have hnot := List.find?_eq_none.mp h unit hmem
  rw [Nat.mod_eq_zero_of_dvd hdivides] at hnot
  contradiction

/-- A unit is at least ten bytes. -/
theorem ten_le_bytes (unit : SizeUnit) : 10 ≤ unit.bytes := by
  cases unit <;> decide

/-- The length of a rendered size is that of a number and of the letter after it. -/
theorem length_format (hsize : size ≠ 0) :
    (format size).length =
      match largestUnit? size with
      | some unit => (Text.digits (size.toNat / unit.bytes)).length + 1
      | none => (Text.digits size.toNat).length := by
  rw [format, if_neg hsize]
  cases largestUnit? size with
  | none => simp
  | some unit => simp

/-- A rendered size is not longer than its digits. -/
theorem length_format_le_digits : (format size).length ≤ (Text.digits size.toNat).length := by
  by_cases hsize : size = 0
  · subst hsize
    decide
  · rw [length_format hsize]
    split
    · next unit hunit =>
      have hpos : 0 < size.toNat :=
        Nat.pos_of_ne_zero fun hzero => hsize (UInt64.toNat_inj.mp hzero)
      have hle : unit.bytes ≤ size.toNat :=
        Nat.le_of_dvd hpos (bytes_le_of_largestUnit? hunit).1
      have hten := ten_le_bytes unit
      rw [Text.length_digits_div_ten (Nat.le_trans hten hle)]
      exact Nat.succ_le_succ (Text.length_digits_mono (Nat.div_le_div_left hten (by decide)))
    · exact Nat.le_refl _

/-- A rendered size is not longer than the digits of the number of any unit and a letter. -/
theorem length_format_le_unit {d : Nat} (h : size.toNat = d * unit.bytes) :
    (format size).length ≤ (Text.digits d).length + 1 := by
  by_cases hsize : size = 0
  · subst hsize
    exact Nat.le_add_left _ _
  · rw [length_format hsize]
    have hdivides : unit.bytes ∣ size.toNat := ⟨d, by rw [h, Nat.mul_comm]⟩
    split
    · next largest hlargest =>
      have hle := (bytes_le_of_largestUnit? hlargest).2 unit hdivides
      apply Nat.succ_le_succ
      apply Text.length_digits_mono
      calc size.toNat / largest.bytes
          ≤ size.toNat / unit.bytes := Nat.div_le_div_left hle unit.bytes_bounds.1
        _ = d := by rw [h, Nat.mul_div_cancel _ unit.bytes_bounds.1]
    · next hnone => exact absurd hdivides (not_dvd_of_largestUnit? hnone unit)

/-- A rendered size is not longer than any text that spells it. -/
theorem Spells.length_format_le {text : List Char} (h : Spells text size.toNat) :
    (format size).length ≤ text.length := by
  generalize hn : size.toNat = n at h
  cases h with
  | parts hnumber _ hunit =>
    have hdigits := hnumber.length_digits_le
    rw [List.length_append]
    cases hunit with
    | none =>
      rw [Nat.pow_zero, Nat.mul_one] at hn
      have hformat : (format size).length ≤ (Text.digits size.toNat).length :=
        length_format_le_digits
      rw [hn] at hformat
      exact Nat.le_trans hformat hdigits
    | letter hmem =>
      obtain ⟨unit, rfl, rfl⟩ := mem_unitLetters_iff.mp hmem
      have hformat := length_format_le_unit hn
      exact Nat.le_trans hformat (Nat.succ_le_succ hdigits)
    | marked hmem =>
      obtain ⟨unit, rfl, rfl⟩ := mem_unitLetters_iff.mp hmem
      have hformat := length_format_le_unit hn
      exact Nat.le_trans hformat (Nat.le_succ_of_le (Nat.succ_le_succ hdigits))

/-- Rendering is undone by reading, so different sizes are rendered differently; and of all texts
that are read as a size the rendered one has the fewest characters. -/
theorem format_shortest_read_back :
    (∀ size, parse (format size) = .ok size) ∧ Function.Injective format ∧
      ∀ text size, parse text = .ok size → (format size).length ≤ text.length := by
  refine ⟨parse_format, fun _ _ => format_injective, fun text size h => ?_⟩
  have hspells := parse_eq_ok_iff.mp h
  calc (format size).length
      ≤ (Text.lower (Text.trim text.toList)).length := hspells.length_format_le
    _ = (Text.trim text.toList).length := Text.length_lower hspells.isAscii
    _ ≤ text.toList.length := (Text.trimsTo_trim _).length_le
    _ = text.length := String.length_toList

/-- A mebibyte may be written as 1024 kibibytes, but is rendered in two characters. -/
theorem format_shortest_read_back_respelled :
    parse "+01024kB" = .ok 1048576 ∧ (format 1048576).length ≤ "+01024kB".length ∧
      format 1048576 = "1M" := by
  have hnumber : Text.Denotes "+01024".toList 1024 := .signed (by decide)
  have hspells : Spells "+01024kb".toList 1048576 :=
    .parts hnumber (by decide) (.marked (by decide : ('k', 1) ∈ unitLetters))
  have hread : parse "+01024kB" = .ok 1048576 := parse_eq_ok_iff.mpr hspells
  exact ⟨hread, format_shortest_read_back.2.2 _ _ hread, by decide⟩

end Size

end AccessPattern
