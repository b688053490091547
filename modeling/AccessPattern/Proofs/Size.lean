import AccessPattern.Proofs.Size.Grammar

/-!
# Sizes read back

A rendered size is a number, perhaps with the capital letter of a unit after it. Trimming leaves it
alone and lower-casing changes the letter only, and the number times the bytes of the unit is the
size again, so rendering loses nothing: different sizes are rendered differently.
-/

namespace AccessPattern

namespace SizeUnit

/-- The capital letter of a unit is read as its letter. -/
@[simp] theorem lowerLetter_capital (unit : SizeUnit) :
    Text.lowerLetter unit.capital = [unit.letter] := by
  cases unit <;> decide

/-- The capital letter of a unit is no white space. -/
@[simp] theorem isBlank_capital (unit : SizeUnit) : Text.isBlank unit.capital = false := by
  cases unit <;> decide

end SizeUnit

namespace Size

/-- A number without a unit is left alone by trimming and lower-casing. -/
@[simp] theorem lower_trim_digits (n : Nat) :
    Text.lower (Text.trim (Text.digits n)) = Text.digits n := by
  have hdigit {c : Char} (hc : c ∈ Text.digits n) := Text.isDigit_of_mem_digits hc
  rw [Text.trim_eq_self fun c hc => Text.isBlank_of_isDigit (hdigit hc),
    Text.lower_eq_self fun c hc => Text.lowerLetter_of_isDigit (hdigit hc)]

/-- Of a number and the capital letter of a unit only the letter is changed. -/
@[simp] theorem lower_trim_digits_capital (n : Nat) (unit : SizeUnit) :
    Text.lower (Text.trim (Text.digits n ++ [unit.capital])) = Text.digits n ++ [unit.letter] := by
  have hdigit {c : Char} (hc : c ∈ Text.digits n) := Text.isDigit_of_mem_digits hc
  have hblank : ∀ c ∈ Text.digits n ++ [unit.capital], Text.isBlank c = false := by
    intro c hc
    rcases List.mem_append.mp hc with hc | hc
    · exact Text.isBlank_of_isDigit (hdigit hc)
    · rw [List.mem_singleton.mp hc]
      exact unit.isBlank_capital
  have hdigits := Text.lower_eq_self fun c hc => Text.lowerLetter_of_isDigit (hdigit hc)
  rw [Text.trim_eq_self hblank, Text.lower, List.flatMap_append, List.flatMap_singleton,
    unit.lowerLetter_capital]
  exact congrArg (· ++ [unit.letter]) hdigits

/-- A rendered size spells the size. -/
theorem spells_format (size : UInt64) :
    Spells (Text.lower (Text.trim (format size).toList)) size.toNat := by
  have hplain : Spells (Text.digits size.toNat) size.toNat := by
    have hparts := Spells.parts (Text.denotes_digits size.toNat) size.toNat_lt_size .none
    rwa [List.append_nil, Nat.pow_zero, Nat.mul_one] at hparts
  unfold format
  split
  · next hzero =>
    subst hzero
    exact hplain
  · split
    · next unit hunit =>
      have hdivides : size.toNat % unit.bytes = 0 := by
        simpa [largestUnit?] using List.find?_some hunit
      have hproduct : size.toNat / unit.bytes * unit.bytes = size.toNat :=
        Nat.div_mul_cancel (Nat.dvd_of_mod_eq_zero hdivides)
      have hquotient : size.toNat / unit.bytes < UInt64.size :=
        Nat.lt_of_le_of_lt (Nat.div_le_self _ _) size.toNat_lt_size
      have hparts := Spells.parts (Text.denotes_digits _) hquotient
        (.letter (mem_unitLetters_iff.mpr ⟨unit, rfl, rfl⟩))
      rw [← unit.bytes_eq, hproduct] at hparts
      simpa using hparts
    · simpa using hplain

/-- A rendered size reads as the size. -/
@[simp] theorem parse_format (size : UInt64) : parse (format size) = .ok size :=
  parse_eq_ok_iff.mpr (spells_format size)

/-- Different sizes are rendered differently. -/
theorem format_injective {size other : UInt64} (h : format size = format other) :
    size = other := by
  have hparse := congrArg parse h
  simpa using hparse

/-- A rendered size consists of digits and capitals of units. -/
theorem mem_format {size : UInt64} {c : Char} (h : c ∈ (format size).toList) :
    c.isDigit = true ∨ ∃ unit : SizeUnit, c = unit.capital := by
  unfold format at h
  split at h
  · have hzero : c = '0' := by simpa using h
    subst hzero
    exact .inl rfl
  · split at h
    · next unit _ =>
      rw [String.toList_ofList, List.mem_append, List.mem_singleton] at h
      exact h.imp Text.isDigit_of_mem_digits fun hc => ⟨unit, hc⟩
    · rw [String.toList_ofList] at h
      exact .inl (Text.isDigit_of_mem_digits h)

end Size

end AccessPattern
