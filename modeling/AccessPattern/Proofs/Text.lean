import AccessPattern.Text.Alphabetic
import AccessPattern.Text.Blank
import AccessPattern.Text.Decimal
import AccessPattern.Text.LetterCase
import Mathlib.Algebra.Group.Nat.Defs

/-!
# Digits in texts

Digits are no white space, have one case and are no letters, so whatever trims, lower-cases or
splits off letters leaves a number alone.
-/

namespace AccessPattern.Text

/-- Whether a character is one of the 128 of ASCII. -/
def IsAscii (c : Char) : Prop :=
  c.toNat < 128

instance : DecidablePred IsAscii := fun c => inferInstanceAs (Decidable (c.toNat < 128))

/-- The characters of a number are digits. -/
theorem isDigit_of_mem_digits {n : Nat} {c : Char} (h : c ∈ digits n) : c.isDigit = true :=
  Nat.isDigit_of_mem_toDigits (by decide) (by decide) h

/-- A number has a digit. -/
@[simp] theorem digits_ne_nil (n : Nat) : digits n ≠ [] :=
  Nat.toDigits_ne_nil

/-- A number above zero does not open with the digit zero. -/
theorem head?_digits_ne_zero {n : Nat} (h : 0 < n) : (digits n).head? ≠ some '0' := by
  induction n using Nat.strongRecOn with
  | ind n ih =>
    rw [digits, Nat.toDigits_eq_if (by decide)]
    split
    · next hlt =>
      have hdigit : ∀ d < 10, 0 < d → Nat.digitChar d ≠ '0' := by decide
      exact fun heq => hdigit n hlt h (Option.some.inj heq)
    · next hle =>
      have hquotient := ih (n / 10) (by omega) (by omega)
      cases hdigits : Nat.toDigits 10 (n / 10) with
      | nil => exact absurd hdigits Nat.toDigits_ne_nil
      | cons c rest => rwa [digits, hdigits] at hquotient

/-- The digits are ten consecutive characters. -/
theorem toNat_of_isDigit {c : Char} (h : c.isDigit = true) : 48 ≤ c.toNat ∧ c.toNat ≤ 57 := by
  simpa [Char.isDigit, UInt32.le_iff_toNat_le] using h

/-- A digit is in ASCII. -/
theorem isAscii_of_isDigit {c : Char} (h : c.isDigit = true) : IsAscii c :=
  Nat.lt_of_le_of_lt (toNat_of_isDigit h).2 (by decide)

/-- The value of digits has no more digits. -/
theorem ofDigitChars_lt {digits : List Char} (h : ∀ c ∈ digits, c.isDigit = true) :
    Nat.ofDigitChars 10 digits 0 < 10 ^ digits.length := by
  induction digits with
  | nil => decide
  | cons c digits ih =>
    rw [List.forall_mem_cons] at h
    have hrange := Text.toNat_of_isDigit h.1
    have hvalue : c.toNat - '0'.toNat ≤ 9 := by
      change c.toNat - 48 ≤ 9
      omega
    rw [Nat.ofDigitChars_cons, Nat.ofDigitChars_eq_ofDigitChars_zero, Nat.mul_zero, Nat.zero_add,
      List.length_cons]
    calc 10 ^ digits.length * (c.toNat - '0'.toNat) + Nat.ofDigitChars 10 digits 0
        < 10 ^ digits.length * (c.toNat - '0'.toNat) + 10 ^ digits.length :=
          Nat.add_lt_add_left (ih h.2) _
      _ = 10 ^ digits.length * (c.toNat - '0'.toNat + 1) := rfl
      _ ≤ 10 ^ digits.length * 10 := Nat.mul_le_mul_left _ (Nat.succ_le_succ hvalue)
      _ = 10 ^ (digits.length + 1) := rfl

/-- A digit is no white space. -/
theorem isBlank_of_isDigit {c : Char} (h : c.isDigit = true) : isBlank c = false := by
  have hrange := toNat_of_isDigit h
  simp only [isBlank, Bool.or_eq_false_iff, Bool.and_eq_false_iff, decide_eq_false_iff_not,
    beq_eq_false_iff_ne]
  omega

/-- A digit has no other case. -/
theorem lowerLetter_of_isDigit {c : Char} (h : c.isDigit = true) : lowerLetter c = [c] := by
  have hrange := toNat_of_isDigit h
  have hkelvin : c ≠ '\u212a' := by rintro rfl; contradiction
  have hdotted : c ≠ '\u0130' := by rintro rfl; contradiction
  have hupper : ¬(c.val ≥ 65 ∧ c.val ≤ 90) := by
    simp only [ge_iff_le, UInt32.le_iff_toNat_le]
    change ¬ (65 ≤ c.toNat ∧ c.toNat ≤ 90)
    omega
  have hlower : c.toLower = c := dif_neg hupper
  rw [lowerLetter, if_neg hkelvin, if_neg hdotted, hlower]

/-- A digit is no letter. -/
theorem isAsciiLetter_of_isDigit {c : Char} (h : c.isDigit = true) : isAsciiLetter c = false := by
  have hrange := toNat_of_isDigit h
  simp only [isAsciiLetter, Bool.or_eq_false_iff, Bool.and_eq_false_iff, decide_eq_false_iff_not,
    Char.le_def, UInt32.le_iff_toNat_le]
  change (¬ 97 ≤ c.toNat ∨ ¬ c.toNat ≤ 122) ∧ (¬ 65 ≤ c.toNat ∨ ¬ c.toNat ≤ 90)
  omega

/-- An ASCII letter is in ASCII. -/
theorem isAscii_of_isAsciiLetter {c : Char} (h : isAsciiLetter c = true) : IsAscii c := by
  simp only [isAsciiLetter, Bool.or_eq_true, Bool.and_eq_true, decide_eq_true_eq,
    Char.le_def, UInt32.le_iff_toNat_le] at h
  change (97 ≤ c.toNat ∧ c.toNat ≤ 122) ∨ (65 ≤ c.toNat ∧ c.toNat ≤ 90) at h
  change c.toNat < 128
  omega

/-- The alphabetic characters begin with the ASCII capitals. -/
theorem le_of_mem_alphabeticRanges : ∀ range ∈ alphabeticRanges, 0x41 ≤ range.1 := by
  decide +kernel

/-- A digit is not alphabetic. -/
theorem isAlphabetic_of_isDigit {c : Char} (h : c.isDigit = true) : isAlphabetic c = false := by
  have hrange := toNat_of_isDigit h
  rw [isAlphabetic, List.any_eq_false]
  intro range hmem hin
  have hfirst := le_of_mem_alphabeticRanges range hmem
  simp only [Bool.and_eq_true, decide_eq_true_eq] at hin
  omega

/-- Nothing is dropped from the start of a text whose first character is no white space. -/
theorem trimStart_eq_self {text : List Char} (h : ∀ c ∈ text.head?, isBlank c = false) :
    trimStart text = text := by
  cases text with
  | nil => rfl
  | cons c rest =>
    have hc : isBlank c = false := h c rfl
    simp [trimStart, hc]

/-- Nothing is trimmed from a text without white space. -/
theorem trim_eq_self {text : List Char} (h : ∀ c ∈ text, isBlank c = false) :
    trim text = text := by
  have hstart : trimStart text = text :=
    trimStart_eq_self fun c hc => h c (List.mem_of_mem_head? hc)
  have hend : trimStart text.reverse = text.reverse :=
    trimStart_eq_self fun c hc => h c (List.mem_reverse.mp (List.mem_of_mem_head? hc))
  rw [trim, hstart, trimEnd]
  exact (congrArg List.reverse hend).trans (List.reverse_reverse text)

end AccessPattern.Text
