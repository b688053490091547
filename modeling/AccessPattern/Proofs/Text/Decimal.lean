import AccessPattern.Proofs.Text

/-!
# Texts that denote numbers

A number is read from one or more digits, perhaps after a plus sign. Zeros in front change nothing,
so a number has many texts; the digits that are written for it are the fewest of all.
-/

namespace AccessPattern.Text

/-- One or more ASCII digits. -/
structure IsDigits (text : List Char) : Prop where
  ne_nil : text ≠ []
  isDigit : ∀ c ∈ text, c.isDigit = true

/-- The texts of a number: digits with the number as their value, perhaps after a plus sign. -/
inductive Denotes : List Char → Nat → Prop where
  | plain {text : List Char} (h : IsDigits text) : Denotes text (Nat.ofDigitChars 10 text 0)
  | signed {text : List Char} (h : IsDigits text) :
    Denotes ('+' :: text) (Nat.ofDigitChars 10 text 0)

variable {text : List Char} {n m : Nat}

/-- A text is digits when it has a character and each passes as a digit. -/
theorem isDigits_iff : IsDigits text ↔ text ≠ [] ∧ text.all Char.isDigit = true := by
  rw [List.all_eq_true]
  exact ⟨fun h => ⟨h.ne_nil, h.isDigit⟩, fun h => ⟨h.1, h.2⟩⟩

instance : Decidable (IsDigits text) :=
  decidable_of_iff' _ isDigits_iff

/-- The digits of a number are digits. -/
theorem isDigits_digits (n : Nat) : IsDigits (digits n) :=
  ⟨digits_ne_nil n, fun _ => isDigit_of_mem_digits⟩

/-- The digits of a number denote it. -/
theorem denotes_digits (n : Nat) : Denotes (digits n) n := by
  have h := Denotes.plain (isDigits_digits n)
  rwa [digits, Nat.ofDigitChars_ten_toDigits] at h

/-- Digits do not open with a plus sign. -/
theorem IsDigits.dropPlus_eq (h : IsDigits text) : dropPlus text = text := by
  unfold dropPlus
  split
  · next rest => exact absurd (h.isDigit '+' List.mem_cons_self) (by decide)
  · rfl

/-- A value is read from digits. -/
theorem decimal?_eq_some_iff :
    decimal? text = some n ↔ IsDigits text ∧ Nat.ofDigitChars 10 text 0 = n := by
  rw [decimal?, isDigits_iff, Option.ite_none_right_eq_some, Option.some.injEq]

/-- A text denotes a number when its digits after a plus sign have it as their value. -/
theorem denotes_iff : Denotes text n ↔ decimal? (dropPlus text) = some n := by
  constructor
  · intro h
    cases h with
    | plain hdigits =>
      rw [hdigits.dropPlus_eq]
      exact decimal?_eq_some_iff.mpr ⟨hdigits, rfl⟩
    | signed hdigits => exact decimal?_eq_some_iff.mpr ⟨hdigits, rfl⟩
  · intro h
    obtain ⟨hdigits, rfl⟩ := decimal?_eq_some_iff.mp h
    unfold dropPlus at hdigits ⊢
    split at hdigits
    · exact .signed hdigits
    · exact .plain hdigits

/-- A 64-bit number is read from the texts that denote it. -/
theorem word64?_eq_some_iff {word : UInt64} :
    word64? text = some word ↔ Denotes text word.toNat := by
  rw [denotes_iff, word64?]
  cases hvalue : decimal? (dropPlus text) with
  | none => simp
  | some n =>
    simp only [Option.some.injEq]
    constructor
    · intro h
      split at h
      · next hsize => rw [← Option.some.inj h, UInt64.toNat_ofNat_of_lt' hsize]
      · contradiction
    · rintro rfl
      rw [if_pos word.toNat_lt_size, UInt64.ofNat_toNat]

/-- The number that a text denotes is read if it has 64 bits. -/
theorem word64?_of_denotes (h : Denotes text n) (hn : n < UInt64.size) :
    word64? text = some (UInt64.ofNat n) := by
  rw [word64?_eq_some_iff, UInt64.toNat_ofNat_of_lt' hn]
  exact h

/-- Nothing is read from texts that denote no number of 64 bits. -/
theorem word64?_eq_none_iff :
    word64? text = none ↔ ∀ word : UInt64, ¬Denotes text word.toNat := by
  simp only [Option.eq_none_iff_forall_ne_some, ne_eq, word64?_eq_some_iff]

/-- A text that denotes a number is not empty. -/
theorem Denotes.ne_nil (h : Denotes text n) : text ≠ [] := by
  cases h with
  | plain hdigits => exact hdigits.ne_nil
  | signed hdigits => exact List.cons_ne_nil _ _

/-- A text that denotes a number ends in a digit. -/
theorem Denotes.exists_getLast? (h : Denotes text n) :
    ∃ c, text.getLast? = some c ∧ c.isDigit = true := by
  have hlast {digits : List Char} (hdigits : IsDigits digits) :
      ∃ c, digits.getLast? = some c ∧ c.isDigit = true :=
    ⟨_, List.getLast?_eq_some_getLast hdigits.ne_nil, hdigits.isDigit _ (List.getLast_mem _)⟩
  cases h with
  | plain hdigits => exact hlast hdigits
  | @signed digits hdigits =>
    rw [List.getLast?_cons_of_ne_nil hdigits.ne_nil]
    exact hlast hdigits

/-- A text that denotes a number holds no other characters than digits and a plus sign. -/
theorem Denotes.isDigit_or_eq_plus (h : Denotes text n) :
    ∀ c ∈ text, c.isDigit = true ∨ c = '+' := by
  intro c hc
  cases h with
  | plain hdigits => exact .inl (hdigits.isDigit c hc)
  | signed hdigits =>
    rcases List.mem_cons.mp hc with hplus | hrest
    · exact .inr hplus
    · exact .inl (hdigits.isDigit c hrest)

/-- A greater number does not have fewer digits. -/
theorem length_digits_mono (h : n ≤ m) : (digits n).length ≤ (digits m).length := by
  have hlength := (Nat.length_toDigits_le_iff (b := 10) (n := m) (by decide)
    Nat.length_toDigits_pos).mp (Nat.le_refl _)
  exact (Nat.length_toDigits_le_iff (by decide) Nat.length_toDigits_pos).mpr
    (Nat.lt_of_le_of_lt h hlength)

/-- No text that denotes a number is shorter than its digits. -/
theorem Denotes.length_digits_le (h : Denotes text n) : (digits n).length ≤ text.length := by
  have hvalue {text : List Char} (hdigits : IsDigits text) :
      (digits (Nat.ofDigitChars 10 text 0)).length ≤ text.length :=
    (Nat.length_toDigits_le_iff (by decide) (List.length_pos_iff.mpr hdigits.ne_nil)).mpr
      (ofDigitChars_lt hdigits.isDigit)
  cases h with
  | plain hdigits => exact hvalue hdigits
  | signed hdigits => exact Nat.le_succ_of_le (hvalue hdigits)

end AccessPattern.Text
