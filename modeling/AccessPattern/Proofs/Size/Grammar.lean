import AccessPattern.Proofs.Text.Decimal
import AccessPattern.Proofs.Text.LetterCase
import AccessPattern.Size
import Mathlib.Algebra.Group.Nat.Defs

/-!
# Texts of sizes

A size is a number, after which the letter of a unit may stand, after which a `b` may stand. Reading
takes a text apart from its end: a `b` goes with the letter before it, and the last letter is the
unit. A number ends in a digit, so a text of a size is taken apart into its parts, and what is taken
apart in this way into a number and a unit is the text of a size.
-/

namespace AccessPattern

namespace SizeUnit

/-- A letter stands for the unit whose letter it is. -/
theorem ofLetter?_eq_some_iff {c : Char} {unit : SizeUnit} :
    ofLetter? c = some unit ↔ unit.letter = c := by
  constructor
  · intro h
    simpa using List.find?_some h
  · rintro rfl
    exact ofLetter?_letter unit

/-- The letter of a unit is an ASCII letter. -/
@[simp] theorem isAsciiLetter_letter (unit : SizeUnit) : Text.isAsciiLetter unit.letter = true := by
  cases unit <;> decide

/-- The letter of a unit is alphabetic. -/
@[simp] theorem isAlphabetic_letter (unit : SizeUnit) : Text.isAlphabetic unit.letter = true := by
  apply Text.isAlphabetic_of_isAlpha
  cases unit <;> decide

/-- No unit has the letter that may follow a unit. -/
theorem letter_ne_b (unit : SizeUnit) : unit.letter ≠ 'b' := by
  cases unit <;> decide

/-- A unit is at least one byte and fits 64 bits. -/
theorem bytes_bounds (unit : SizeUnit) : 0 < unit.bytes ∧ unit.bytes < UInt64.size := by
  cases unit <;> decide

/-- The bytes of a unit are a power of 1024. -/
theorem bytes_eq (unit : SizeUnit) : unit.bytes = 1024 ^ unit.exponent :=
  rfl

end SizeUnit

namespace Size

/-- The letters of units, each with the factors of 1024 that it stands for. -/
def unitLetters : List (Char × Nat) :=
  [('k', 1), ('m', 2), ('g', 3), ('t', 4)]

/-- How a number of factors of 1024 is written after a number: not at all if there is none, else by
a letter, which a `b` may follow. -/
inductive DenotesUnit : List Char → Nat → Prop where
  | none : DenotesUnit [] 0
  | letter {c : Char} {e : Nat} (h : (c, e) ∈ unitLetters) : DenotesUnit [c] e
  | marked {c : Char} {e : Nat} (h : (c, e) ∈ unitLetters) : DenotesUnit [c, 'b'] e

/-- How a number of bytes is written: as a number of 64 bits and the unit to multiply it by. -/
inductive Spells : List Char → Nat → Prop where
  | parts {number unit : List Char} {d e : Nat} (hnumber : Text.Denotes number d)
    (hd : d < UInt64.size) (hunit : DenotesUnit unit e) : Spells (number ++ unit) (d * 1024 ^ e)

variable {text body : List Char} {c : Char} {d e n : Nat}

/-- The letters are those of the units. -/
theorem mem_unitLetters_iff :
    (c, e) ∈ unitLetters ↔ ∃ unit : SizeUnit, unit.letter = c ∧ unit.exponent = e := by
  constructor
  · intro h
    simp only [unitLetters, List.mem_cons, List.not_mem_nil, or_false, Prod.mk.injEq] at h
    rcases h with ⟨rfl, rfl⟩ | ⟨rfl, rfl⟩ | ⟨rfl, rfl⟩ | ⟨rfl, rfl⟩
    · exact ⟨.kilo, rfl, rfl⟩
    · exact ⟨.mega, rfl, rfl⟩
    · exact ⟨.giga, rfl, rfl⟩
    · exact ⟨.tera, rfl, rfl⟩
  · rintro ⟨unit, rfl, rfl⟩
    cases unit <;> simp [unitLetters, SizeUnit.letter, SizeUnit.exponent]

/-- A text that does not end in `b` is left alone. -/
theorem dropByteMark_eq_self (h : text.getLast? ≠ some 'b') : dropByteMark text = text := by
  unfold dropByteMark
  split
  · next c rest hreverse =>
    rw [← List.head?_reverse, hreverse] at h
    exact absurd rfl h
  · rfl

/-- A closing `b` is removed after an alphabetic character. -/
theorem dropByteMark_marked (hc : Text.isAlphabetic c = true) :
    dropByteMark (body ++ [c, 'b']) = body ++ [c] := by
  simp [dropByteMark, hc]

/-- Nothing else is removed than a `b` after an alphabetic character. -/
theorem dropByteMark_cases (text : List Char) :
    dropByteMark text = text ∨
      ∃ body c, Text.isAlphabetic c = true ∧ dropByteMark text = body ++ [c] ∧
        text = body ++ [c, 'b'] := by
  unfold dropByteMark
  split
  · next c rest hreverse =>
    split
    · next hc =>
      refine .inr ⟨rest.reverse, c, hc, by simp, ?_⟩
      rw [← List.reverse_reverse text, hreverse]
      simp
    · exact .inl rfl
  · exact .inl rfl

/-- An ASCII letter at the end is split off. -/
theorem splitUnit_concat (hc : Text.isAsciiLetter c = true) :
    splitUnit (body ++ [c]) = (body, some c) := by
  simp [splitUnit, hc]

/-- Where there is no ASCII letter at the end nothing is split off. -/
theorem splitUnit_eq_self (h : ∀ c, text.getLast? = some c → Text.isAsciiLetter c = false) :
    splitUnit text = (text, none) := by
  unfold splitUnit
  split
  · next c hc => rw [h c hc]; rfl
  · rfl

/-- Either a letter at the end is split off or nothing is. -/
theorem splitUnit_cases (text : List Char) :
    (∃ body c, text = body ++ [c] ∧ splitUnit text = (body, some c)) ∨
      splitUnit text = (text, none) := by
  rcases List.eq_nil_or_concat text with rfl | ⟨body, c, hconcat⟩
  · exact .inr rfl
  · rw [List.concat_eq_append] at hconcat
    subst hconcat
    by_cases hc : Text.isAsciiLetter c = true
    · exact .inl ⟨body, c, rfl, splitUnit_concat hc⟩
    · refine .inr (splitUnit_eq_self fun last hlast => ?_)
      rw [List.getLast?_concat, Option.some.injEq] at hlast
      exact hlast ▸ Bool.eq_false_iff.mpr hc

/-- A number without a unit is kept whole. -/
theorem splitUnit_number (h : Text.Denotes text d) :
    splitUnit (dropByteMark text) = (text, none) := by
  obtain ⟨last, hlast, hdigit⟩ := h.exists_getLast?
  rw [dropByteMark_eq_self, splitUnit_eq_self]
  · intro c hc
    rw [hlast, Option.some.injEq] at hc
    exact Text.isAsciiLetter_of_isDigit (hc ▸ hdigit)
  · intro hb
    rw [hlast, Option.some.injEq] at hb
    exact absurd (hb ▸ hdigit) (by decide)

/-- The letter of a unit is split off, and a `b` after it removed. -/
theorem splitUnit_letter (unit : SizeUnit)
    (hrest : text = [unit.letter] ∨ text = [unit.letter, 'b']) :
    splitUnit (dropByteMark (body ++ text)) = (body, some unit.letter) := by
  have hletter : splitUnit (body ++ [unit.letter]) = (body, some unit.letter) :=
    splitUnit_concat unit.isAsciiLetter_letter
  rcases hrest with rfl | rfl
  · rw [dropByteMark_eq_self, hletter]
    rw [List.getLast?_concat, ne_eq, Option.some.injEq]
    exact unit.letter_ne_b
  · rw [dropByteMark_marked unit.isAlphabetic_letter, hletter]

variable {input : String} {bytes : Nat} {number : List Char}

/-- A number is multiplied unless the product needs more than 64 bits. -/
theorem scaled_of_denotes (h : Text.Denotes number d) (hd : d < UInt64.size) :
    parse.scaled input bytes number =
      if d * bytes < UInt64.size then .ok (UInt64.ofNat (d * bytes))
      else .error (.overflow input) := by
  rw [parse.scaled, Text.word64?_of_denotes h hd]
  simp only [UInt64.toNat_ofNat_of_lt' hd]

/-- What is no number of 64 bits is not multiplied. -/
theorem scaled_of_not_denotes (h : ∀ d < UInt64.size, ¬Text.Denotes number d) :
    parse.scaled input bytes number = .error (.notANumber input) := by
  have hnone : Text.word64? number = none :=
    Text.word64?_eq_none_iff.mpr fun word => h word.toNat word.toNat_lt_size
  rw [parse.scaled, hnone]

/-- What a text spells is read from it, unless it needs more than 64 bits. -/
theorem parse_of_spells (h : Spells (Text.lower (Text.trim input.toList)) n) :
    parse input =
      if n < UInt64.size then .ok (UInt64.ofNat n) else .error (.overflow input) := by
  generalize hlowered : Text.lower (Text.trim input.toList) = lowered at h
  rw [parse, hlowered]
  cases h with
  | parts hnumber hd hunit =>
    cases hunit with
    | none =>
      rw [List.append_nil, splitUnit_number hnumber]
      exact scaled_of_denotes hnumber hd
    | letter hmem =>
      obtain ⟨unit, rfl, rfl⟩ := mem_unitLetters_iff.mp hmem
      rw [splitUnit_letter unit (.inl rfl)]
      simp only [Option.map_some, SizeUnit.ofLetter?_letter]
      exact scaled_of_denotes hnumber hd
    | marked hmem =>
      obtain ⟨unit, rfl, rfl⟩ := mem_unitLetters_iff.mp hmem
      rw [splitUnit_letter unit (.inr rfl)]
      simp only [Option.map_some, SizeUnit.ofLetter?_letter]
      exact scaled_of_denotes hnumber hd

/-- A text whose last letter is that of a unit, apart from a `b` after it, has this unit. -/
theorem denotesUnit_of_dropByteMark {unit : SizeUnit}
    (h : dropByteMark text = body ++ [unit.letter]) :
    ∃ rest, text = body ++ rest ∧ DenotesUnit rest unit.exponent := by
  have hmem := mem_unitLetters_iff.mpr ⟨unit, rfl, rfl⟩
  rcases dropByteMark_cases text with hself | ⟨front, c, -, hdrop, rfl⟩
  · exact ⟨_, hself.symm.trans h, .letter hmem⟩
  · obtain ⟨rfl, hc⟩ := List.append_inj' (hdrop.symm.trans h) rfl
    rw [List.cons.inj hc |>.1]
    exact ⟨_, rfl, .marked hmem⟩

/-- A `b` is not removed from a text that is a number without it. -/
theorem dropByteMark_eq_of_denotes (h : Text.Denotes (dropByteMark text) d) :
    dropByteMark text = text := by
  rcases dropByteMark_cases text with hself | ⟨body, c, hc, hdrop, -⟩
  · exact hself
  · obtain ⟨last, hlast, hdigit⟩ := h.exists_getLast?
    rw [hdrop, List.getLast?_concat, Option.some.injEq] at hlast
    rw [hlast, Text.isAlphabetic_of_isDigit hdigit] at hc
    contradiction

/-- What spells nothing is refused for its last letter or for the number. -/
theorem parse_of_not_spells (h : ∀ n, ¬Spells (Text.lower (Text.trim input.toList)) n) :
    parse input = .error (.unknownUnit input) ∨ parse input = .error (.notANumber input) := by
  generalize hlowered : Text.lower (Text.trim input.toList) = lowered at h
  rw [parse, hlowered]
  rcases splitUnit_cases (dropByteMark lowered) with ⟨body, c, hbody, hsplit⟩ | hsplit
  · rw [hsplit]
    cases hunit : SizeUnit.ofLetter? c with
    | none => simp [hunit]
    | some unit =>
      simp only [Option.map_some, hunit]
      refine .inr (scaled_of_not_denotes fun d hd hnumber => ?_)
      obtain rfl := SizeUnit.ofLetter?_eq_some_iff.mp hunit
      obtain ⟨rest, rfl, hrest⟩ := denotesUnit_of_dropByteMark hbody
      exact h _ (.parts hnumber hd hrest)
  · rw [hsplit]
    refine .inr (scaled_of_not_denotes fun d hd hnumber => ?_)
    rw [dropByteMark_eq_of_denotes hnumber] at hnumber
    have hplain : Spells (lowered ++ []) (d * 1024 ^ 0) := .parts hnumber hd .none
    rw [List.append_nil] at hplain
    exact h _ hplain

/-- What is not refused for its last letter or for the number spells a number of bytes. -/
theorem exists_spells (input : String) (hunit : parse input ≠ .error (.unknownUnit input))
    (hnumber : parse input ≠ .error (.notANumber input)) :
    ∃ n, Spells (Text.lower (Text.trim input.toList)) n := by
  apply Classical.byContradiction
  intro hnone
  exact (parse_of_not_spells fun n h => hnone ⟨n, h⟩).elim hunit hnumber

/-- A size is read from the texts that spell it. -/
theorem parse_eq_ok_iff {size : UInt64} :
    parse input = .ok size ↔ Spells (Text.lower (Text.trim input.toList)) size.toNat := by
  constructor
  · intro h
    obtain ⟨n, hspells⟩ := exists_spells input (by simp [h]) (by simp [h])
    rw [parse_of_spells hspells] at h
    split at h
    · next hsize =>
      rw [← Except.ok.inj h, UInt64.toNat_ofNat_of_lt' hsize]
      exact hspells
    · contradiction
  · intro hspells
    rw [parse_of_spells hspells, if_pos size.toNat_lt_size, UInt64.ofNat_toNat]

/-- Reading complains of the size when the text spells a number that needs more than 64 bits. -/
theorem parse_eq_overflow_iff :
    parse input = .error (.overflow input) ↔
      ∃ n, UInt64.size ≤ n ∧ Spells (Text.lower (Text.trim input.toList)) n := by
  constructor
  · intro h
    obtain ⟨n, hspells⟩ := exists_spells input (by simp [h]) (by simp [h])
    rw [parse_of_spells hspells] at h
    split at h
    · contradiction
    · next hsize => exact ⟨n, Nat.le_of_not_lt hsize, hspells⟩
  · intro ⟨n, hsize, hspells⟩
    rw [parse_of_spells hspells, if_neg (Nat.not_lt_of_le hsize)]

/-- A text that spells a number of bytes is in ASCII. -/
theorem Spells.isAscii (h : Spells text n) : ∀ c ∈ text, Text.IsAscii c := by
  have hletters : ∀ entry ∈ unitLetters, Text.IsAscii entry.1 := by decide
  have hb : Text.IsAscii 'b' := by decide
  cases h with
  | parts hnumber _ hunit =>
    intro c hc
    rcases List.mem_append.mp hc with hc | hc
    · rcases hnumber.isDigit_or_eq_plus c hc with hdigit | rfl
      · exact Text.isAscii_of_isDigit hdigit
      · decide
    · cases hunit with
      | none => contradiction
      | letter hmem =>
        rw [List.mem_singleton.mp hc]
        exact hletters _ hmem
      | marked hmem =>
        rcases List.mem_cons.mp hc with rfl | hc
        · exact hletters _ hmem
        · rw [List.mem_singleton.mp hc]
          exact hb

/-- All lower cases of a text spell the same. -/
theorem spells_iff_of_isLowerCase {characters lowered : List Char}
    (h : Text.IsLowerCase characters lowered) :
    Spells lowered n ↔ Spells (Text.lower characters) n := by
  constructor
  · intro hspells
    exact h.eq_lower (.inl hspells.isAscii) ▸ hspells
  · intro hspells
    rw [h.eq_lower (.inr hspells.isAscii)]
    exact hspells

end Size

end AccessPattern
