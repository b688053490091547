import AccessPattern.Proofs.Text
import AccessPattern.Timestamp.Reader
import Mathlib.Algebra.Group.Nat.Defs

/-!
# Points in time read back

A rendered point in time is read field by field: each field has a fixed number of digits or ends
where no digit follows, and the separators are no white space. Nothing is shifted, since it is
rendered in UTC.
-/

namespace AccessPattern.Timestamp

/-- The fields of a point in time are in range; the sixtieth second is a leap second. -/
structure IsValid (t : Timestamp) : Prop where
  date : t.date.isValid = true
  hour : t.hour ≤ 23
  minute : t.minute ≤ 59
  second : t.second ≤ 60
  nanosecond : t.nanosecond < 1000000000

/-- A month has 28 to 31 days. -/
theorem daysInMonth_bounds (year : Int) (month : Nat) :
    28 ≤ Date.daysInMonth year month ∧ Date.daysInMonth year month ≤ 31 := by
  rw [Date.daysInMonth]
  split
  · split <;> decide
  · split <;> decide

/-- A date is valid if it is a day of a month of a year in range. -/
theorem isValid_iff {date : Date} : date.isValid = true ↔
    (-262143 ≤ date.year ∧ date.year ≤ 262142) ∧ (1 ≤ date.month ∧ date.month ≤ 12) ∧
      1 ≤ date.day ∧ date.day ≤ Date.daysInMonth date.year date.month := by
  simp only [Date.isValid, Date.yearInRange, Bool.and_eq_true, decide_eq_true_eq, and_assoc]

/-- The day after a valid date is valid unless its year is out of range. -/
theorem isValid_next {date : Date} (h : date.isValid = true) (hyear : date.year < 262142) :
    date.next.isValid = true ∧ date.next.year ≤ date.year + 1 := by
  obtain ⟨⟨hleast, -⟩, ⟨hmonth, hmonth'⟩, -⟩ := isValid_iff.mp h
  have hfirst (year : Int) (month : Nat) : 1 ≤ Date.daysInMonth year month :=
    Nat.le_trans (by decide) (daysInMonth_bounds year month).1
  have hstays : date.year ≤ date.year + 1 := Int.le_add_one (Int.le_refl _)
  rw [isValid_iff, Date.next]
  split
  · next hlt =>
    exact ⟨⟨⟨hleast, Int.le_of_lt hyear⟩, ⟨hmonth, hmonth'⟩, Nat.le_add_left _ _, hlt⟩, hstays⟩
  · split
    · next hlt =>
      exact ⟨⟨⟨hleast, Int.le_of_lt hyear⟩, ⟨Nat.le_add_left _ _, hlt⟩, Nat.le_refl 1, hfirst _ _⟩,
        hstays⟩
    · exact ⟨⟨⟨Int.le_trans hleast hstays, hyear⟩, ⟨Nat.le_refl 1, Nat.le_add_left 1 11⟩,
        Nat.le_refl 1, hfirst _ _⟩, Int.le_refl _⟩

/-- The epoch is a valid point in time. -/
theorem isValid_epoch : epoch.IsValid := by
  constructor <;> decide

/-- The clock shows a valid point in time on each of the first days after the epoch, of which there
are enough for several centuries. -/
theorem isValid_afterEpoch {seconds nanoseconds : Nat} (hdays : seconds / 86400 ≤ 260000)
    (hnanoseconds : nanoseconds < 1000000000) : (afterEpoch seconds nanoseconds).IsValid := by
  have hdate (days : Nat) : days ≤ 260000 → (Nat.repeat Date.next days epoch.date).isValid = true ∧
      (Nat.repeat Date.next days epoch.date).year ≤ 1970 + days := by
    induction days with
    | zero => exact fun _ => ⟨isValid_epoch.date, Int.le_refl _⟩
    | succ days ih =>
      intro hle
      obtain ⟨hvalid, hyear⟩ := ih (by omega)
      obtain ⟨hnext, hlater⟩ := isValid_next hvalid (by omega)
      exact ⟨hnext, Int.le_trans hlater (by omega)⟩
  refine ⟨(hdate _ hdays).1, ?_, ?_, ?_, hnanoseconds⟩
  · simp only [afterEpoch]
    omega
  · simp only [afterEpoch]
    omega
  · simp only [afterEpoch]
    omega

/-- A padded number consists of digits. -/
theorem isDigit_of_mem_padded {width n : Nat} {c : Char} (h : c ∈ padded width n) :
    c.isDigit = true := by
  rcases List.mem_append.mp h with h | h
  · rw [List.eq_of_mem_replicate h]
    rfl
  · exact Text.isDigit_of_mem_digits h

/-- A padded number has a digit. -/
@[simp] theorem padded_ne_nil (width n : Nat) : padded width n ≠ [] := by
  rw [padded]
  exact List.append_ne_nil_of_right_ne_nil _ (Text.digits_ne_nil n)

/-- A number with no more digits than the width is padded to the width. -/
theorem length_padded {width n : Nat} (hwidth : 0 < width) (h : n < 10 ^ width) :
    (padded width n).length = width := by
  have hdigits : (Text.digits n).length ≤ width :=
    (Nat.length_toDigits_le_iff (by decide) hwidth).mpr h
  rw [padded, List.length_append, List.length_replicate]
  omega

/-- Padding does not change the value. -/
@[simp] theorem ofDigitChars_padded (width n : Nat) :
    Nat.ofDigitChars 10 (padded width n) 0 = n := by
  rw [padded, Nat.ofDigitChars_append, Nat.ofDigitChars_replicate_zero, Nat.mul_zero]
  exact Nat.ofDigitChars_ten_toDigits

/-- Digits are scanned up to the limit or up to where no digit follows. -/
theorem scanDigits_append {digits rest : List Char} {limit : Nat}
    (hdigits : ∀ c ∈ digits, c.isDigit = true) (hlimit : digits.length ≤ limit)
    (hstop : digits.length = limit ∨ ∀ c ∈ rest.head?, c.isDigit = false) :
    scanDigits limit (digits ++ rest) = (digits, rest) := by
  induction digits generalizing limit with
  | nil =>
    cases limit with
    | zero => rfl
    | succ limit =>
      cases rest with
      | nil => rfl
      | cons c rest =>
        have hc : c.isDigit = false := (hstop.resolve_left (by simp)) c rfl
        rw [List.nil_append, scanDigits, hc]
        rfl
  | cons c digits ih =>
    rw [List.length_cons] at hlimit hstop
    cases limit with
    | zero => omega
    | succ limit =>
      rw [List.forall_mem_cons] at hdigits
      rw [List.cons_append, scanDigits, if_pos hdigits.1,
        ih hdigits.2 (by omega) (hstop.imp_left (by omega))]

/-- A text that starts with a padded number opens with a digit. -/
theorem isDigit_of_padded_append_eq_cons {width n : Nat} {rest text : List Char} {c : Char}
    (h : padded width n ++ rest = c :: text) : c.isDigit = true := by
  rcases List.append_eq_cons_iff.mp h with ⟨hnil, -⟩ | ⟨tail, hcons, -⟩
  · exact absurd hnil (padded_ne_nil width n)
  · exact isDigit_of_mem_padded (by rw [hcons]; exact List.mem_cons_self)

/-- A text that opens with a digit opens with no white space. -/
@[simp] theorem trimStart_padded (width n : Nat) (rest : List Char) :
    Text.trimStart (padded width n ++ rest) = padded width n ++ rest := by
  apply Text.trimStart_eq_self
  intro c hc
  obtain ⟨text, htext⟩ := List.head?_eq_some_iff.mp hc
  exact Text.isBlank_of_isDigit (isDigit_of_padded_append_eq_cons htext)

/-- A number that is padded to the limit is scanned. -/
theorem scanNumber_padded {width n : Nat} (hwidth : 0 < width) (h : n < 10 ^ width)
    (rest : List Char) : scanNumber width (padded width n ++ rest) = some (n, rest) := by
  have hlength := length_padded hwidth h
  have hscan : scanDigits width (padded width n ++ rest) = (padded width n, rest) :=
    scanDigits_append (fun c hc => isDigit_of_mem_padded hc) (Nat.le_of_eq hlength) (.inl hlength)
  rw [scanNumber, trimStart_padded, hscan]
  split
  · next heq => exact absurd (Prod.mk.inj heq).1 (padded_ne_nil width n)
  · next heq =>
    obtain ⟨rfl, rfl⟩ := Prod.mk.inj heq
    simp

/-- A field of two digits is scanned if it lies in its bounds. -/
theorem scanField_padded {least greatest n : Nat} (hleast : least ≤ n) (hgreatest : n ≤ greatest)
    (h : n < 100) (rest : List Char) :
    scanField least greatest (padded 2 n ++ rest) = some (n, rest) := by
  rw [scanField, scanNumber_padded (by decide) h]
  simp [hleast, hgreatest]

/-- A separator that is no white space is skipped. -/
theorem skipSeparator_cons {c : Char} (h : Text.isBlank c = false) (rest : List Char) :
    skipSeparator c (c :: rest) = some rest := by
  have htrim : Text.trimStart (c :: rest) = c :: rest :=
    Text.trimStart_eq_self fun _ hc => Option.some.inj hc ▸ h
  rw [skipSeparator, htrim]
  exact if_pos rfl

/-- The digits after the sign of a year are scanned up to where no digit follows. -/
theorem signed_padded (n : Nat) {rest : List Char}
    (hrest : ∀ c ∈ rest.head?, c.isDigit = false) :
    scanYear.signed (padded 4 n ++ rest) = some (n, rest) := by
  have hscan : scanDigits (padded 4 n ++ rest).length (padded 4 n ++ rest) =
      (padded 4 n, rest) := by
    refine scanDigits_append (fun c hc => isDigit_of_mem_padded hc) ?_ (.inr hrest)
    rw [List.length_append]
    exact Nat.le_add_right _ _
  rw [scanYear.signed, hscan]
  split
  · next heq => exact absurd (Prod.mk.inj heq).1 (padded_ne_nil 4 n)
  · next heq =>
    obtain ⟨rfl, rfl⟩ := Prod.mk.inj heq
    simp

/-- A year within four digits is scanned without a sign. -/
theorem scanYear_padded {n : Nat} (h : n < 10000) (rest : List Char) :
    scanYear (padded 4 n ++ rest) = some ((n : Int), rest) := by
  have hnumber : scanNumber 4 (padded 4 n ++ rest) = some (n, rest) :=
    scanNumber_padded (by decide) h rest
  rw [scanYear, trimStart_padded]
  split
  · next heq => exact absurd (isDigit_of_padded_append_eq_cons heq) (by decide)
  · next heq => exact absurd (isDigit_of_padded_append_eq_cons heq) (by decide)
  · rw [hnumber]
    rfl

/-- A written year is scanned. -/
theorem scanYear_writeYear (year : Int) {rest : List Char}
    (hrest : ∀ c ∈ rest.head?, c.isDigit = false) :
    scanYear (writeYear year ++ rest) = some (year, rest) := by
  have hminus (text : List Char) : Text.trimStart ('-' :: text) = '-' :: text := rfl
  have hplus (text : List Char) : Text.trimStart ('+' :: text) = '+' :: text := rfl
  rw [writeYear]
  split
  · rw [scanYear_padded (by omega), Int.toNat_of_nonneg (by omega)]
  · split
    · rw [List.cons_append, scanYear, hminus]
      simp only [signed_padded _ hrest, Option.bind_eq_bind, Option.bind_some]
      change some (-(year.natAbs : Int), rest) = _
      rw [show -(year.natAbs : Int) = year by omega]
    · rw [List.cons_append, scanYear, hplus]
      simp only [signed_padded _ hrest, Option.bind_eq_bind, Option.bind_some]
      change some ((year.natAbs : Int), rest) = _
      rw [show (year.natAbs : Int) = year by omega]

/-- A fraction of so many digits is scanned up to the final letter. -/
theorem scanFraction_padded {width n : Nat} (hwidth : 0 < width) (hle : width ≤ 9)
    (h : n < 10 ^ width) :
    scanFraction ('.' :: padded width n ++ ['Z']) = some (n * 10 ^ (9 - width), ['Z']) := by
  have hlength := length_padded hwidth h
  have hscan : scanDigits 9 (padded width n ++ ['Z']) = (padded width n, ['Z']) :=
    scanDigits_append (fun c hc => isDigit_of_mem_padded hc) (by omega)
      (.inr fun c hc => Option.some.inj hc ▸ rfl)
  rw [List.cons_append, scanFraction, hscan]
  split
  · next heq => exact absurd (Prod.mk.inj heq).1 (padded_ne_nil width n)
  · next heq =>
    obtain ⟨rfl, rfl⟩ := Prod.mk.inj heq
    simp [hlength]

/-- A written fraction of a second is scanned up to the final letter. -/
theorem scanFraction_writeFraction {nanosecond : Nat} (h : nanosecond < 1000000000) :
    scanFraction (writeFraction nanosecond ++ ['Z']) = some (nanosecond, ['Z']) := by
  rw [writeFraction]
  split
  · next hzero =>
    rw [hzero]
    rfl
  · split
    · rw [scanFraction_padded (by decide) (by decide) (by omega)]
      simp only [Option.some.injEq, Prod.mk.injEq, and_true]
      omega
    · split
      · rw [scanFraction_padded (by decide) (by decide) (by omega)]
        simp only [Option.some.injEq, Prod.mk.injEq, and_true]
        omega
      · rw [scanFraction_padded (by decide) (by decide) (by omega)]
        simp

/-- A written valid date is scanned. -/
theorem scanDate_write {date : Date} (h : date.isValid = true) (rest : List Char) :
    scanDate (writeYear date.year ++ '-' :: (padded 2 date.month ++
      '-' :: (padded 2 date.day ++ rest))) = some (date, rest) := by
  obtain ⟨-, ⟨hmonth, hmonth'⟩, hday, hdays⟩ := isValid_iff.mp h
  have hday' : date.day ≤ 31 :=
    Nat.le_trans hdays (daysInMonth_bounds date.year date.month).2
  have hyear (text : List Char) :
      scanYear (writeYear date.year ++ '-' :: text) = some (date.year, '-' :: text) :=
    scanYear_writeYear date.year fun c hc => Option.some.inj hc ▸ rfl
  have hdash (text : List Char) : skipSeparator '-' ('-' :: text) = some text :=
    skipSeparator_cons rfl text
  have hmonths (text : List Char) := scanField_padded hmonth hmonth' (by omega) text
  have hday (text : List Char) := scanField_padded hday hday' (by omega) text
  simp [scanDate, hyear, hdash, hmonths, hday, h]

/-- A point in time that is not shifted stays the same. -/
theorem shiftMinutes_zero {t : Timestamp} (h : t.IsValid) : shiftMinutes t (-0) = t := by
  obtain ⟨date, hour, minute, second, nanosecond⟩ := t
  have hhour : hour ≤ 23 := h.hour
  have hminute : minute ≤ 59 := h.minute
  rw [shiftMinutes, if_neg (by dsimp only; omega), if_pos (by dsimp only; omega)]
  have htotal : ((hour : Int) * 60 + minute + -0).toNat = hour * 60 + minute := by omega
  rw [shiftMinutes.setClock, htotal]
  congr 1
  · omega
  · omega

/-- A written point in time whose fields are in range is read back. -/
theorem parse?_render {t : Timestamp} (h : t.IsValid) : parse? t.render = some t := by
  have hdate (text : List Char) := scanDate_write h.date text
  have hcolon (text : List Char) : skipSeparator ':' (':' :: text) = some text :=
    skipSeparator_cons rfl text
  have hfield {greatest n : Nat} (hle : n ≤ greatest) (hgreatest : greatest < 100)
      (text : List Char) : scanField 0 greatest (padded 2 n ++ text) = some (n, text) :=
    scanField_padded n.zero_le hle (Nat.lt_of_le_of_lt hle hgreatest) text
  have hhour (text : List Char) := hfield h.hour (by decide) text
  have hminute (text : List Char) := hfield h.minute (by decide) text
  have hsecond (text : List Char) := hfield h.second (by decide) text
  have hfraction := scanFraction_writeFraction h.nanosecond
  have hend (text : List Char) : skipDateEnd ('T' :: text) = some text := rfl
  have hoffset : scanOffset (Text.trimStart ['Z']) = some (0, []) := rfl
  have hshift : shiftMinutes ⟨t.date, t.hour, t.minute, t.second, t.nanosecond⟩ (-0) = t :=
    shiftMinutes_zero h
  simp only [parse?, render, String.toList_ofList, List.append_assoc, List.cons_append, hdate,
    hend, hhour, hcolon, hminute, hsecond, hfraction, hoffset, hshift, h.date,
    Option.bind_eq_bind, Option.bind_some]
  rfl

end AccessPattern.Timestamp
