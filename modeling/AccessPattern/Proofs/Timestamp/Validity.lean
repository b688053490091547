import AccessPattern.Proofs.Timestamp

/-!
# Points in time that can be read

Whatever text is read, the point in time it gives exists: each field is scanned within its bounds, a
fraction has nine digits at most, and an offset from UTC is less than a day, so that shifting by it
leaves a time of day in bounds; the shifted date is looked at last. Together with reading back what
is rendered this says which points in time there are texts of.
-/

namespace AccessPattern.Timestamp

/-- What is scanned as digits are digits, no more than the limit. -/
theorem scanDigits_fst (limit : Nat) (text : List Char) :
    (∀ c ∈ (scanDigits limit text).1, c.isDigit = true) ∧
      (scanDigits limit text).1.length ≤ limit := by
  fun_induction scanDigits limit text with
  | case1 limit c rest hdigit digits later hscan ih =>
    rw [hscan] at ih
    exact ⟨List.forall_mem_cons.mpr ⟨hdigit, ih.1⟩, Nat.succ_le_succ ih.2⟩
  | case2 => simp
  | case3 => simp

/-- A field that is scanned lies in its bounds. -/
theorem bounds_of_scanField {least greatest value : Nat} {text rest : List Char}
    (h : scanField least greatest text = some (value, rest)) :
    least ≤ value ∧ value ≤ greatest := by
  simp only [scanField, Option.bind_eq_bind, Option.bind_eq_some_iff, Prod.exists] at h
  obtain ⟨found, later, -, hbounds⟩ := h
  split at hbounds
  · next hfound =>
    obtain ⟨rfl, rfl⟩ := Prod.mk.inj (Option.some.inj hbounds)
    exact hfound
  · contradiction

/-- A fraction that is scanned is less than a second. -/
theorem lt_of_scanFraction {text rest : List Char} {nanosecond : Nat}
    (h : scanFraction text = some (nanosecond, rest)) : nanosecond < 1000000000 := by
  unfold scanFraction at h
  split at h
  · next later =>
    obtain ⟨hdigits, hlength⟩ := scanDigits_fst 9 later
    split at h
    · contradiction
    · next digits following _ hscan =>
      rw [hscan] at hdigits hlength
      obtain ⟨rfl, -⟩ := Prod.mk.inj (Option.some.inj h)
      calc Nat.ofDigitChars 10 digits 0 * 10 ^ (9 - digits.length)
          < 10 ^ digits.length * 10 ^ (9 - digits.length) :=
            Nat.mul_lt_mul_of_pos_right (Text.ofDigitChars_lt hdigits) (Nat.pow_pos (by decide))
        _ = 10 ^ 9 := by rw [← Nat.pow_add, Nat.add_sub_cancel' hlength]
  · obtain ⟨rfl, -⟩ := Prod.mk.inj (Option.some.inj h)
    decide

/-- An offset from UTC that is scanned is less than a day. -/
theorem bounds_of_scanOffset {text rest : List Char} {minutes : Int}
    (h : scanOffset text = some (minutes, rest)) : -1440 < minutes ∧ minutes < 1440 := by
  have hzero {later : List Char} (hsome : some ((0 : Int), later) = some (minutes, rest)) :
      -1440 < minutes ∧ minutes < 1440 := by
    obtain ⟨rfl, -⟩ := Prod.mk.inj (Option.some.inj hsome)
    decide
  unfold scanOffset at h
  split at h
  · exact hzero h
  · split at h
    · exact hzero h
    · exact hzero h
    · simp only [Option.bind_eq_bind, Option.bind_eq_some_iff, Prod.exists] at h
      obtain ⟨negative, _, -, hours, _, -, tail, _, -, hsum⟩ := h
      split at hsum
      · next hclock =>
        obtain ⟨rfl, -⟩ := Prod.mk.inj (Option.some.inj hsum)
        cases negative with
        | true => simp only [if_true]; omega
        | false => simp only [Bool.false_eq_true, if_false]; omega
      · contradiction

/-- Setting the clock to a minute of the day keeps the time of day in bounds. -/
theorem isValid_setClock {t : Timestamp} {date : Date} {minute : Int}
    (hsecond : t.second ≤ 60) (hnanosecond : t.nanosecond < 1000000000) (hminute : minute < 1440)
    (hdate : (shiftMinutes.setClock t date minute).date.isValid = true) :
    (shiftMinutes.setClock t date minute).IsValid := by
  refine ⟨hdate, ?_, ?_, hsecond, hnanosecond⟩
  · simp only [shiftMinutes.setClock]
    omega
  · simp only [shiftMinutes.setClock]
    omega

/-- Shifting by less than a day keeps the time of day in bounds, so that the date decides whether the
point in time exists. -/
theorem isValid_shiftMinutes {t : Timestamp} {minutes : Int} (hhour : t.hour ≤ 23)
    (hminute : t.minute ≤ 59) (hsecond : t.second ≤ 60) (hnanosecond : t.nanosecond < 1000000000)
    (hminutes : minutes < 1440) (hdate : (shiftMinutes t minutes).date.isValid = true) :
    (shiftMinutes t minutes).IsValid := by
  unfold shiftMinutes at hdate ⊢
  dsimp only at hdate ⊢
  split at hdate
  · next hbefore =>
    rw [if_pos hbefore]
    exact isValid_setClock hsecond hnanosecond (by omega) hdate
  · next hbefore =>
    rw [if_neg hbefore]
    split at hdate
    · next hsame =>
      rw [if_pos hsame]
      exact isValid_setClock hsecond hnanosecond hsame hdate
    · next hafter =>
      rw [if_neg hafter]
      exact isValid_setClock hsecond hnanosecond (by omega) hdate

/-- A point in time that is read exists. -/
theorem isValid_of_parse? {text : String} {t : Timestamp} (h : parse? text = some t) :
    t.IsValid := by
  simp only [parse?, Option.bind_eq_bind, Option.bind_eq_some_iff, Prod.exists] at h
  obtain ⟨date, _, -, _, -, hour, _, hhour, _, -, minute, _, hminute, _, -, second, _, hsecond,
    nanosecond, _, hnanosecond, offset, _, hoffset, hend⟩ := h
  have hminutes := bounds_of_scanOffset hoffset
  split at hend
  · next hdate =>
    obtain rfl := Option.some.inj hend
    exact isValid_shiftMinutes (bounds_of_scanField hhour).2 (bounds_of_scanField hminute).2
      (bounds_of_scanField hsecond).2 (lt_of_scanFraction hnanosecond) (by omega) hdate.2
  · contradiction

/-- The points in time that there are texts of are those that exist. -/
theorem exists_parse?_eq_some_iff {t : Timestamp} : (∃ text, parse? text = some t) ↔ t.IsValid :=
  ⟨fun ⟨_, h⟩ => isValid_of_parse? h, fun h => ⟨t.render, parse?_render h⟩⟩

end AccessPattern.Timestamp
