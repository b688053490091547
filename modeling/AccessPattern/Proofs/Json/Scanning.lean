import AccessPattern.Json.Token
import AccessPattern.Json.Writer
import AccessPattern.Proofs.Text

/-!
# Scanning what was written

The tokens at the start of a written JSON text: strings with their escapes undone, numbers, and
single characters. A number ends where no further digit, fraction or exponent follows, which is
what `Delimited` says of the text after it.
-/

namespace AccessPattern.Json

/-- What a character is read as inside a string: control characters without a letter of their own
are written by their number. -/
def pieceOf (c : Char) : Piece :=
  if c < ' ' ∧ c ∉ ['\x08', '\x0c', '\n', '\r', '\t'] then .codeUnit c.toNat else .plain c

/-- A character that needs no escape is scanned as itself. -/
theorem scanString_plain {c : Char} (hquote : c ≠ '"') (hescape : c ≠ '\\') (hcontrol : ¬c < ' ')
    (rest : List Char) :
    scanString (c :: rest) =
      (scanString rest).map fun scanned => (.plain c :: scanned.1, scanned.2) := by
  rw [scanString, if_neg hcontrol]
  · cases scanString rest <;> rfl
  · exact hquote
  · exact fun _ _ _ _ _ h _ => hescape h
  · exact fun _ _ h _ => hescape h

/-- An escape of one letter is scanned as the character it stands for. -/
theorem scanString_letter {letter c : Char} (hletter : letter ≠ 'u')
    (h : escaped? letter = some c) (rest : List Char) :
    scanString ('\\' :: letter :: rest) =
      (scanString rest).map fun scanned => (.plain c :: scanned.1, scanned.2) := by
  rw [scanString, h]
  · cases scanString rest <;> rfl
  · exact fun _ _ _ _ _ h _ => hletter h

/-- An escape of a control character by its number is scanned as that number. -/
theorem scanString_number {c : Char} (h : c < ' ') (rest : List Char) :
    scanString ('\\' :: 'u' :: '0' :: '0' ::
        Text.hexDigit (c.toNat / 16) :: Text.hexDigit (c.toNat % 16) :: rest) =
      (scanString rest).map fun scanned => (.codeUnit c.toNat :: scanned.1, scanned.2) := by
  have hc : c.toNat < 32 := h
  have hhigh := Text.hexValue?_hexDigit (c.toNat / 16) (by omega)
  have hlow := Text.hexValue?_hexDigit (c.toNat % 16) (by omega)
  have hnumber : codeUnit? '0' '0' (Text.hexDigit (c.toNat / 16)) (Text.hexDigit (c.toNat % 16)) =
      some c.toNat := by
    rw [codeUnit?, hhigh, hlow]
    change some (((0 * 16 + 0) * 16 + c.toNat / 16) * 16 + c.toNat % 16) = _
    congr 1
    omega
  rw [scanString, hnumber]
  cases scanString rest <;> rfl

/-- A written character is scanned as its piece. -/
theorem scanString_escapeChar (c : Char) (rest : List Char) :
    scanString (escapeChar c ++ rest) =
      (scanString rest).map fun scanned => (pieceOf c :: scanned.1, scanned.2) := by
  unfold escapeChar
  split
  · next h => subst h; exact scanString_letter (by decide) rfl rest
  split
  · next h => subst h; exact scanString_letter (by decide) rfl rest
  split
  · next h => subst h; exact scanString_letter (by decide) rfl rest
  split
  · next h => subst h; exact scanString_letter (by decide) rfl rest
  split
  · next h => subst h; exact scanString_letter (by decide) rfl rest
  split
  · next h => subst h; exact scanString_letter (by decide) rfl rest
  split
  · next h => subst h; exact scanString_letter (by decide) rfl rest
  split
  · next hb hf hn hr ht hcontrol =>
    have hpiece : pieceOf c = .codeUnit c.toNat := by
      rw [pieceOf, if_pos]
      simp [hcontrol, hb, hf, hn, hr, ht]
    rw [hpiece]
    exact scanString_number hcontrol rest
  · next hquote hescape _ _ _ _ _ hcontrol =>
    have hpiece : pieceOf c = .plain c := if_neg fun h => hcontrol h.1
    rw [hpiece]
    exact scanString_plain hquote hescape hcontrol rest

/-- The piece of a character stands for it. -/
@[simp] theorem characters?_pieceOf (c : Char) (pieces : List Piece) :
    characters? (pieceOf c :: pieces) = (characters? pieces).map (c :: ·) := by
  unfold pieceOf
  split
  · next h =>
    have hc : c.toNat < 32 := h.1
    have hhigh : isHighSurrogate c.toNat = false := by
      simp [isHighSurrogate]; omega
    have hlow : isLowSurrogate c.toNat = false := by
      simp [isLowSurrogate]; omega
    rw [characters?.eq_def]
    simp [hhigh, hlow]
  · rfl

/-- The pieces of a text stand for the text. -/
@[simp] theorem characters?_map_pieceOf (text : List Char) :
    characters? (text.map pieceOf) = some text := by
  induction text with
  | nil => rfl
  | cons c text ih => simp [ih]

/-- The pieces of a text are scanned up to the closing quote. -/
theorem scanString_flatMap_escapeChar (text rest : List Char) :
    scanString (text.flatMap escapeChar ++ '"' :: rest) = some (text.map pieceOf, rest) := by
  induction text with
  | nil => rfl
  | cons c text ih =>
    rw [List.flatMap_cons, List.append_assoc, scanString_escapeChar, ih]
    rfl

/-- A quoted text is scanned as a string of that text. -/
theorem scanToken_quote (text : String) (rest : List Char) :
    scanToken (quote text ++ rest) = some (.string (some text), rest) := by
  have hquote : quote text ++ rest =
      '"' :: (text.toList.flatMap escapeChar ++ '"' :: rest) := by
    simp [quote]
  rw [hquote, scanToken, scanString_flatMap_escapeChar]
  simp

/-- A text cannot go on with a number that ends before it. -/
def Delimited (rest : List Char) : Prop :=
  ∀ c ∈ rest.head?, c.isDigit = false ∧ c ≠ '.' ∧ c ≠ 'e' ∧ c ≠ 'E'

/-- The digits before a text that cannot go on with them. -/
theorem spanDigits_append {digits rest : List Char} (hdigits : ∀ c ∈ digits, c.isDigit = true)
    (hrest : Delimited rest) : spanDigits (digits ++ rest) = (digits, rest) := by
  have htake : rest.takeWhile Char.isDigit = [] := by
    cases rest with
    | nil => rfl
    | cons c rest => simp [(hrest c rfl).1]
  have hdrop : rest.dropWhile Char.isDigit = rest := by
    cases rest with
    | nil => rfl
    | cons c rest => simp [(hrest c rfl).1]
  rw [spanDigits, List.takeWhile_append_of_pos hdigits, List.dropWhile_append_of_pos hdigits,
    htake, hdrop, List.append_nil]

/-- The digits of a number are scanned as the whole number. -/
theorem scanWhole_digits (n : Nat) {rest : List Char} (hrest : Delimited rest) :
    scanWhole (Text.digits n ++ rest) = some (n, rest) := by
  have hspan : spanDigits (Text.digits n ++ rest) = (Text.digits n, rest) :=
    spanDigits_append (fun c hc => Text.isDigit_of_mem_digits hc) hrest
  rcases Nat.eq_zero_or_pos n with rfl | hpos
  · rfl
  · have hzero := Text.head?_digits_ne_zero hpos
    cases hdigits : Text.digits n with
    | nil => exact absurd hdigits (Text.digits_ne_nil n)
    | cons c digits =>
      have hvalue : Nat.ofDigitChars 10 (c :: digits) 0 = n := by
        rw [← hdigits]
        exact Nat.ofDigitChars_ten_toDigits
      rw [hdigits] at hzero hspan
      rw [List.cons_append, scanWhole, ← List.cons_append, hspan]
      · simp only [hvalue]
      · exact fun _ heq => hzero (congrArg some (List.cons.inj heq).1)

/-- A delimited text opens with no fraction. -/
theorem scanFraction_delimited {rest : List Char} (hrest : Delimited rest) :
    scanFraction rest = some (false, rest) := by
  cases rest with
  | nil => rfl
  | cons c rest =>
    rw [scanFraction]
    exact fun _ h => (hrest c rfl).2.1 (List.cons.inj h).1

/-- A delimited text opens with no exponent. -/
theorem scanExponent_delimited {rest : List Char} (hrest : Delimited rest) :
    scanExponent rest = some (false, rest) := by
  cases rest with
  | nil => rfl
  | cons c rest =>
    obtain ⟨-, -, hlower, hupper⟩ := hrest c rfl
    rw [scanExponent, if_neg (not_or.mpr ⟨hlower, hupper⟩)]

/-- A digit opens a number and no other token. -/
theorem scanToken_of_isDigit {c : Char} (h : c.isDigit = true) (rest : List Char) :
    scanToken (c :: rest) = scanNumber (c :: rest) := by
  rw [scanToken.eq_def]
  split
  all_goals first
    | rfl
    | next heq =>
      rw [(List.cons.inj heq).1] at h
      contradiction

/-- The digits of a number are scanned as a natural number. -/
theorem scanToken_digits (n : Nat) {rest : List Char} (hrest : Delimited rest) :
    scanToken (Text.digits n ++ rest) = some (.natural n, rest) := by
  have hnumber : scanNumber (Text.digits n ++ rest) = some (.natural n, rest) := by
    rw [scanNumber, scanWhole_digits n hrest]
    simp only [Option.bind_eq_bind, Option.bind_some, scanFraction_delimited hrest,
      scanExponent_delimited hrest]
    rfl
  cases hdigits : Text.digits n with
  | nil => exact absurd hdigits (Text.digits_ne_nil n)
  | cons c digits =>
    have hc : c.isDigit = true :=
      Text.isDigit_of_mem_digits (hdigits ▸ List.mem_cons_self)
    rw [List.cons_append, scanToken_of_isDigit hc, ← List.cons_append, ← hdigits, hnumber]

end AccessPattern.Json
