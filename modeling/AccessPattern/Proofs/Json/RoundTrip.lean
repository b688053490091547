import AccessPattern.Json.Reader
import AccessPattern.Proofs.Json.Scanning

/-!
# Written JSON read back

Writing a value and scanning the text gives the tokens of the value, whatever the indentation; and
reading these tokens gives the value again. A string or key that is missing is written as an empty
text, so that is what is read in its place.

Both statements are about a value followed by more, which makes each of them one recursion over the
value, its items and its members.
-/

namespace AccessPattern.Json

/-- The text is scanned into the tokens, given enough steps. -/
def Scans (text : List Char) (tokens : List Token) : Prop :=
  ∀ steps, text.length ≤ steps → scanWithin steps text = some tokens

/-- A text is scanned in as many steps as it has characters. -/
theorem Scans.scan {text : List Char} {tokens : List Token} (h : Scans text tokens) :
    scan text = some tokens :=
  h text.length (Nat.le_refl _)

/-- An empty text has no tokens. -/
theorem Scans.nil : Scans [] [] := by
  intro steps _
  cases steps <;> rfl

/-- Blanks between tokens are skipped. -/
theorem Scans.blank {c : Char} {rest : List Char} {tokens : List Token} (hblank : isBlank c = true)
    (h : Scans rest tokens) : Scans (c :: rest) tokens := by
  intro steps hsteps
  cases steps with
  | zero => contradiction
  | succ steps =>
    rw [scanWithin, if_pos hblank]
    exact h steps (Nat.le_of_succ_le_succ hsteps)

/-- A token and what follows it. -/
theorem Scans.token {c : Char} {text rest : List Char} {token : Token} {tokens : List Token}
    (hhead : text.head? = some c) (hblank : isBlank c = false)
    (htoken : scanToken (text ++ rest) = some (token, rest)) (h : Scans rest tokens) :
    Scans (text ++ rest) (token :: tokens) := by
  obtain ⟨later, rfl⟩ : ∃ later, text = c :: later := List.head?_eq_some_iff.mp hhead
  intro steps hsteps
  rw [List.cons_append, List.length_cons, List.length_append] at hsteps
  cases steps with
  | zero => contradiction
  | succ steps =>
    rw [List.cons_append] at htoken ⊢
    rw [scanWithin, hblank, htoken]
    simp only [Bool.false_eq_true, if_false, Option.bind_eq_bind, Option.bind_some,
      h steps (by omega)]
    rfl

/-- A token of a single character. -/
theorem Scans.mark {c : Char} {rest : List Char} {token : Token} {tokens : List Token}
    (hblank : isBlank c = false) (htoken : scanToken (c :: rest) = some (token, rest))
    (h : Scans rest tokens) : Scans (c :: rest) (token :: tokens) :=
  show Scans ([c] ++ rest) (token :: tokens) from Scans.token rfl hblank htoken h

/-- A quoted text. -/
theorem Scans.quote (text : String) {rest : List Char} {tokens : List Token}
    (h : Scans rest tokens) : Scans (quote text ++ rest) (.string (some text) :: tokens) :=
  Scans.token (c := '"') (by simp [Json.quote]) rfl (scanToken_quote text rest) h

/-- The digits of a number. -/
theorem Scans.digits (n : Nat) {rest : List Char} {tokens : List Token}
    (hrest : Delimited rest) (h : Scans rest tokens) :
    Scans (Text.digits n ++ rest) (.natural n :: tokens) := by
  cases hdigits : (Text.digits n).head? with
  | none => exact absurd (List.head?_eq_none_iff.mp hdigits) (Text.digits_ne_nil n)
  | some c =>
    have hrange := Text.toNat_of_isDigit (Text.isDigit_of_mem_digits (List.mem_of_mem_head? hdigits))
    have hblank : isBlank c = false := by
      simp only [isBlank, Bool.or_eq_false_iff, beq_eq_false_iff_ne]
      refine ⟨⟨⟨?_, ?_⟩, ?_⟩, ?_⟩ <;> rintro rfl <;> simp at hrange
    exact Scans.token hdigits hblank (scanToken_digits n hrest) h

/-- A line break and its indentation are skipped. -/
theorem Scans.breakLine {rest : List Char} {tokens : List Token} (h : Scans rest tokens)
    (level : Nat) : Scans (breakLine level ++ rest) tokens := by
  apply Scans.blank rfl
  generalize 2 * level = width
  induction width with
  | zero => exact h
  | succ width ih => exact Scans.blank rfl ih

mutual

/-- The tokens that a value is written as. -/
def tokens : Json → List Token
  | .null => [.null]
  | .boolean value => [.boolean value]
  | .natural value => [.natural value]
  | .otherNumber => [.otherNumber]
  | .string text => [.string (some (text.getD ""))]
  | .array items => .openBracket :: itemTokens items ++ [.closeBracket]
  | .object members => .openBrace :: memberTokens members ++ [.closeBrace]

/-- The tokens of items with commas between them. -/
def itemTokens : List Json → List Token
  | [] => []
  | [item] => tokens item
  | item :: items => tokens item ++ .comma :: itemTokens items

/-- The tokens of members with commas between them. -/
def memberTokens : List (Option String × Json) → List Token
  | [] => []
  | [(key, value)] => .string (some (key.getD "")) :: .colon :: tokens value
  | (key, value) :: members =>
    .string (some (key.getD "")) :: .colon :: tokens value ++ .comma :: memberTokens members

end

mutual

/-- The value with an empty text for every string or key that is missing. -/
def withTexts : Json → Json
  | .null => .null
  | .boolean value => .boolean value
  | .natural value => .natural value
  | .otherNumber => .otherNumber
  | .string text => .text (text.getD "")
  | .array items => .array (itemsWithTexts items)
  | .object members => .object (membersWithTexts members)

/-- The items with an empty text for every string or key that is missing. -/
def itemsWithTexts : List Json → List Json
  | [] => []
  | item :: items => withTexts item :: itemsWithTexts items

/-- The members with an empty text for every string or key that is missing. -/
def membersWithTexts : List (Option String × Json) → List (Option String × Json)
  | [] => []
  | (key, value) :: members => (some (key.getD ""), withTexts value) :: membersWithTexts members

end

/-- A comma delimits. -/
theorem delimited_comma (rest : List Char) : Delimited (',' :: rest) := by
  simp [Delimited]

/-- A line break delimits. -/
theorem delimited_breakLine (level : Nat) (rest : List Char) :
    Delimited (breakLine level ++ rest) := by
  simp [Delimited, breakLine]

/-- A zero with a fraction is no natural number. -/
theorem scanToken_zeroFraction {rest : List Char} (hrest : Delimited rest) :
    scanToken (['0', '.', '0'] ++ rest) = some (.otherNumber, rest) := by
  have hspan : spanDigits (['0'] ++ rest) = (['0'], rest) :=
    spanDigits_append (fun c hc => List.mem_singleton.mp hc ▸ rfl) hrest
  have hfraction : scanFraction (['.', '0'] ++ rest) = some (true, rest) := by
    rw [List.cons_append, scanFraction, hspan]
  have hwhole : scanWhole (['0', '.', '0'] ++ rest) = some (0, ['.', '0'] ++ rest) := rfl
  rw [List.cons_append, scanToken_of_isDigit rfl, ← List.cons_append, scanNumber, hwhole]
  simp only [Option.bind_eq_bind, Option.bind_some, hfraction, scanExponent_delimited hrest]
  rfl

mutual

/-- A written value is scanned into its tokens. -/
theorem scans_write : ∀ (value : Json) (level : Nat) {rest : List Char} {more : List Token},
    Delimited rest → Scans rest more → Scans (write level value ++ rest) (tokens value ++ more)
  | .null, _, _, _, _, h => Scans.token (c := 'n') rfl rfl rfl h
  | .boolean true, _, _, _, _, h => Scans.token (c := 't') rfl rfl rfl h
  | .boolean false, _, _, _, _, h => Scans.token (c := 'f') rfl rfl rfl h
  | .natural n, _, _, _, hrest, h => Scans.digits n hrest h
  | .otherNumber, _, _, _, hrest, h =>
    Scans.token (c := '0') rfl rfl (scanToken_zeroFraction hrest) h
  | .string text, _, _, _, _, h => Scans.quote (text.getD "") h
  | .array [], _, _, _, _, h => Scans.mark rfl rfl (Scans.mark rfl rfl h)
  | .array (item :: items), level, rest, more, _, h => by
    have hclose : Scans (']' :: rest) (.closeBracket :: more) := Scans.mark rfl rfl h
    have hitems := scans_writeItems (item :: items) (level + 1)
      (delimited_breakLine level (']' :: rest)) (hclose.breakLine level)
    have htext : write level (.array (item :: items)) ++ rest =
        '[' :: (writeItems (level + 1) (item :: items) ++ (breakLine level ++ ']' :: rest)) := by
      simp [write]
    have htokens : tokens (.array (item :: items)) ++ more =
        .openBracket :: (itemTokens (item :: items) ++ .closeBracket :: more) := by
      simp [tokens]
    rw [htext, htokens]
    exact Scans.mark rfl rfl hitems
  | .object [], _, _, _, _, h => Scans.mark rfl rfl (Scans.mark rfl rfl h)
  | .object (member :: members), level, rest, more, _, h => by
    have hclose : Scans ('}' :: rest) (.closeBrace :: more) := Scans.mark rfl rfl h
    have hmembers := scans_writeMembers (member :: members) (level + 1)
      (delimited_breakLine level ('}' :: rest)) (hclose.breakLine level)
    have htext : write level (.object (member :: members)) ++ rest =
        '{' :: (writeMembers (level + 1) (member :: members) ++
          (breakLine level ++ '}' :: rest)) := by
      simp [write]
    have htokens : tokens (.object (member :: members)) ++ more =
        .openBrace :: (memberTokens (member :: members) ++ .closeBrace :: more) := by
      simp [tokens]
    rw [htext, htokens]
    exact Scans.mark rfl rfl hmembers

/-- Written items are scanned into their tokens. -/
theorem scans_writeItems : ∀ (items : List Json) (level : Nat) {rest : List Char}
    {more : List Token}, Delimited rest → Scans rest more →
    Scans (writeItems level items ++ rest) (itemTokens items ++ more)
  | [], _, _, _, _, h => h
  | [item], level, rest, more, hrest, h => by
    rw [writeItems, List.append_assoc, itemTokens]
    exact (scans_write item level hrest h).breakLine level
  | item :: next :: items, level, rest, more, hrest, h => by
    have hlater := scans_writeItems (next :: items) level hrest h
    have hcomma : Scans (',' :: (writeItems level (next :: items) ++ rest))
        (.comma :: (itemTokens (next :: items) ++ more)) := Scans.mark rfl rfl hlater
    have hitem := (scans_write item level (delimited_comma _) hcomma).breakLine level
    simpa [writeItems, itemTokens] using hitem

/-- Written members are scanned into their tokens. -/
theorem scans_writeMembers : ∀ (members : List (Option String × Json)) (level : Nat)
    {rest : List Char} {more : List Token}, Delimited rest → Scans rest more →
    Scans (writeMembers level members ++ rest) (memberTokens members ++ more)
  | [], _, _, _, _, h => h
  | [(key, value)], level, rest, more, hrest, h => by
    have hvalue : Scans (':' :: ' ' :: (write level value ++ rest))
        (.colon :: (tokens value ++ more)) :=
      Scans.mark rfl rfl (Scans.blank rfl (scans_write value level hrest h))
    have hmember := (Scans.quote (key.getD "") hvalue).breakLine level
    simpa [writeMembers, memberTokens] using hmember
  | (key, value) :: next :: members, level, rest, more, hrest, h => by
    have hlater := scans_writeMembers (next :: members) level hrest h
    have hcomma : Scans (',' :: (writeMembers level (next :: members) ++ rest))
        (.comma :: (memberTokens (next :: members) ++ more)) := Scans.mark rfl rfl hlater
    have hvalue : Scans (':' :: ' ' :: (write level value ++
        ',' :: (writeMembers level (next :: members) ++ rest)))
        (.colon :: (tokens value ++ .comma :: (memberTokens (next :: members) ++ more))) :=
      Scans.mark rfl rfl (Scans.blank rfl (scans_write value level (delimited_comma _) hcomma))
    have hmember := (Scans.quote (key.getD "") hvalue).breakLine level
    simpa [writeMembers, memberTokens] using hmember

end

/-- A value has a token. -/
theorem length_tokens_pos (value : Json) : 0 < (tokens value).length := by
  cases value <;> simp [tokens]

/-- A value does not open with a closing bracket. -/
theorem head?_itemTokens_ne_closeBracket (item : Json) (items : List Json) (rest : List Token) :
    (itemTokens (item :: items) ++ rest).head? ≠ some .closeBracket := by
  cases items <;> cases item <;> simp [itemTokens, tokens]

/-- A member does not open with a closing brace. -/
theorem head?_memberTokens_ne_closeBrace (member : Option String × Json)
    (members : List (Option String × Json)) (rest : List Token) :
    (memberTokens (member :: members) ++ rest).head? ≠ some .closeBrace := by
  cases members <;> simp [memberTokens]

/-- An array that does not close at once is read item by item. -/
theorem readValue_openBracket {depth : Nat} {rest : List Token}
    (h : rest.head? ≠ some .closeBracket) :
    readValue (depth + 1) (.openBracket :: rest) =
      (readItems depth rest).map fun read => (.array read.1, read.2) := by
  rw [readValue]
  · cases readItems depth rest <;> rfl
  · exact fun later heq => h (heq ▸ rfl)

/-- An object that does not close at once is read member by member. -/
theorem readValue_openBrace {depth : Nat} {rest : List Token}
    (h : rest.head? ≠ some .closeBrace) :
    readValue (depth + 1) (.openBrace :: rest) =
      (readMembers depth rest).map fun read => (.object read.1, read.2) := by
  rw [readValue]
  · cases readMembers depth rest <;> rfl
  · exact fun later heq => h (heq ▸ rfl)

mutual

/-- The tokens of a value are read as the value. -/
theorem readValue_tokens : ∀ (value : Json) (depth : Nat) (rest : List Token),
    (tokens value).length ≤ depth →
    readValue depth (tokens value ++ rest) = some (withTexts value, rest)
  | value, 0, _, h => absurd (length_tokens_pos value) (Nat.not_lt_of_le h)
  | .null, _ + 1, _, _ => rfl
  | .boolean _, _ + 1, _, _ => rfl
  | .natural _, _ + 1, _, _ => rfl
  | .otherNumber, _ + 1, _, _ => rfl
  | .string _, _ + 1, _, _ => rfl
  | .array [], _ + 1, _, _ => rfl
  | .array (item :: items), depth + 1, rest, h => by
    have htokens : tokens (.array (item :: items)) ++ rest =
        .openBracket :: (itemTokens (item :: items) ++ .closeBracket :: rest) := by
      simp [tokens]
    have hdepth : (itemTokens (item :: items)).length < depth := by
      simp only [tokens, List.length_append, List.length_cons, List.length_nil] at h
      omega
    rw [htokens, readValue_openBracket (head?_itemTokens_ne_closeBracket item items _),
      readItems_itemTokens item items depth rest hdepth]
    rfl
  | .object [], _ + 1, _, _ => rfl
  | .object (member :: members), depth + 1, rest, h => by
    have htokens : tokens (.object (member :: members)) ++ rest =
        .openBrace :: (memberTokens (member :: members) ++ .closeBrace :: rest) := by
      simp [tokens]
    have hdepth : (memberTokens (member :: members)).length < depth := by
      simp only [tokens, List.length_append, List.length_cons, List.length_nil] at h
      omega
    rw [htokens, readValue_openBrace (head?_memberTokens_ne_closeBrace member members _),
      readMembers_memberTokens member members depth rest hdepth]
    rfl

/-- The tokens of items and a closing bracket are read as the items. -/
theorem readItems_itemTokens : ∀ (item : Json) (items : List Json) (depth : Nat)
    (rest : List Token), (itemTokens (item :: items)).length < depth →
    readItems depth (itemTokens (item :: items) ++ .closeBracket :: rest) =
      some (itemsWithTexts (item :: items), rest)
  | _, _, 0, _, h => absurd h (Nat.not_lt_zero _)
  | item, [], depth + 1, rest, h => by
    rw [itemTokens] at h ⊢
    rw [readItems, readValue_tokens item depth _ (Nat.le_of_lt_succ h)]
    rfl
  | item, next :: items, depth + 1, rest, h => by
    have hcons : itemTokens (item :: next :: items) =
        tokens item ++ .comma :: itemTokens (next :: items) := rfl
    rw [hcons, List.length_append, List.length_cons] at h
    have hitem := readValue_tokens item depth
      (.comma :: (itemTokens (next :: items) ++ .closeBracket :: rest)) (by omega)
    have hlater := readItems_itemTokens next items depth rest (by omega)
    rw [hcons, List.append_assoc, List.cons_append, readItems, hitem]
    simp only [Option.bind_eq_bind, Option.bind_some, hlater]
    rfl

/-- The tokens of members and a closing brace are read as the members. -/
theorem readMembers_memberTokens : ∀ (member : Option String × Json)
    (members : List (Option String × Json)) (depth : Nat) (rest : List Token),
    (memberTokens (member :: members)).length < depth →
    readMembers depth (memberTokens (member :: members) ++ .closeBrace :: rest) =
      some (membersWithTexts (member :: members), rest)
  | _, _, 0, _, h => absurd h (Nat.not_lt_zero _)
  | (key, value), [], depth + 1, rest, h => by
    rw [memberTokens, List.length_cons, List.length_cons] at h
    rw [memberTokens, List.cons_append, List.cons_append, readMembers,
      readValue_tokens value depth _ (by omega)]
    rfl
  | (key, value), next :: members, depth + 1, rest, h => by
    have hcons : memberTokens ((key, value) :: next :: members) =
        .string (some (key.getD "")) :: .colon :: tokens value ++
          .comma :: memberTokens (next :: members) := rfl
    rw [hcons, List.length_append, List.length_cons, List.length_cons, List.length_cons] at h
    have hvalue := readValue_tokens value depth
      (.comma :: (memberTokens (next :: members) ++ .closeBrace :: rest)) (by omega)
    have hlater := readMembers_memberTokens next members depth rest (by omega)
    rw [hcons, List.append_assoc, List.cons_append, List.cons_append, List.cons_append,
      readMembers, hvalue]
    simp only [Option.bind_eq_bind, Option.bind_some, hlater]
    rfl

end

/-- A written value is read as the value, at any indentation and with blanks after it. -/
theorem read?_write (value : Json) (level : Nat) {rest : List Char} (hrest : Delimited rest)
    (hblank : Scans rest []) : read? (write level value ++ rest) = some (withTexts value) := by
  have hscan := (scans_write value level hrest hblank).scan
  have hread := readValue_tokens value (2 * (tokens value).length + 2) [] (by omega)
  rw [List.append_nil] at hscan hread
  rw [read?, hscan]
  simp only [Option.bind_eq_bind, Option.bind_some, hread]
  rfl

end AccessPattern.Json
