import AccessPattern.Toml.Document
import Mathlib.Algebra.Group.Nat.Defs

/-!
# Writing TOML documents

Every text can stand as a value in a document, whatever characters it has: written between quotes,
with each character as an escape, it is read back. So can a list of texts, and a document with such
a value under a single key of a single table is read as just that.
-/

namespace AccessPattern.Toml

/-- The last so many hexadecimal digits of a number. -/
def hexDigits : Nat → Nat → List Char
  | 0, _ => []
  | places + 1, n => hexDigits places (n / 16) ++ [Text.hexDigit (n % 16)]

/-- A character as an escape. -/
def escape (c : Char) : List Char :=
  '\\' :: 'U' :: hexDigits 8 c.toNat

/-- A text as a basic string in which all characters are escaped. -/
def quote (text : String) : List Char :=
  '"' :: (text.toList.flatMap escape ++ ['"'])

/-- Hexadecimal digits have values, which make up the number as far as the digits go. -/
theorem exists_values_hexDigits (places n : Nat) :
    ∃ values, (hexDigits places n).mapM Text.hexValue? = some values ∧
      values.foldl (fun total digit => total * 16 + digit) 0 = n % 16 ^ places := by
  induction places generalizing n with
  | zero => exact ⟨[], rfl, (Nat.mod_one n).symm⟩
  | succ places ih =>
    obtain ⟨values, hvalues, htotal⟩ := ih (n / 16)
    refine ⟨values ++ [n % 16], ?_, ?_⟩
    · have hdigit := Text.hexValue?_hexDigit _ (Nat.mod_lt n (by decide : 0 < 16))
      rw [hexDigits, List.mapM_append, hvalues, List.mapM_cons, hdigit]
      rfl
    · rw [List.foldl_append, htotal, List.foldl_cons, List.foldl_nil, Nat.pow_succ', Nat.mod_mul,
        Nat.mul_comm, Nat.add_comm]

/-- Eight digits of the code point of a character give the character. -/
theorem codePoint?_hexDigits (c : Char) : codePoint? (hexDigits 8 c.toNat) = some c := by
  obtain ⟨values, hvalues, htotal⟩ := exists_values_hexDigits 8 c.toNat
  have hvalid : c.toNat.isValidChar := c.valid
  have hbound : c.toNat < 16 ^ 8 := by
    unfold Nat.isValidChar at hvalid
    omega
  rw [Nat.mod_eq_of_lt hbound] at htotal
  rw [codePoint?, hvalues, Option.bind_eq_bind, Option.bind_some, htotal, if_pos hvalid,
    Char.ofNat_toNat]
  rfl

/-- Escapes up to the closing quote give the characters. -/
theorem scanBasic_escape (chars rest : List Char) :
    scanBasic (chars.flatMap escape ++ '"' :: rest) = some (chars, rest) := by
  induction chars with
  | nil => rfl
  | cons c chars ih =>
    have hstep : scanBasic (escape c ++ (chars.flatMap escape ++ '"' :: rest)) =
        codePoint? (hexDigits 8 c.toNat) >>= fun char =>
          scanBasic (chars.flatMap escape ++ '"' :: rest) >>= fun scanned =>
            some (char :: scanned.1, scanned.2) := rfl
    rw [List.flatMap_cons, List.append_assoc, hstep, codePoint?_hexDigits, ih]
    rfl

/-- A quoted text is scanned as a value, if no further quote follows. After an empty text such a
quote would be the third, which opens a string on several lines. -/
theorem scanValue_quote (levels : Nat) (text : String) {c : Char} (hc : c ≠ '"')
    (rest : List Char) :
    scanValue levels (quote text ++ c :: rest) = some (.text text, c :: rest) := by
  have hquote : quote text ++ c :: rest =
      '"' :: (text.toList.flatMap escape ++ '"' :: c :: rest) := by
    simp [quote]
  have hvalue (after : List Char) :
      scanValue levels ('"' :: after) = scanScalar.scanText ('"' :: after) := by
    cases levels with
    | zero => rfl
    | succ levels => rfl
  have hstring : scanString ('"' :: (text.toList.flatMap escape ++ '"' :: c :: rest)) =
      some (text.toList, c :: rest) := by
    rw [← scanBasic_escape text.toList (c :: rest)]
    cases text.toList with
    | nil =>
      have hthird (after : List Char) : '"' :: c :: rest ≠ '"' :: '"' :: after :=
        fun h => hc (List.cons.inj (List.cons.inj h).2).1
      exact scanString.eq_2 _ hthird
    | cons d chars => rfl
  rw [hquote, hvalue, scanScalar.scanText, hstring, Option.map_some]
  dsimp only
  rw [String.ofList_toList]

/-- Texts as an array of strings, with a comma after each. -/
def quoteList (texts : List String) : List Char :=
  '[' :: (texts.flatMap (fun text => quote text ++ [',']) ++ [']'])

/-- A value that opens with a quote is an item of an array, and a comma after it goes on to the
others: the quote is no blank that is skipped, and no bracket that closes the array. -/
theorem scanItems_of_scanValue {levels steps : Nat} {node : Node} {after more : List Char}
    (h : scanValue levels ('"' :: after) = some (node, ',' :: more)) :
    scanItems (scanItem (scanValue levels)) (steps + 1) ('"' :: after) =
      scanItems (scanItem (scanValue levels)) steps more >>= fun others =>
        some (node :: others.1, others.2) := by
  change ((scanValue levels ('"' :: after) >>= _) >>= _) = _
  rw [h]
  rfl

/-- Quoted texts with commas up to the closing bracket are scanned as items. -/
theorem scanItems_quote (levels : Nat) (texts : List String) (rest : List Char) {steps : Nat}
    (hsteps : texts.length < steps) :
    scanItems (scanItem (scanValue levels)) steps
      (texts.flatMap (fun text => quote text ++ [',']) ++ ']' :: rest) =
        some (texts.map .text, rest) := by
  induction texts generalizing steps with
  | nil =>
    obtain ⟨steps, rfl⟩ := Nat.exists_eq_succ_of_ne_zero (Nat.ne_of_gt hsteps)
    rfl
  | cons text texts ih =>
    obtain ⟨steps, rfl⟩ := Nat.exists_eq_succ_of_ne_zero (Nat.ne_of_gt (Nat.zero_lt_of_lt hsteps))
    have hvalue := scanValue_quote levels text (c := ',') (by decide)
      (texts.flatMap (fun text => quote text ++ [',']) ++ ']' :: rest)
    rw [List.flatMap_cons, List.append_assoc, List.append_assoc, List.singleton_append]
    rw [quote, List.cons_append] at hvalue ⊢
    rw [scanItems_of_scanValue hvalue, ih (Nat.lt_of_succ_lt_succ hsteps)]
    rfl

/-- A list of quoted texts is scanned as an array of texts. -/
theorem scanValue_quoteList (levels : Nat) (texts : List String) (rest : List Char) :
    scanValue (levels + 1) (quoteList texts ++ rest) =
      some (.array (texts.map .text), rest) := by
  have hlength : texts.length <
      (texts.flatMap (fun text => quote text ++ [',']) ++ ']' :: rest).length + 1 := by
    have hitems : texts.length ≤ (texts.flatMap fun text => quote text ++ [',']).length := by
      induction texts with
      | nil => exact Nat.le_refl 0
      | cons text texts ih =>
        rw [List.flatMap_cons, List.length_append, List.length_append, List.length_cons]
        simp only [List.length_singleton]
        omega
    rw [List.length_append]
    omega
  have hlist : quoteList texts ++ rest =
      '[' :: (texts.flatMap (fun text => quote text ++ [',']) ++ ']' :: rest) := by
    simp [quoteList]
  have hopen (after : List Char) : scanValue (levels + 1) ('[' :: after) =
      scanItems (scanItem (scanValue levels)) (after.length + 1) after >>= fun items =>
        some (.array items.1, items.2) := rfl
  rw [hlist, hopen, scanItems_quote levels texts rest hlength]
  rfl

/-- A name that may stand as a key without quotes. -/
def IsBareName (name : String) : Prop :=
  name.toList ≠ [] ∧ name.toList.all isBareKeyChar

/-- The text of a document of one table with one key, given what is written for its value. -/
def entryText (heading key : String) (value : List Char) : String :=
  String.ofList ('[' :: (heading.toList ++ ']' :: '\n' ::
    (key.toList ++ ' ' :: '=' :: ' ' :: (value ++ ['\n']))))

variable {name : String} {c d : Char} {rest after : List Char}

namespace IsBareName

/-- The characters of a bare name are those of such names. -/
theorem isBareKeyChar_of_mem (h : IsBareName name) : ∀ c ∈ name.toList, isBareKeyChar c :=
  List.all_eq_true.mp h.2

/-- What opens with a bare name opens with no other character. -/
theorem append_ne_cons (h : IsBareName name) (hc : isBareKeyChar c = false) :
    name.toList ++ rest ≠ c :: after := by
  obtain ⟨first, chars, hname⟩ := List.exists_cons_of_ne_nil h.1
  rw [hname, List.cons_append]
  intro heq
  obtain rfl := (List.cons.inj heq).1
  rw [h.isBareKeyChar_of_mem first (hname ▸ List.mem_cons_self)] at hc
  contradiction

/-- No blank opens a bare name. -/
theorem skipBlanks_append (h : IsBareName name) :
    skipBlanks (name.toList ++ rest) = name.toList ++ rest := by
  obtain ⟨first, chars, hname⟩ := List.exists_cons_of_ne_nil h.1
  rw [skipBlanks, hname, List.cons_append, List.dropWhile_cons_of_neg]
  intro hblank
  have hfirst := h.isBareKeyChar_of_mem first (hname ▸ List.mem_cons_self)
  rw [isBlank, Bool.or_eq_true, beq_iff_eq, beq_iff_eq] at hblank
  rcases hblank with rfl | rfl
  · contradiction
  · contradiction

/-- A bare name ends before the first character that is none of such names. -/
theorem scanName_append (h : IsBareName name) (hc : isBareKeyChar c = false) :
    scanName (name.toList ++ c :: rest) = some (name, c :: rest) := by
  have htake : (name.toList ++ c :: rest).takeWhile isBareKeyChar = name.toList := by
    rw [List.takeWhile_append_of_pos h.isBareKeyChar_of_mem,
      List.takeWhile_cons_of_neg (by simp [hc]), List.append_nil]
  have hdrop : (name.toList ++ c :: rest).dropWhile isBareKeyChar = c :: rest := by
    rw [List.dropWhile_append_of_pos h.isBareKeyChar_of_mem,
      List.dropWhile_cons_of_neg (by simp [hc])]
  rw [scanName, htake, hdrop]
  · split
    · next hnil => exact absurd hnil h.1
    · rw [String.ofList_toList]
  · exact fun _ => h.append_ne_cons (by decide)
  · exact fun _ => h.append_ne_cons (by decide)

/-- A bare name that no dot follows is a key. -/
theorem scanKey_append (h : IsBareName name) (hc : isBareKeyChar c = false)
    (hskip : skipBlanks (c :: rest) = d :: after) (hdot : d ≠ '.') :
    scanKey (name.toList ++ c :: rest) = some (([], name), d :: after) := by
  have hname : scanSpacedName (name.toList ++ c :: rest) = some (name, d :: after) := by
    rw [scanSpacedName, h.skipBlanks_append, h.scanName_append hc]
    exact congrArg (fun text => some (name, text)) hskip
  have hnames : scanSeparated '.' scanSpacedName (nestingLimit - 1) (name.toList ++ c :: rest) =
      some ([name], d :: after) := by
    rw [nestingLimit, scanSeparated, hname]
    exact if_neg hdot
  rw [scanKey, hnames]
  rfl

/-- A bare name in brackets on a line is a header. -/
theorem scanLine_header (h : IsBareName name) (rest : List Char) :
    scanLine ('[' :: (name.toList ++ ']' :: '\n' :: rest)) = some (.header [] name, rest) := by
  have hkey : scanKey (name.toList ++ ']' :: '\n' :: rest) =
      some (([], name), ']' :: '\n' :: rest) :=
    h.scanKey_append (by decide) rfl (by decide)
  rw [scanLine, hkey]
  · rfl
  · exact fun _ heq => h.append_ne_cons (by decide) heq

/-- A bare name, an equals sign and a value on a line are a pair. -/
theorem scanLine_pair (h : IsBareName name) (rest : List Char) {value : List Char} {node : Node}
    (hvalue : scanValue (nestingLimit - 1) (skipBlanks (value ++ '\n' :: rest)) =
      some (node, '\n' :: rest)) :
    scanLine (name.toList ++ ' ' :: '=' :: ' ' :: (value ++ '\n' :: rest)) =
      some (.pair ⟨[], name, node⟩, rest) := by
  have hkey : scanKey (name.toList ++ ' ' :: '=' :: ' ' :: (value ++ '\n' :: rest)) =
      some (([], name), '=' :: ' ' :: (value ++ '\n' :: rest)) :=
    h.scanKey_append (by decide) rfl (by decide)
  have hpair : scanPair (scanValue (nestingLimit - 1))
      (name.toList ++ ' ' :: '=' :: ' ' :: (value ++ '\n' :: rest)) =
        some (⟨[], name, node⟩, '\n' :: rest) := by
    rw [scanPair, hkey]
    change (scanValue _ (skipBlanks (value ++ '\n' :: rest)) >>= _) = _
    rw [hvalue]
    rfl
  rw [scanLine, hpair]
  · rfl
  · exact fun _ heq => h.append_ne_cons (by decide) heq
  · exact fun _ heq => h.append_ne_cons (by decide) heq

end IsBareName

/-- A line that opens with neither a blank, a comment nor a line end says something. -/
theorem scanLines_cons {text : List Char} {line : Line} (hblanks : skipBlanks text = text)
    (hcomment : ∀ after, text ≠ '#' :: after) (hnewline : skipNewline text = none)
    (hline : scanLine text = some (line, rest)) (steps : Nat) :
    scanLines (steps + 1) text = (scanLines steps rest).map (line :: ·) := by
  rw [scanLines, hblanks]
  split
  · contradiction
  · exact absurd rfl (hcomment _)
  · rw [hnewline, Option.map_eq_bind]
    dsimp only
    rw [hline]
    rfl

/-- A document of one table with one key is read as that. -/
theorem read?_entryText {heading key : String} (hheading : IsBareName heading)
    (hkey : IsBareName key) {value : List Char} {node : Node}
    (hvalue : scanValue (nestingLimit - 1) (skipBlanks (value ++ ['\n'])) = some (node, ['\n'])) :
    read? (entryText heading key value) =
      some [(heading, .table .header [(key, node)])] := by
  have hheader := scanLines_cons rfl (by simp) rfl (hheading.scanLine_header
    (key.toList ++ ' ' :: '=' :: ' ' :: (value ++ ['\n'])))
  have hnewline : skipNewline (key.toList ++ ' ' :: '=' :: ' ' :: (value ++ ['\n'])) = none :=
    skipNewline.eq_3 _ (fun _ => hkey.append_ne_cons (by decide))
      (fun _ => hkey.append_ne_cons (by decide))
  have hpair := scanLines_cons hkey.skipBlanks_append (fun _ => hkey.append_ne_cons (by decide))
    hnewline (hkey.scanLine_pair [] hvalue)
  have hlines (steps : Nat) : scanLines (steps + 3) (entryText heading key value).toList =
      some [.header [] heading, .pair ⟨[], key, node⟩] := by
    rw [entryText, String.toList_ofList, hheader, hpair]
    rfl
  obtain ⟨steps, hsteps⟩ : ∃ steps, (entryText heading key value).toList.length = steps + 2 := by
    refine Nat.exists_eq_add_of_le' ?_
    rw [entryText, String.toList_ofList]
    simp only [List.length_cons, List.length_append]
    omega
  have hmark : dropByteOrderMark (entryText heading key value).toList =
      (entryText heading key value).toList := by
    rw [entryText, String.toList_ofList]
    rfl
  rw [read?, hmark, hsteps, hlines]
  rfl

end AccessPattern.Toml
