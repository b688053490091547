import AccessPattern.Text.Hexadecimal

/-!
# The smallest parts of TOML texts

Blanks, line ends, comments and strings. A line ends with a newline, which a carriage return may
precede; a carriage return elsewhere is an error. Basic strings know escapes, literal strings do
not; both exist in a form for several lines, whose closing quotes may directly follow one or two
quotes that belong to the text.
-/

namespace AccessPattern.Toml

/-- The characters that may stand between the parts of a line. -/
def isBlank (c : Char) : Bool :=
  c == ' ' || c == '\t'

/-- The text after the blanks that open it. -/
def skipBlanks (text : List Char) : List Char :=
  text.dropWhile isBlank

/-- The text after the line end that opens it. -/
def skipNewline : List Char → Option (List Char)
  | '\n' :: rest => some rest
  | '\r' :: '\n' :: rest => some rest
  | _ => none

/-- Whether a character lies outside ASCII. -/
def isWide (c : Char) : Bool :=
  0x80 ≤ c.toNat

/-- The characters that may stand in a comment. -/
def isCommentChar (c : Char) : Bool :=
  c == '\t' || (0x20 ≤ c.toNat && c.toNat ≤ 0x7e) || isWide c

/-- The text after the comment that opens it, if one does. -/
def skipComment : List Char → List Char
  | '#' :: rest => rest.dropWhile isCommentChar
  | text => text

/-- The text after the end of a line: blanks, perhaps a comment, and a line end or the end of the
document. -/
def skipLineEnd (text : List Char) : Option (List Char) :=
  match skipComment (skipBlanks text) with
  | [] => some []
  | rest => skipNewline rest

/-- The text after the blanks, line ends and comments that open it, which may itself begin within a
comment. -/
def skipSpaceFrom (inComment : Bool) : List Char → List Char
  | [] => []
  | '\r' :: '\n' :: rest => skipSpaceFrom false rest
  | c :: rest =>
    if c = '\n' then skipSpaceFrom false rest
    else if inComment then if isCommentChar c then skipSpaceFrom true rest else c :: rest
    else if c = '#' then skipSpaceFrom true rest
    else if isBlank c then skipSpaceFrom false rest
    else c :: rest

/-- The text after all blanks, line ends and comments that open it. -/
def skipSpace (text : List Char) : List Char :=
  skipSpaceFrom false text

/-- The character of a code point given by hexadecimal digits; surrogates are no characters. -/
def codePoint? (digits : List Char) : Option Char := do
  let values ← digits.mapM Text.hexValue?
  let number := values.foldl (fun total digit => total * 16 + digit) 0
  if number.isValidChar then pure (Char.ofNat number) else none

/-- The character that a one-letter escape stands for. -/
def escaped? : Char → Option Char
  | 'b' => some '\x08'
  | 't' => some '\t'
  | 'n' => some '\n'
  | 'f' => some '\x0c'
  | 'r' => some '\r'
  | '"' => some '"'
  | '\\' => some '\\'
  | _ => none

/-- The characters that stand for themselves in a basic string. -/
def isBasicChar (c : Char) : Bool :=
  c == '\t' || (0x20 ≤ c.toNat && c.toNat ≤ 0x7e && c != '"' && c != '\\') || isWide c

/-- The rest of a basic string, and what follows its closing quote. -/
def scanBasic : List Char → Option (List Char × List Char)
  | '"' :: rest => some ([], rest)
  | '\\' :: 'u' :: a :: b :: c :: d :: rest => do
    let char ← codePoint? [a, b, c, d]
    let (chars, rest) ← scanBasic rest
    pure (char :: chars, rest)
  | '\\' :: 'U' :: a :: b :: c :: d :: e :: f :: g :: h :: rest => do
    let char ← codePoint? [a, b, c, d, e, f, g, h]
    let (chars, rest) ← scanBasic rest
    pure (char :: chars, rest)
  | '\\' :: letter :: rest => do
    let char ← escaped? letter
    let (chars, rest) ← scanBasic rest
    pure (char :: chars, rest)
  | char :: rest =>
    if isBasicChar char then do
      let (chars, rest) ← scanBasic rest
      pure (char :: chars, rest)
    else none
  | [] => none

/-- The characters that stand for themselves in a literal string. -/
def isLiteralChar (c : Char) : Bool :=
  c == '\t' || (0x20 ≤ c.toNat && c.toNat ≤ 0x7e && c != '\'') || isWide c

/-- The rest of a literal string, and what follows its closing quote. -/
def scanLiteral (text : List Char) : Option (List Char × List Char) :=
  match text.dropWhile isLiteralChar with
  | '\'' :: rest => some (text.takeWhile isLiteralChar, rest)
  | _ => none

/-- The quotes before the three that close a string, as far as a text opens with them. -/
def closing (quote : Char) : List Char → Option (List Char × List Char)
  | a :: b :: c :: rest =>
    if a = quote ∧ b = quote ∧ c = quote then
      match rest with
      | d :: e :: rest =>
        if d = quote ∧ e = quote then some ([quote, quote], rest)
        else if d = quote then some ([quote], e :: rest)
        else some ([], d :: e :: rest)
      | [d] => if d = quote then some ([quote], []) else some ([], [d])
      | [] => some ([], [])
    else none
  | _ => none

/-- What follows a backslash at the end of a line: blanks, the line end, and all further blanks and
line ends. -/
def skipFoldedLine (text : List Char) : Option (List Char) := do
  let rest ← skipNewline (skipBlanks text)
  pure (skipFurther rest.length rest)
where
  /-- Skip blanks and line ends, at most the given number of them. -/
  skipFurther : Nat → List Char → List Char
    | 0, text => text
    | steps + 1, text =>
      match text with
      | c :: rest =>
        if isBlank c then skipFurther steps rest
        else
          match skipNewline text with
          | some rest => skipFurther steps rest
          | none => text
      | [] => []

/-- The rest of a basic string on several lines, reading at most the given number of parts. -/
def scanBasicLines : Nat → List Char → Option (List Char × List Char)
  | 0, _ => none
  | steps + 1, text =>
    match closing '"' text with
    | some result => some result
    | none =>
      match text with
      | '\\' :: after =>
        match skipFoldedLine after with
        | some rest => scanBasicLines steps rest
        | none =>
          match after with
          | 'u' :: a :: b :: c :: d :: rest => do
            let char ← codePoint? [a, b, c, d]
            let (chars, rest) ← scanBasicLines steps rest
            pure (char :: chars, rest)
          | 'U' :: a :: b :: c :: d :: e :: f :: g :: h :: rest => do
            let char ← codePoint? [a, b, c, d, e, f, g, h]
            let (chars, rest) ← scanBasicLines steps rest
            pure (char :: chars, rest)
          | letter :: rest => do
            let char ← escaped? letter
            let (chars, rest) ← scanBasicLines steps rest
            pure (char :: chars, rest)
          | [] => none
      | char :: rest =>
        if isBasicChar char ∨ char = '"' then do
          let (chars, rest) ← scanBasicLines steps rest
          pure (char :: chars, rest)
        else do
          let rest ← skipNewline text
          let (chars, rest) ← scanBasicLines steps rest
          pure ('\n' :: chars, rest)
      | [] => none

/-- The rest of a literal string on several lines, reading at most the given number of parts. -/
def scanLiteralLines : Nat → List Char → Option (List Char × List Char)
  | 0, _ => none
  | steps + 1, text =>
    match closing '\'' text with
    | some result => some result
    | none =>
      match text with
      | char :: rest =>
        if isLiteralChar char ∨ char = '\'' then do
          let (chars, rest) ← scanLiteralLines steps rest
          pure (char :: chars, rest)
        else do
          let rest ← skipNewline text
          let (chars, rest) ← scanLiteralLines steps rest
          pure ('\n' :: chars, rest)
      | [] => none

/-- The text after the line end that may directly follow three opening quotes. -/
def dropFirstNewline (text : List Char) : List Char :=
  (skipNewline text).getD text

/-- A string of any of the four forms. -/
def scanString : List Char → Option (List Char × List Char)
  | '"' :: '"' :: '"' :: rest => scanBasicLines (rest.length + 1) (dropFirstNewline rest)
  | '"' :: rest => scanBasic rest
  | '\'' :: '\'' :: '\'' :: rest => scanLiteralLines (rest.length + 1) (dropFirstNewline rest)
  | '\'' :: rest => scanLiteral rest
  | _ => none

end AccessPattern.Toml
