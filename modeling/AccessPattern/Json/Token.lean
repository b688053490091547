import AccessPattern.Text.Hexadecimal

/-!
# JSON tokens

Splitting a JSON text into tokens. Blanks are the four of the JSON grammar. A string token holds
its text, or nothing when an escape gives one half of a surrogate pair without the other; raw
control characters are not allowed in strings.
-/

namespace AccessPattern.Json

/-- The tokens of a JSON text. -/
inductive Token where
  | openBrace
  | closeBrace
  | openBracket
  | closeBracket
  | colon
  | comma
  | null
  | boolean (value : Bool)
  | natural (value : Nat)
  | otherNumber
  | string (text : Option String)
deriving DecidableEq, Repr

/-- The characters that may stand between tokens. -/
def isBlank (c : Char) : Bool :=
  c == ' ' || c == '\t' || c == '\n' || c == '\r'

/-- What a string is made of: characters, and code units given by their number. -/
inductive Piece where
  | plain (c : Char)
  | codeUnit (number : Nat)
deriving DecidableEq, Repr

/-- The number of a code unit from its four hexadecimal digits. -/
def codeUnit? (a b c d : Char) : Option Nat := do
  let a ← Text.hexValue? a
  let b ← Text.hexValue? b
  let c ← Text.hexValue? c
  let d ← Text.hexValue? d
  pure (((a * 16 + b) * 16 + c) * 16 + d)

/-- The character that a one-letter escape stands for. -/
def escaped? : Char → Option Char
  | '"' => some '"'
  | '\\' => some '\\'
  | '/' => some '/'
  | 'b' => some '\x08'
  | 'f' => some '\x0c'
  | 'n' => some '\n'
  | 'r' => some '\r'
  | 't' => some '\t'
  | _ => none

/-- The pieces of a string up to its closing quote, and what follows the quote. -/
def scanString : List Char → Option (List Piece × List Char)
  | [] => none
  | '"' :: rest => some ([], rest)
  | '\\' :: 'u' :: a :: b :: c :: d :: rest => do
    let number ← codeUnit? a b c d
    let (pieces, rest) ← scanString rest
    pure (.codeUnit number :: pieces, rest)
  | '\\' :: escape :: rest => do
    let c ← escaped? escape
    let (pieces, rest) ← scanString rest
    pure (.plain c :: pieces, rest)
  | c :: rest =>
    if c < ' ' then none
    else do
      let (pieces, rest) ← scanString rest
      pure (.plain c :: pieces, rest)

/-- Whether a code unit opens a surrogate pair. -/
def isHighSurrogate (number : Nat) : Bool :=
  0xd800 ≤ number && number < 0xdc00

/-- Whether a code unit closes a surrogate pair. -/
def isLowSurrogate (number : Nat) : Bool :=
  0xdc00 ≤ number && number < 0xe000

/-- The characters that pieces stand for, unless half of a surrogate pair is left alone. -/
def characters? : List Piece → Option (List Char)
  | [] => some []
  | .plain c :: rest => (characters? rest).map (c :: ·)
  | .codeUnit first :: rest =>
    if isHighSurrogate first then
      match rest with
      | .codeUnit second :: rest =>
        if isLowSurrogate second then
          (characters? rest).map
            (Char.ofNat (0x10000 + (first - 0xd800) * 0x400 + (second - 0xdc00)) :: ·)
        else none
      | _ => none
    else if isLowSurrogate first then none
    else (characters? rest).map (Char.ofNat first :: ·)

/-- The digits at the start of a text, and what follows them. -/
def spanDigits (text : List Char) : List Char × List Char :=
  (text.takeWhile Char.isDigit, text.dropWhile Char.isDigit)

/-- The digits before a fraction or an exponent: a zero alone, or digits that open otherwise. -/
def scanWhole : List Char → Option (Nat × List Char)
  | '0' :: rest => some (0, rest)
  | text =>
    match spanDigits text with
    | ([], _) => none
    | (digits, rest) => some (Nat.ofDigitChars 10 digits 0, rest)

/-- Skip a fraction; the flag tells whether there was one. -/
def scanFraction : List Char → Option (Bool × List Char)
  | '.' :: rest =>
    match spanDigits rest with
    | ([], _) => none
    | (_, rest) => some (true, rest)
  | text => some (false, text)

/-- Skip an exponent; the flag tells whether there was one. -/
def scanExponent : List Char → Option (Bool × List Char)
  | [] => some (false, [])
  | c :: rest =>
    if c = 'e' ∨ c = 'E' then
      match spanDigits (dropSign rest) with
      | ([], _) => none
      | (_, rest) => some (true, rest)
    else some (false, c :: rest)
where
  /-- A text without the sign that may open it. -/
  dropSign : List Char → List Char
    | '+' :: rest => rest
    | '-' :: rest => rest
    | text => text

/-- A number without a minus sign. -/
def scanNumber (text : List Char) : Option (Token × List Char) := do
  let (value, rest) ← scanWhole text
  let (fraction, rest) ← scanFraction rest
  let (exponent, rest) ← scanExponent rest
  pure (if fraction || exponent then .otherNumber else .natural value, rest)

/-- The token at the start of a text that does not start with a blank. -/
def scanToken : List Char → Option (Token × List Char)
  | '{' :: rest => some (.openBrace, rest)
  | '}' :: rest => some (.closeBrace, rest)
  | '[' :: rest => some (.openBracket, rest)
  | ']' :: rest => some (.closeBracket, rest)
  | ':' :: rest => some (.colon, rest)
  | ',' :: rest => some (.comma, rest)
  | 'n' :: 'u' :: 'l' :: 'l' :: rest => some (.null, rest)
  | 't' :: 'r' :: 'u' :: 'e' :: rest => some (.boolean true, rest)
  | 'f' :: 'a' :: 'l' :: 's' :: 'e' :: rest => some (.boolean false, rest)
  | '"' :: rest => do
    let (pieces, rest) ← scanString rest
    pure (.string ((characters? pieces).map String.ofList), rest)
  | '-' :: rest => do
    let (_, rest) ← scanNumber rest
    pure (.otherNumber, rest)
  | text => scanNumber text

/-- All tokens of a text, scanning at most the given number of tokens and blanks. -/
def scanWithin : Nat → List Char → Option (List Token)
  | _, [] => some []
  | 0, _ => none
  | steps + 1, c :: rest =>
    if isBlank c then scanWithin steps rest
    else do
      let (token, rest) ← scanToken (c :: rest)
      let tokens ← scanWithin steps rest
      pure (token :: tokens)

/-- The tokens of a text. -/
def scan (text : List Char) : Option (List Token) :=
  scanWithin text.length text

end AccessPattern.Json
