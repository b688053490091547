import AccessPattern.Timestamp.Basic
import AccessPattern.Toml.Lexeme
import AccessPattern.Toml.Node

/-!
# Numbers, dates and truth values of TOML

Integers are those of 64 bits with a sign, in decimal, hexadecimal, octal or binary notation, with
single underscores between digits. Floats are only recognised, not evaluated, except that a
positive float too large for double precision is an error. Dates and times are recognised and
checked against the calendar.
-/

namespace AccessPattern.Toml

/-- The digits at the start of a text, with single underscores between them, and what follows. An
underscore that no digit follows is an error. -/
def scanFurtherDigits (isDigit : Char → Bool) : List Char → Option (List Char × List Char)
  | '_' :: c :: rest =>
    if isDigit c then do
      let (digits, rest) ← scanFurtherDigits isDigit rest
      pure (c :: digits, rest)
    else none
  | c :: rest =>
    if isDigit c then do
      let (digits, rest) ← scanFurtherDigits isDigit rest
      pure (c :: digits, rest)
    else if c = '_' then none
    else some ([], c :: rest)
  | [] => some ([], [])

/-- One digit or more, with single underscores between them. -/
def scanDigits (isDigit : Char → Bool) : List Char → Option (List Char × List Char)
  | c :: rest =>
    if isDigit c then do
      let (digits, rest) ← scanFurtherDigits isDigit rest
      pure (c :: digits, rest)
    else none
  | [] => none

/-- A sign that may open a number; true for a minus sign. -/
def scanSign : List Char → Bool × List Char
  | '+' :: rest => (false, rest)
  | '-' :: rest => (true, rest)
  | text => (false, text)

/-- The digits of a decimal number: a zero alone, or digits that open otherwise. -/
def scanDecimal : List Char → Option (List Char × List Char)
  | '0' :: rest => some (['0'], rest)
  | text => scanDigits Char.isDigit text

/-- The value of digits of a base. -/
def valueOfDigits (base : Nat) (digits : List Char) : Nat :=
  digits.foldl (fun total c => total * base + (Text.hexValue? c).getD 0) 0

/-- An integer that fits 64 bits with a sign. -/
def fitting? (value : Int) : Option Node :=
  if -9223372036854775808 ≤ value ∧ value ≤ 9223372036854775807 then some (.integer value)
  else none

/-- A number in a base other than ten, after its two-character mark. -/
def scanBased (base : Nat) (isDigit : Char → Bool) (text : List Char) :
    Option (Node × List Char) := do
  let (digits, rest) ← scanDigits isDigit text
  let node ← fitting? (valueOfDigits base digits)
  pure (node, rest)

/-- An integer. -/
def scanInteger : List Char → Option (Node × List Char)
  | '0' :: 'x' :: rest => scanBased 16 (fun c => (Text.hexValue? c).isSome) rest
  | '0' :: 'o' :: rest => scanBased 8 (fun c => '0' ≤ c && c ≤ '7') rest
  | '0' :: 'b' :: rest => scanBased 2 (fun c => c == '0' || c == '1') rest
  | text => do
    let (negative, rest) := scanSign text
    let (digits, rest) ← scanDecimal rest
    let magnitude : Int := valueOfDigits 10 digits
    let node ← fitting? (if negative then -magnitude else magnitude)
    pure (node, rest)

/-- Whether digits before and after the point, with a power of ten, make a value that rounds beyond
the doubles: at least half a unit in the last place above the greatest of them. -/
def isTooLarge (whole fraction : List Char) (exponent : Int) : Bool :=
  let digits := (whole ++ fraction).dropWhile (· == '0')
  let scale : Int := exponent - fraction.length
  let magnitude : Int := digits.length + scale
  if digits.isEmpty || magnitude < 309 then false
  else if 310 < magnitude then true
  else
    let limit : Nat := Nat.pow 2 1024 - Nat.pow 2 970
    let value := valueOfDigits 10 digits
    if 0 ≤ scale then limit ≤ value * Nat.pow 10 scale.toNat
    else limit * Nat.pow 10 (-scale).toNat ≤ value

/-- The digits after a point, if there is one. -/
def scanFraction : List Char → Option (Option (List Char) × List Char)
  | '.' :: rest => do
    let (digits, rest) ← scanDigits Char.isDigit rest
    pure (some digits, rest)
  | text => some (none, text)

/-- The power of ten after an `e`, if there is one. -/
def scanExponent : List Char → Option (Option Int × List Char)
  | c :: rest =>
    if c = 'e' ∨ c = 'E' then do
      let (negative, rest) := scanSign rest
      let (digits, rest) ← scanDigits Char.isDigit rest
      let magnitude : Int := valueOfDigits 10 digits
      pure (some (if negative then -magnitude else magnitude), rest)
    else some (none, c :: rest)
  | [] => some (none, [])

/-- A float in decimal notation: it has a fraction, an exponent, or both. -/
def scanDecimalFloat (text : List Char) : Option (Node × List Char) := do
  let (negative, rest) := scanSign text
  let (whole, rest) ← scanDecimal rest
  let (fraction, rest) ← scanFraction rest
  let (exponent, rest) ← scanExponent rest
  if fraction.isNone && exponent.isNone then none
  else if !negative && isTooLarge whole (fraction.getD []) (exponent.getD 0) then none
  else pure (.float, rest)

/-- Infinity or not-a-number, with or without a sign. -/
def scanSpecialFloat (text : List Char) : Option (Node × List Char) :=
  match (scanSign text).2 with
  | 'i' :: 'n' :: 'f' :: rest => some (.float, rest)
  | 'n' :: 'a' :: 'n' :: rest => some (.float, rest)
  | _ => none

/-- A number of exactly so many digits. -/
def scanFixed : Nat → List Char → Option (Nat × List Char)
  | count, text =>
    let digits := text.take count
    if digits.length = count ∧ digits.all Char.isDigit then
      some (valueOfDigits 10 digits, text.drop count)
    else none

/-- The text after a character that has to open it. -/
def skipChar (expected : Char) : List Char → Option (List Char)
  | c :: rest => if c = expected then some rest else none
  | [] => none

/-- The text after a date of the calendar. -/
def skipDate (text : List Char) : Option (List Char) := do
  let (year, rest) ← scanFixed 4 text
  let rest ← skipChar '-' rest
  let (month, rest) ← scanFixed 2 rest
  let rest ← skipChar '-' rest
  let (day, rest) ← scanFixed 2 rest
  if 1 ≤ month ∧ month ≤ 12 ∧ 1 ≤ day ∧ day ≤ Date.daysInMonth year month then pure rest
  else none

/-- The text after the hours and minutes of a time or an offset. -/
def skipClock (text : List Char) : Option (List Char) := do
  let (hour, rest) ← scanFixed 2 text
  let rest ← skipChar ':' rest
  let (minute, rest) ← scanFixed 2 rest
  if hour ≤ 23 ∧ minute ≤ 59 then pure rest else none

/-- The text after a fraction of a second, if one opens it; a lone point is left alone. -/
def skipSecondFraction : List Char → List Char
  | '.' :: rest =>
    match rest.dropWhile Char.isDigit with
    | after => if after.length = rest.length then '.' :: rest else after
  | text => text

/-- The text after a time of day. -/
def skipTime (text : List Char) : Option (List Char) := do
  let rest ← skipClock text
  let rest ← skipChar ':' rest
  let (second, rest) ← scanFixed 2 rest
  if second ≤ 60 then pure (skipSecondFraction rest) else none

/-- The text after an offset from UTC, if one opens it; a broken one is an error. -/
def skipOffset : List Char → Option (List Char)
  | c :: rest =>
    if c = 'Z' ∨ c = 'z' then some rest
    else if c = '+' ∨ c = '-' then skipClock rest
    else some (c :: rest)
  | [] => some []

/-- The text after the time that may follow a date; what is no time is left alone. -/
def skipTimeOfDate : List Char → Option (List Char)
  | c :: rest =>
    if c = 'T' ∨ c = 't' ∨ c = ' ' then
      match skipTime rest with
      | some rest => skipOffset rest
      | none => some (c :: rest)
    else some (c :: rest)
  | [] => some []

/-- A date, a time of day, or both. -/
def scanDateTime (text : List Char) : Option (Node × List Char) :=
  match skipDate text with
  | some rest => (skipTimeOfDate rest).map fun rest => (.dateTime, rest)
  | none => (skipTime text).map fun rest => (.dateTime, rest)

/-- A value that starts with a digit or a sign. -/
def scanNumeral (text : List Char) : Option (Node × List Char) :=
  scanDateTime text <|> scanDecimalFloat text <|> scanSpecialFloat text <|> scanInteger text

/-- A value other than an array or an inline table. -/
def scanScalar : List Char → Option (Node × List Char)
  | 't' :: 'r' :: 'u' :: 'e' :: rest => some (.boolean true, rest)
  | 'f' :: 'a' :: 'l' :: 's' :: 'e' :: rest => some (.boolean false, rest)
  | '"' :: rest => scanText ('"' :: rest)
  | '\'' :: rest => scanText ('\'' :: rest)
  | text => scanNumeral text
where
  /-- A string of any of the four forms. -/
  scanText (text : List Char) : Option (Node × List Char) :=
    (scanString text).map fun (chars, rest) => (.text (String.ofList chars), rest)

end AccessPattern.Toml
