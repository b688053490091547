import AccessPattern.Text.Blank
import AccessPattern.Timestamp.Basic

/-!
# Reading points in time

Points in time are read with some leniency: numbers may have fewer digits than usual, white space
may stand before numbers and separators, a blank may stand for the `T`, and the offset from UTC
may be written `Z`, `UTC` or as signed hours and minutes. A year of more than four digits needs a
sign. Digits of the fraction past the ninth are dropped. The result is shifted to UTC.
-/

namespace AccessPattern.Timestamp

/-- At most the given number of digits at the start of a text, and what follows them. -/
def scanDigits : Nat → List Char → List Char × List Char
  | limit + 1, c :: rest =>
    if c.isDigit then
      let (digits, rest) := scanDigits limit rest
      (c :: digits, rest)
    else ([], c :: rest)
  | _, text => ([], text)

/-- A number of one digit up to a limit, after any white space. -/
def scanNumber (limit : Nat) (text : List Char) : Option (Nat × List Char) :=
  match scanDigits limit (Text.trimStart text) with
  | ([], _) => none
  | (digits, rest) => some (Nat.ofDigitChars 10 digits 0, rest)

/-- A number of one or two digits that lies between two bounds. -/
def scanField (least greatest : Nat) (text : List Char) : Option (Nat × List Char) := do
  let (value, rest) ← scanNumber 2 text
  if least ≤ value ∧ value ≤ greatest then pure (value, rest) else none

/-- Skip a separator and the white space before it. -/
def skipSeparator (separator : Char) (text : List Char) : Option (List Char) :=
  match Text.trimStart text with
  | c :: rest => if c = separator then some rest else none
  | [] => none

/-- A year: up to four digits, or any number of digits directly after a sign. -/
def scanYear (text : List Char) : Option (Int × List Char) :=
  match Text.trimStart text with
  | '-' :: rest => do
    let (value, rest) ← signed rest
    pure (-(value : Int), rest)
  | '+' :: rest => do
    let (value, rest) ← signed rest
    pure (value, rest)
  | unsigned => do
    let (value, rest) ← scanNumber 4 unsigned
    pure (value, rest)
where
  /-- The digits after the sign of a year. -/
  signed (text : List Char) : Option (Nat × List Char) :=
    match scanDigits text.length text with
    | ([], _) => none
    | (digits, rest) => some (Nat.ofDigitChars 10 digits 0, rest)

/-- A fraction of a second in nanoseconds, zero if there is none. -/
def scanFraction : List Char → Option (Nat × List Char)
  | '.' :: text =>
    match scanDigits 9 text with
    | ([], _) => none
    | (digits, rest) =>
      let unit := Nat.pow 10 (9 - digits.length)
      some (Nat.ofDigitChars 10 digits 0 * unit, rest.dropWhile Char.isDigit)
  | text => some (0, text)

/-- Whether a text opens with the letters `UTC` in any case, and what follows them. -/
def skipUtc? : List Char → Option (List Char)
  | u :: t :: c :: rest =>
    if u.toLower = 'u' ∧ t.toLower = 't' ∧ c.toLower = 'c' then some rest else none
  | _ => none

/-- The sign of an offset: true for a minus sign, of which there are two. -/
def scanSign : List Char → Option (Bool × List Char)
  | '+' :: rest => some (false, rest)
  | '-' :: rest => some (true, rest)
  | '\u2212' :: rest => some (true, rest)
  | _ => none

/-- A number of exactly two digits. -/
def scanTwoDigits : List Char → Option (Nat × List Char)
  | a :: b :: rest =>
    if a.isDigit ∧ b.isDigit then some (Nat.ofDigitChars 10 [a, b] 0, rest) else none
  | _ => none

/-- An offset from UTC in minutes. -/
def scanOffset (text : List Char) : Option (Int × List Char) :=
  match skipUtc? text with
  | some rest => some (0, rest)
  | none =>
    match text with
    | 'Z' :: rest => some (0, rest)
    | 'z' :: rest => some (0, rest)
    | _ => do
      let (negative, rest) ← scanSign text
      let (hours, rest) ← scanTwoDigits rest
      let (minutes, rest) ← scanTwoDigits (rest.dropWhile fun c => c == ':' || Text.isBlank c)
      if hours ≤ 23 ∧ minutes ≤ 59 then
        let total : Int := hours * 60 + minutes
        pure (if negative then -total else total, rest)
      else none

/-- A valid date. -/
def scanDate (text : List Char) : Option (Date × List Char) := do
  let (year, rest) ← scanYear text
  let rest ← skipSeparator '-' rest
  let (month, rest) ← scanField 1 12 rest
  let rest ← skipSeparator '-' rest
  let (day, rest) ← scanField 1 31 rest
  let date : Date := ⟨year, month, day⟩
  if date.isValid then pure (date, rest) else none

/-- Skip the one character between date and time. -/
def skipDateEnd : List Char → Option (List Char)
  | c :: rest => if c = 'T' ∨ c = 't' ∨ c = ' ' then some rest else none
  | [] => none

/-- Shift the time of day by minutes that are less than a day, moving to a neighbouring day where
needed. -/
def shiftMinutes (t : Timestamp) (minutes : Int) : Timestamp :=
  let total : Int := t.hour * 60 + t.minute + minutes
  let day : Int := 1440
  if total < 0 then setClock t.date.previous (total + day)
  else if total < day then setClock t.date total
  else setClock t.date.next (total - day)
where
  /-- The same second on a date at a minute of the day. -/
  setClock (date : Date) (minute : Int) : Timestamp :=
    { t with date := date, hour := minute.toNat / 60, minute := minute.toNat % 60 }

/-- Read a point in time. -/
def parse? (text : String) : Option Timestamp := do
  let (date, rest) ← scanDate text.toList
  let rest ← skipDateEnd rest
  let (hour, rest) ← scanField 0 23 rest
  let rest ← skipSeparator ':' rest
  let (minute, rest) ← scanField 0 59 rest
  let rest ← skipSeparator ':' rest
  let (second, rest) ← scanField 0 60 rest
  let (nanosecond, rest) ← scanFraction rest
  let (offset, rest) ← scanOffset (Text.trimStart rest)
  let shifted := shiftMinutes ⟨date, hour, minute, second, nanosecond⟩ (-offset)
  if Text.trimStart rest = [] ∧ shifted.date.isValid then pure shifted else none

end AccessPattern.Timestamp
