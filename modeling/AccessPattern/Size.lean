import AccessPattern.Text.Alphabetic
import AccessPattern.Text.Blank
import AccessPattern.Text.Decimal
import AccessPattern.Text.LetterCase

/-!
# Sizes in bytes

A size is written as a decimal number, an optional binary unit and an optional `b` after the
unit, in either case and between any white space: `4K`, `128kb`, `1048576`. Rendering takes the
largest unit that divides the size without remainder, so a rendered size reads back as itself.
-/

namespace AccessPattern

/-- The binary units of a size. -/
inductive SizeUnit where
  | kilo
  | mega
  | giga
  | tera
deriving DecidableEq, Repr

namespace SizeUnit

/-- The units from the smallest to the largest. -/
def all : List SizeUnit :=
  [kilo, mega, giga, tera]

/-- How many factors of 1024 a unit stands for. -/
def exponent : SizeUnit → Nat
  | kilo => 1
  | mega => 2
  | giga => 3
  | tera => 4

/-- How many bytes one of the unit is. -/
def bytes (unit : SizeUnit) : Nat :=
  Nat.pow 1024 unit.exponent

/-- The lower-case letter of a unit. -/
def letter : SizeUnit → Char
  | kilo => 'k'
  | mega => 'm'
  | giga => 'g'
  | tera => 't'

/-- The capital letter of a unit, used when a size is rendered. -/
def capital : SizeUnit → Char
  | kilo => 'K'
  | mega => 'M'
  | giga => 'G'
  | tera => 'T'

/-- The unit that a lower-case letter stands for. -/
def ofLetter? (c : Char) : Option SizeUnit :=
  all.find? fun unit => unit.letter == c

/-- Each unit is found by its own letter. -/
@[simp] theorem ofLetter?_letter (unit : SizeUnit) : ofLetter? unit.letter = some unit := by
  cases unit <;> decide

end SizeUnit

/-- Why a text is not a size; each cause holds the text as it was given. -/
inductive SizeError where
  /-- The text ends in a letter that is no unit. -/
  | unknownUnit (text : String)
  /-- What stands before the unit is not a number of 64 bits. -/
  | notANumber (text : String)
  /-- The number of bytes needs more than 64 bits. -/
  | overflow (text : String)
deriving DecidableEq, Repr

/-- The wording of a size error. -/
def SizeError.message : SizeError → String
  | .unknownUnit text => s!"Invalid size unit in '{text}'"
  | .notANumber text => s!"Invalid size format: '{text}'"
  | .overflow text => s!"Size '{text}' overflows 64 bits"

namespace Size

/-- Remove a closing `b` when it follows an alphabetic character. -/
def dropByteMark (text : List Char) : List Char :=
  match text.reverse with
  | 'b' :: c :: rest => if Text.isAlphabetic c then (c :: rest).reverse else text
  | _ => text

/-- Split off the letter that ends a text, if it ends in an ASCII letter. -/
def splitUnit (text : List Char) : List Char × Option Char :=
  match text.getLast? with
  | some c => if Text.isAsciiLetter c then (text.dropLast, some c) else (text, none)
  | none => (text, none)

/-- Read a size in bytes. -/
def parse (text : String) : Except SizeError UInt64 :=
  let (number, unitLetter) := splitUnit (dropByteMark (Text.lower (Text.trim text.toList)))
  match unitLetter.map SizeUnit.ofLetter? with
  | some none => .error (.unknownUnit text)
  | some (some unit) => scaled unit.bytes number
  | none => scaled 1 number
where
  /-- The number times the bytes of its unit, unless that is too large. -/
  scaled (bytes : Nat) (number : List Char) : Except SizeError UInt64 :=
    match Text.word64? number with
    | none => .error (.notANumber text)
    | some n =>
      if n.toNat * bytes < UInt64.size then .ok (UInt64.ofNat (n.toNat * bytes))
      else .error (.overflow text)

/-- The largest unit that divides a size without remainder. -/
def largestUnit? (size : UInt64) : Option SizeUnit :=
  SizeUnit.all.reverse.find? fun unit => size.toNat % unit.bytes == 0

/-- Render a size with the largest unit that divides it; zero is rendered without one. -/
def format (size : UInt64) : String :=
  if size = 0 then "0"
  else
    match largestUnit? size with
    | some unit => String.ofList (Text.digits (size.toNat / unit.bytes) ++ [unit.capital])
    | none => String.ofList (Text.digits size.toNat)

end Size

end AccessPattern
