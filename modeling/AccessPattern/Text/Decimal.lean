/-!
# Decimal numbers

Numbers are written with the fewest decimal digits. A 64-bit number is read from one or more
ASCII digits, leading zeros allowed, after an optional plus sign; a value of 2^64 or more is
refused.
-/

namespace AccessPattern.Text

/-- The decimal digits of a number, without leading zeros. -/
def digits (n : Nat) : List Char :=
  Nat.toDigits 10 n

/-- The value of a text of one or more ASCII digits. -/
def decimal? (text : List Char) : Option Nat :=
  if text ≠ [] ∧ text.all Char.isDigit then some (Nat.ofDigitChars 10 text 0) else none

/-- A text without the plus sign that may open it. -/
def dropPlus : List Char → List Char
  | '+' :: rest => rest
  | text => text

/-- The value of a text of digits after an optional plus sign, if it fits 64 bits. -/
def word64? (text : List Char) : Option UInt64 :=
  match decimal? (dropPlus text) with
  | some n => if n < UInt64.size then some (UInt64.ofNat n) else none
  | none => none

end AccessPattern.Text
