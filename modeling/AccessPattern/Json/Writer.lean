import AccessPattern.Json.Value
import AccessPattern.Text.Decimal
import AccessPattern.Text.Hexadecimal

/-!
# Writing JSON

Values are written over several lines: every item and every member on a line of its own, indented
by two blanks per level, with a blank after each colon; an empty array or object stays on its
line. In strings only the quote, the backslash and the control characters are escaped.
-/

namespace AccessPattern.Json

/-- How a character is written inside a string. -/
def escapeChar (c : Char) : List Char :=
  if c = '"' then ['\\', '"']
  else if c = '\\' then ['\\', '\\']
  else if c = '\x08' then ['\\', 'b']
  else if c = '\x0c' then ['\\', 'f']
  else if c = '\n' then ['\\', 'n']
  else if c = '\r' then ['\\', 'r']
  else if c = '\t' then ['\\', 't']
  else if c < ' ' then
    ['\\', 'u', '0', '0', Text.hexDigit (c.toNat / 16), Text.hexDigit (c.toNat % 16)]
  else [c]

/-- A text as a string, with its quotes. -/
def quote (text : String) : List Char :=
  '"' :: text.toList.flatMap escapeChar ++ ['"']

/-- A line break and the indentation of a level. -/
def breakLine (level : Nat) : List Char :=
  '\n' :: List.replicate (2 * level) ' '

mutual

/-- The text of a value that stands at a level of indentation. -/
def write (level : Nat) : Json → List Char
  | .null => ['n', 'u', 'l', 'l']
  | .boolean true => ['t', 'r', 'u', 'e']
  | .boolean false => ['f', 'a', 'l', 's', 'e']
  | .natural value => Text.digits value
  | .otherNumber => ['0', '.', '0']
  | .string text => quote (text.getD "")
  | .array [] => ['[', ']']
  | .array items => '[' :: writeItems (level + 1) items ++ breakLine level ++ [']']
  | .object [] => ['{', '}']
  | .object members => '{' :: writeMembers (level + 1) members ++ breakLine level ++ ['}']

/-- The items of an array, each on its line. -/
def writeItems (level : Nat) : List Json → List Char
  | [] => []
  | [item] => breakLine level ++ write level item
  | item :: items => breakLine level ++ write level item ++ ',' :: writeItems level items

/-- The members of an object, each on its line. -/
def writeMembers (level : Nat) : List (Option String × Json) → List Char
  | [] => []
  | [(key, value)] => breakLine level ++ quote (key.getD "") ++ ':' :: ' ' :: write level value
  | (key, value) :: members =>
    breakLine level ++ quote (key.getD "") ++ ':' :: ' ' :: write level value ++
      ',' :: writeMembers level members

end

/-- The text of a value on its own. -/
def render (value : Json) : String :=
  String.ofList (write 0 value)

end AccessPattern.Json
