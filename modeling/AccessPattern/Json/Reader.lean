import AccessPattern.Json.Token
import AccessPattern.Json.Value

/-!
# Reading JSON

A JSON text is one value with nothing after it. Commas stand between items and nowhere else. The
depth of a value is bounded by the number of its tokens, which bounds the recursion.
-/

namespace AccessPattern.Json

mutual

/-- The value at the start of the tokens, and the tokens after it. -/
def readValue : Nat → List Token → Option (Json × List Token)
  | 0, _ => none
  | _ + 1, .null :: rest => some (.null, rest)
  | _ + 1, .boolean value :: rest => some (.boolean value, rest)
  | _ + 1, .natural value :: rest => some (.natural value, rest)
  | _ + 1, .otherNumber :: rest => some (.otherNumber, rest)
  | _ + 1, .string text :: rest => some (.string text, rest)
  | _ + 1, .openBracket :: .closeBracket :: rest => some (.array [], rest)
  | depth + 1, .openBracket :: rest => do
    let (items, rest) ← readItems depth rest
    pure (.array items, rest)
  | _ + 1, .openBrace :: .closeBrace :: rest => some (.object [], rest)
  | depth + 1, .openBrace :: rest => do
    let (members, rest) ← readMembers depth rest
    pure (.object members, rest)
  | _ + 1, _ => none

/-- One or more items of an array and its closing bracket. -/
def readItems : Nat → List Token → Option (List Json × List Token)
  | 0, _ => none
  | depth + 1, tokens => do
    let (item, rest) ← readValue depth tokens
    match rest with
    | .closeBracket :: rest => pure ([item], rest)
    | .comma :: rest => do
      let (items, rest) ← readItems depth rest
      pure (item :: items, rest)
    | _ => none

/-- One or more members of an object and its closing brace. -/
def readMembers : Nat → List Token → Option (List (Option String × Json) × List Token)
  | 0, _ => none
  | depth + 1, .string key :: .colon :: tokens => do
    let (value, rest) ← readValue depth tokens
    match rest with
    | .closeBrace :: rest => pure ([(key, value)], rest)
    | .comma :: rest => do
      let (members, rest) ← readMembers depth rest
      pure ((key, value) :: members, rest)
    | _ => none
  | _ + 1, _ => none

end

/-- The value that a text describes. -/
def read? (text : List Char) : Option Json := do
  let tokens ← scan text
  match readValue (2 * tokens.length + 2) tokens with
  | some (value, []) => pure value
  | _ => none

end AccessPattern.Json
