/-!
# JSON values

The values that a JSON text describes. Two refinements keep what a reader of known fields has to
tell apart: a number is either a plain natural number or something else (signed, with a fraction
or an exponent), and a string is missing when its escapes leave half of a surrogate pair alone,
which is well formed JSON but no Unicode text.
-/

namespace AccessPattern

/-- A JSON value. -/
inductive Json where
  | null
  | boolean (value : Bool)
  /-- A number written with digits only. -/
  | natural (value : Nat)
  /-- A number with a sign, a fraction or an exponent. -/
  | otherNumber
  | string (text : Option String)
  | array (items : List Json)
  | object (members : List (Option String × Json))

namespace Json

/-- A string value of a Unicode text. -/
def text (text : String) : Json :=
  .string (some text)

/-- The values of all members with a name, in order. -/
def valuesOf (members : List (Option String × Json)) (name : String) : List Json :=
  members.filterMap fun (key, value) => if key = some name then some value else none

end Json

end AccessPattern
