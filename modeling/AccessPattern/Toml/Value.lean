import AccessPattern.Toml.Scalar

/-!
# Keys and values of TOML

A key is a sequence of bare or quoted names with dots between them. Arrays may spread over lines
and end in a comma, inline tables may not. Arrays and inline tables nest to a fixed number of
levels, and keys are limited to a fixed number of names.
-/

namespace AccessPattern.Toml

/-- How many levels of arrays and inline tables, and how many names in a key, are refused. -/
def nestingLimit : Nat := 80

/-- The characters of a bare key. -/
def isBareKeyChar (c : Char) : Bool :=
  c.isAlphanum || c == '_' || c == '-'

/-- One name of a key. -/
def scanName : List Char → Option (String × List Char)
  | '"' :: rest => (scanBasic rest).map fun (chars, rest) => (String.ofList chars, rest)
  | '\'' :: rest => (scanLiteral rest).map fun (chars, rest) => (String.ofList chars, rest)
  | text =>
    match text.takeWhile isBareKeyChar with
    | [] => none
    | chars => some (String.ofList chars, text.dropWhile isBareKeyChar)

/-- Elements with separators between them: one at least, and at most the given number. The element
after a separator has to be there. -/
def scanSeparated {α : Type} (separator : Char) (element : List Char → Option (α × List Char)) :
    Nat → List Char → Option (List α × List Char)
  | 0, _ => none
  | steps + 1, text => do
    let (first, rest) ← element text
    match rest with
    | c :: after =>
      if c = separator then do
        let (others, rest) ← scanSeparated separator element steps after
        pure (first :: others, rest)
      else pure ([first], c :: after)
    | [] => pure ([first], [])

/-- A name with the blanks around it. -/
def scanSpacedName (text : List Char) : Option (String × List Char) := do
  let (name, rest) ← scanName (skipBlanks text)
  pure (name, skipBlanks rest)

/-- A key: the names before the last, and the last. -/
def scanKey (text : List Char) : Option ((List String × String) × List Char) := do
  let (names, rest) ← scanSeparated '.' scanSpacedName (nestingLimit - 1) text
  let last ← names.getLast?
  pure ((names.dropLast, last), rest)

/-- A key, an equals sign and a value, given how values are read. -/
def scanPair (value : List Char → Option (Node × List Char)) (text : List Char) :
    Option (Pair × List Char) := do
  let ((path, key), rest) ← scanKey text
  let rest ← skipChar '=' rest
  let (node, rest) ← value (skipBlanks rest)
  pure (⟨path, key, node⟩, rest)

/-- An item of an array with the blanks, line ends and comments around it. -/
def scanItem (value : List Char → Option (Node × List Char)) (text : List Char) :
    Option (Node × List Char) := do
  let (node, rest) ← value (skipSpace text)
  pure (node, skipSpace rest)

/-- Items up to the closing bracket of an array, at most the given number; a comma may stand before
the bracket. -/
def scanItems (item : List Char → Option (Node × List Char)) :
    Nat → List Char → Option (List Node × List Char)
  | 0, _ => none
  | steps + 1, text =>
    match skipSpace text with
    | ']' :: rest => some ([], rest)
    | _ => do
      let (first, rest) ← item text
      match rest with
      | ']' :: rest => pure ([first], rest)
      | ',' :: rest =>
        let (others, rest) ← scanItems item steps rest
        pure (first :: others, rest)
      | _ => none

/-- The pairs of an inline table up to its closing brace. -/
def scanInlinePairs (pair : List Char → Option (Pair × List Char)) (text : List Char) :
    Option (List Pair × List Char) :=
  match skipBlanks text with
  | '}' :: rest => some ([], rest)
  | _ => do
    let (pairs, rest) ← scanSeparated ',' pair (text.length + 1) text
    let rest ← skipChar '}' rest
    pure (pairs, rest)

/-- A value, in which arrays and inline tables nest less deep than the given number of levels. -/
def scanValue : Nat → List Char → Option (Node × List Char)
  | levels + 1, '[' :: rest => do
    let (items, rest) ← scanItems (scanItem (scanValue levels)) (rest.length + 1) rest
    pure (.array items, rest)
  | levels + 1, '{' :: rest => do
    let pair := fun text => do
      let (pair, rest) ← scanPair (scanValue levels) text
      pure (pair, skipBlanks rest)
    let (pairs, rest) ← scanInlinePairs pair rest
    let entries ← Entries.addPairs .inline [] pairs
    pure (.table .inline entries, rest)
  | _, text => scanScalar text

end AccessPattern.Toml
