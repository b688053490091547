import AccessPattern.Toml.Value

/-!
# TOML documents

A document is a sequence of lines: pairs, headers in single or double brackets, comments and empty
lines. The pairs after a header belong to its table. `read?` gives the entries of the document's
own table.
-/

namespace AccessPattern.Toml

/-- A line that says something. -/
inductive Line where
  | pair (pair : Pair)
  /-- A header in single brackets, with the path to its table and the key there. -/
  | header (path : List String) (key : String)
  /-- A header in double brackets. -/
  | element (path : List String) (key : String)

/-- The line at the start of a text that starts with neither a blank, a comment nor a line end. -/
def scanLine : List Char → Option (Line × List Char)
  | '[' :: '[' :: rest => do
    let ((path, key), rest) ← scanKey rest
    let rest ← skipChar ']' rest
    let rest ← skipChar ']' rest
    let rest ← skipLineEnd rest
    pure (.element path key, rest)
  | '[' :: rest => do
    let ((path, key), rest) ← scanKey rest
    let rest ← skipChar ']' rest
    let rest ← skipLineEnd rest
    pure (.header path key, rest)
  | text => do
    let (pair, rest) ← scanPair (scanValue (nestingLimit - 1)) text
    let rest ← skipLineEnd rest
    pure (.pair pair, rest)

/-- All lines of a text that say something, at most the given number of them and of others. -/
def scanLines : Nat → List Char → Option (List Line)
  | 0, _ => none
  | steps + 1, text =>
    match skipBlanks text with
    | [] => some []
    | '#' :: rest => do
      let rest ← skipLineEnd ('#' :: rest)
      scanLines steps rest
    | rest =>
      match skipNewline rest with
      | some rest => scanLines steps rest
      | none => do
        let (line, rest) ← scanLine rest
        let lines ← scanLines steps rest
        pure (line :: lines)

/-- The pairs before the first header, and the lines from it on. -/
def spanPairs : List Line → List Pair × List Line
  | .pair pair :: lines =>
    let (pairs, rest) := spanPairs lines
    (pair :: pairs, rest)
  | lines => ([], lines)

/-- Add the tables of headers and their pairs to the entries of a document, handling at most the
given number of headers. -/
def addSections : Nat → Entries → List Line → Option Entries
  | steps + 1, entries, .header path key :: lines => do
    let (pairs, lines) := spanPairs lines
    let entries ← entries.updateAt false (fun _ => Entries.openTable key pairs) path .header
    addSections steps entries lines
  | steps + 1, entries, .element path key :: lines => do
    let (pairs, lines) := spanPairs lines
    let entries ← entries.updateAt false (fun _ => Entries.appendTable key pairs) path .header
    addSections steps entries lines
  | _, entries, [] => some entries
  | _, _, _ => none

/-- The entries that the lines of a document make. -/
def entriesOfLines (lines : List Line) : Option Entries := do
  let (pairs, lines) := spanPairs lines
  let entries ← Entries.addPairs .header [] pairs
  addSections lines.length entries lines

/-- A text without the byte order mark that may open it. -/
def dropByteOrderMark : List Char → List Char
  | '\ufeff' :: rest => rest
  | text => text

/-- The entries of the table that a document describes. -/
def read? (text : String) : Option Entries := do
  let chars := dropByteOrderMark text.toList
  let lines ← scanLines (chars.length + 1) chars
  entriesOfLines lines

end AccessPattern.Toml
