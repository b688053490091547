import AccessPattern.RequestError
import AccessPattern.Text.Blank
import AccessPattern.Text.Decimal

/-!
# Testset text

A testset is a text with one decimal offset per line and a newline after each. Reading is a little
more liberal than writing: blank lines, white space around an offset, leading zeros and a plus
sign are accepted. The first line that is not UTF-8 or not an offset is reported.
-/

namespace AccessPattern.Testset

/-- The text of a sequence of offsets. -/
def render (offsets : List UInt64) : String :=
  String.ofList (offsets.flatMap fun offset => Text.digits offset.toNat ++ ['\n'])

/-- The byte that ends a line. -/
def newline : UInt8 := 10

/-- Split bytes into lines, given the bytes of the current line and the lines before it, both
in reverse. A newline at the very end opens no further line. -/
def splitLines (current : Bytes) (done : List Bytes) : Bytes → List Bytes
  | [] => (if current = [] then done else current.reverse :: done).reverse
  | byte :: rest =>
    if byte = newline then splitLines [] (current.reverse :: done) rest
    else splitLines (byte :: current) done rest

/-- The lines of a file, without the newlines that end them. -/
def lines (bytes : Bytes) : List Bytes :=
  splitLines [] [] bytes

/-- Read one line: an offset, or nothing if the line is blank. -/
def readLine (source : String) (number : Nat) (line : Bytes) :
    Except RequestError (Option UInt64) :=
  match line.toText? with
  | none => .error (.file source .notText)
  | some text =>
    match Text.trim text.toList with
    | [] => .ok none
    | trimmed =>
      match Text.word64? trimmed with
      | some offset => .ok (some offset)
      | none => .error (.offsetLine source number (String.ofList trimmed))

/-- Read all offsets of a file; `source` only labels complaints. -/
def read (source : String) (bytes : Bytes) : Except RequestError (List UInt64) := do
  let values ← (lines bytes).zipIdx 1 |>.mapM fun (line, number) => readLine source number line
  pure (values.filterMap id)

/-- The offsets of a testset file, given what reading it gave. -/
def ofFile (path : String) : Except FileFault Bytes → Except RequestError (List UInt64)
  | .ok bytes => read path bytes
  | .error fault => .error (.file path fault)

end AccessPattern.Testset
