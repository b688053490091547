import AccessPattern.Settings.Basic
import AccessPattern.Toml.Document

/-!
# Settings files

A settings file is a TOML document with the sections `testset`, `geometry`, `output` and
`runtime`. Every key may be missing and then keeps the standard value; unknown keys and sections
are skipped. The keys are looked at in the order in which they stand, and the first that has no
proper value refuses the file.

A section is a table, or an array of the values of its keys in a fixed order. A date in the place
of a section sets nothing.
-/

namespace AccessPattern

/-- Why a text is no settings file. -/
inductive TextFault where
  /-- The text is not TOML, or a value is not of the kind that its key asks for. -/
  | malformed
  /-- A text in the place of a size is not written as one. -/
  | size (error : SizeError)
deriving DecidableEq, Repr

namespace TextFault

/-- What was being done when the fault was met. -/
def context : String := "Failed to parse TOML configuration"

/-- The wording of the fault itself. -/
def message : TextFault → String
  | .malformed => "not a TOML document of testset settings"
  | .size error => RequestError.message (.size error)

/-- The wording of the fault in a report, under the heading of all faults of such texts. -/
def report (fault : TextFault) : String :=
  s!"TOML parse error: {fault.message}"

end TextFault

namespace Settings

/-- A natural number that fits the integers of TOML. -/
def naturalValue : Toml.Node → Except TextFault UInt64
  | .integer (.ofNat n) => .ok (UInt64.ofNat n)
  | _ => .error .malformed

/-- A text. -/
def textValue : Toml.Node → Except TextFault String
  | .text value => .ok value
  | _ => .error .malformed

/-- A truth value. -/
def booleanValue : Toml.Node → Except TextFault Bool
  | .boolean value => .ok value
  | _ => .error .malformed

/-- What stands in the place of a size: a number of bytes, or a text still to be read. -/
inductive SizeValue where
  | bytes (size : UInt64)
  | text (written : String)

/-- A number of bytes or a text. -/
def sizeValue : Toml.Node → Except TextFault SizeValue
  | .text written => .ok (.text written)
  | node => (naturalValue node).map .bytes

/-- The size that a number of bytes or a text stands for. -/
def SizeValue.resolve : SizeValue → Except TextFault UInt64
  | .bytes size => .ok size
  | .text written => (Size.parse written).mapError .size

/-- A size. -/
def size? (node : Toml.Node) : Except TextFault UInt64 := do
  (← sizeValue node).resolve

/-- A list of sizes. All items have to be of the right kind before any text is read. -/
def sizes? : Toml.Node → Except TextFault (List UInt64)
  | .array items => do
    (← items.mapM sizeValue).mapM SizeValue.resolve
  | _ => .error .malformed

/-- A key of a section and how its value changes the settings. -/
structure Field where
  key : String
  read : Settings → Toml.Node → Except TextFault Settings

/-- The keys of the section `testset` in their order. -/
def testsetFields : List Field :=
  [⟨"size", fun s node => do pure { s with size := ← size? node }⟩,
    ⟨"block_sizes", fun s node => do pure { s with blockSizes := ← sizes? node }⟩,
    ⟨"pattern", fun s node => do pure { s with pattern := ← textValue node }⟩,
    ⟨"seed", fun s node => do pure { s with seed := some (← naturalValue node) }⟩]

/-- The keys of the section `geometry` in their order. -/
def geometryFields : List Field :=
  [⟨"page_size", fun s node => do
      pure { s with geometry := { s.geometry with pageSize := ← naturalValue node } }⟩,
    ⟨"channels", fun s node => do
      pure { s with geometry := { s.geometry with channels := ← naturalValue node } }⟩]

/-- The keys of the section `output` in their order. -/
def outputFields : List Field :=
  [⟨"path", fun s node => do pure { s with output := ← textValue node }⟩,
    ⟨"manifest", fun s node => do pure { s with manifest := ← booleanValue node }⟩,
    ⟨"verify", fun s node => do pure { s with verify := ← booleanValue node }⟩]

/-- The keys of the section `runtime` in their order. -/
def runtimeFields : List Field :=
  [⟨"dry_run", fun s node => do pure { s with dryRun := ← booleanValue node }⟩]

/-- Read the entry of a table; an unknown key changes nothing. -/
def readEntry (fields : List Field) (s : Settings) (entry : String × Toml.Node) :
    Except TextFault Settings :=
  match fields.find? fun field => field.key == entry.1 with
  | some field => field.read s entry.2
  | none => .ok s

/-- Read a section: the entries of a table, or the items of an array as the values of the keys. -/
def readSection (fields : List Field) (s : Settings) : Toml.Node → Except TextFault Settings
  | .table _ entries => entries.foldlM (readEntry fields) s
  | .array items => (fields.zip items).foldlM (fun s (field, node) => field.read s node) s
  | .dateTime => .ok s
  | _ => .error .malformed

/-- The sections of a settings file. -/
def sections : List Field :=
  [⟨"testset", readSection testsetFields⟩, ⟨"geometry", readSection geometryFields⟩,
    ⟨"output", readSection outputFields⟩, ⟨"runtime", readSection runtimeFields⟩]

/-- The settings that the entries of a document give. -/
def ofEntries (entries : Toml.Entries) : Except TextFault Settings :=
  entries.foldlM (readEntry sections) standard

/-- The settings that a text gives. -/
def ofText (text : String) : Except TextFault Settings :=
  match Toml.read? text with
  | some entries => ofEntries entries
  | none => .error .malformed

end Settings

/-- Why a settings file gives no settings. -/
inductive SettingsFileError where
  /-- The file could not be read as a text. -/
  | unreadable (path : String) (fault : FileFault)
  /-- The text of the file was refused. -/
  | refused (path : String) (fault : TextFault)
deriving DecidableEq, Repr

/-- The wordings of an error and of the causes behind it, outermost first. -/
def SettingsFileError.chain : SettingsFileError → List String
  | .unreadable path fault => [s!"Failed to read config file: {path}", fault.message]
  | .refused path fault =>
    [s!"Failed to parse config file: {path}", TextFault.context, fault.report]

/-- The settings of a file, given what reading it gave. -/
def Settings.ofFile (path : String) : Except FileFault Bytes → Except SettingsFileError Settings
  | .error fault => .error (.unreadable path fault)
  | .ok bytes =>
    match bytes.toText? with
    | none => .error (.unreadable path .notText)
    | some text => (Settings.ofText text).mapError (.refused path)

end AccessPattern
