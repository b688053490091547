import AccessPattern.Json.Reader
import AccessPattern.Json.Writer
import AccessPattern.Order.Generate
import AccessPattern.Path
import AccessPattern.RequestError
import AccessPattern.Timestamp.Reader

/-!
# Manifests

A manifest records how a testset was generated: the plan, the seed if the strategy is randomized,
how many offsets there are, in total and on each channel, which file they went to and when. It is
kept as a JSON object whose fields stand in a fixed order, and it suffices to generate the testset
again.
-/

namespace AccessPattern

/-- The record of one generated testset. -/
structure Manifest where
  generatedAt : Timestamp
  strategy : Strategy
  extent : UInt64
  blockSize : UInt64
  pageSize : UInt64
  channels : UInt64
  /-- The seed of the random source, kept for randomized strategies only. -/
  seed : Option UInt64
  blockCount : UInt64
  channelBlocks : List UInt64
  /-- The path of the testset. -/
  testset : String
deriving DecidableEq, Repr

namespace Manifest

/-- The record of offsets generated for a plan. -/
def describe (plan : BlockPlan) (seed : Option UInt64) (offsets : List UInt64) (testset : String)
    (generatedAt : Timestamp) : Manifest where
  generatedAt := generatedAt
  strategy := plan.strategy
  extent := plan.extent
  blockSize := plan.blockSize
  pageSize := plan.geometry.pageSize
  channels := plan.geometry.channels
  seed := if plan.strategy.isRandomized then seed else none
  blockCount := UInt64.ofNat offsets.length
  channelBlocks := (plan.geometry.histogram offsets).map UInt64.ofNat
  testset := testset

/-- The request that a manifest records. -/
def request (m : Manifest) : PlanRequest :=
  ⟨m.strategy, m.extent, m.blockSize, ⟨m.pageSize, m.channels⟩⟩

/-- The plan that a manifest records, checked again. -/
def plan (m : Manifest) : Except PlanError BlockPlan :=
  BlockPlan.check m.request

/-- Generate the offsets again that a manifest records; a missing seed counts as zero. -/
def replay (m : Manifest) : Except PlanError (List UInt64) := do
  let plan ← m.plan
  pure (plan.offsetsOfSeed (m.seed.getD 0))

/-- A 64-bit number as a JSON value. -/
def wordValue (n : UInt64) : Json :=
  .natural n.toNat

/-- The seed as a member, left out when there is none. -/
def seedMember : Option UInt64 → List (Option String × Json)
  | some seed => [(some "seed", wordValue seed)]
  | none => []

/-- A manifest as a JSON object. -/
def toJson (m : Manifest) : Json :=
  .object <|
    [(some "generated_at", .text m.generatedAt.render),
      (some "strategy", .text m.strategy.name),
      (some "extent", wordValue m.extent),
      (some "block_size", wordValue m.blockSize),
      (some "page_size", wordValue m.pageSize),
      (some "channels", wordValue m.channels)] ++
    seedMember m.seed ++
    [(some "block_count", wordValue m.blockCount),
      (some "channel_blocks", .array (m.channelBlocks.map wordValue)),
      (some "testset", .text m.testset)]

/-- The text of a manifest. -/
def render (m : Manifest) : String :=
  m.toJson.render

/-- A string of Unicode text. -/
def text? : Json → Option String
  | .string text => text
  | _ => none

/-- A natural number of 64 bits. -/
def word? : Json → Option UInt64
  | .natural n => if n < UInt64.size then some (UInt64.ofNat n) else none
  | _ => none

/-- A natural number of 64 bits, or null for none. -/
def optionalWord? : Json → Option (Option UInt64)
  | .null => some none
  | value => (word? value).map some

/-- A list of natural numbers of 64 bits. -/
def words? : Json → Option (List UInt64)
  | .array items => items.mapM word?
  | _ => none

/-- A point in time, given as text. -/
def timestamp? (value : Json) : Option Timestamp := do
  Timestamp.parse? (← text? value)

/-- The strategy of exactly this name. -/
def strategyNamed? (name : String) : Option Strategy :=
  Strategy.all.find? fun strategy => strategy.name == name

/-- A strategy: its name, or an object whose only member is its name with the value null. -/
def strategy? : Json → Option Strategy
  | .string (some name) => strategyNamed? name
  | .object [(some name, .null)] => strategyNamed? name
  | _ => none

/-- The value of a field that stands in an object exactly once. -/
def single? : List Json → Option Json
  | [value] => some value
  | _ => none

/-- The value of a field that stands in an object at most once; a missing one reads as null. -/
def atMostOne? : List Json → Option Json
  | [] => some .null
  | values => single? values

/-- The manifest of the ten field values in their order. -/
def ofFields? (generatedAt strategy extent blockSize pageSize channels seed blockCount
    channelBlocks testset : Json) : Option Manifest := do
  pure
    { generatedAt := ← timestamp? generatedAt
      strategy := ← strategy? strategy
      extent := ← word? extent
      blockSize := ← word? blockSize
      pageSize := ← word? pageSize
      channels := ← word? channels
      seed := ← optionalWord? seed
      blockCount := ← word? blockCount
      channelBlocks := ← words? channelBlocks
      testset := ← text? testset }

/-- The manifest of a JSON value: an object with the known fields, each once and the seed at most
once, or an array of the ten field values. Other members of an object are ignored, but their
names have to be texts. -/
def ofJson? : Json → Option Manifest
  | .object members => do
    if members.any fun (key, _) => key.isNone then none
    let field (name : String) := single? (Json.valuesOf members name)
    ofFields? (← field "generated_at") (← field "strategy") (← field "extent")
      (← field "block_size") (← field "page_size") (← field "channels")
      (← atMostOne? (Json.valuesOf members "seed")) (← field "block_count")
      (← field "channel_blocks") (← field "testset")
  | .array [generatedAt, strategy, extent, blockSize, pageSize, channels, seed, blockCount,
      channelBlocks, testset] =>
    ofFields? generatedAt strategy extent blockSize pageSize channels seed blockCount
      channelBlocks testset
  | _ => none

/-- The manifest that a text describes. -/
def parse? (text : String) : Option Manifest := do
  ofJson? (← Json.read? text.toList)

/-- The path of the manifest of the testset that a manifest describes. -/
def path (m : Manifest) : String :=
  Path.manifest m.testset

/-- The text of a manifest file: the manifest and a newline. -/
def fileText (m : Manifest) : String :=
  m.render ++ "\n"

end Manifest

/-- Why a file gives no manifest. -/
inductive ManifestFileError where
  /-- The file could not be read as a text. -/
  | unreadable (path : String) (fault : FileFault)
  /-- The text of the file is no manifest. -/
  | malformed (path : String)
deriving DecidableEq, Repr

namespace Manifest

/-- What is said of a text that is no manifest. -/
def malformedMessage : String := "Invalid testset manifest JSON"

/-- The manifest of a file, given what reading it gave. -/
def ofFile (path : String) : Except FileFault Bytes → Except ManifestFileError Manifest
  | .error fault => .error (.unreadable path fault)
  | .ok bytes =>
    match bytes.toText? with
    | none => .error (.unreadable path .notText)
    | some text =>
      match parse? text with
      | some m => .ok m
      | none => .error (.malformed path)

end Manifest

/-- The wordings of an error and of the causes behind it, outermost first. -/
def ManifestFileError.chain : ManifestFileError → List String
  | .unreadable path fault => [s!"Failed to read testset manifest: {path}", fault.message]
  | .malformed path =>
    [s!"Failed to parse testset manifest: {path}", Manifest.malformedMessage]

/-- The wordings of the failure to write a manifest file. -/
def Manifest.writeErrorChain (path : String) (fault : FileFault) : List String :=
  [s!"Failed to write testset manifest: {path}", fault.message]

end AccessPattern
