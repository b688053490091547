import AccessPattern.Settings.Basic

/-!
# Valid settings

Settings are valid when every block size, listed once, has a plan and the output path can be
written to as a file. `validate` looks for what is wrong in a fixed order, so that of several
faults always the same one is reported, and gives the plans if there is none. What is valid but
unusual is left to `warnings`.
-/

namespace AccessPattern

/-- Why settings are not valid. -/
inductive SettingsFault where
  | noBlockSize
  /-- The block size stands in the list more than once. -/
  | repeatedBlockSize (blockSize : UInt64)
  | emptyOutput
  /-- There is a directory at the output path. -/
  | outputIsDirectory (path : String)
  /-- The strategy is not known, or a block size has no plan. -/
  | request (error : RequestError)
deriving DecidableEq, Repr

/-- The wordings of a fault and of the causes behind it, outermost first. -/
def SettingsFault.chain : SettingsFault → List String
  | .noBlockSize => ["at least one block size is required"]
  | .repeatedBlockSize blockSize => [s!"block size {blockSize} listed more than once"]
  | .emptyOutput => ["output path must not be empty"]
  | .outputIsDirectory path => [s!"output path {path} is a directory"]
  | .request error => error.chain

/-- Something unusual about valid settings. -/
inductive Warning where
  | unevenBlockSize (blockSize : UInt64)
  /-- The testset is so long that holding it takes much memory. -/
  | longTestset (blockSize blockCount : UInt64)
deriving DecidableEq, Repr

/-- The bytes that hold the offsets of a testset, or the largest number of 64 bits. -/
def heldBytes (blockCount : UInt64) : Nat :=
  min (blockCount.toNat * 8) (UInt64.size - 1)

/-- The wording of a warning. -/
def Warning.message : Warning → String
  | .unevenBlockSize blockSize => s!"block_size {blockSize} is not a power of 2"
  | .longTestset blockSize blockCount =>
    let mebibytes := heldBytes blockCount / (1024 * 1024)
    s!"block_size {blockSize} yields {blockCount} offsets (~{mebibytes} MiB in memory)"

namespace BlockPlan

/-- How many offsets a testset may have before a warning is given. -/
def manyBlocks : UInt64 := 134217728

/-- The warnings about a plan. -/
def warnings (plan : BlockPlan) : List Warning :=
  (if plan.blockSize &&& (plan.blockSize - 1) = 0 then []
    else [.unevenBlockSize plan.blockSize]) ++
  (if manyBlocks < plan.blockCount then [.longTestset plan.blockSize plan.blockCount] else [])

end BlockPlan

namespace Settings

/-- The first number of a list that stands at an earlier place too. -/
def firstRepeated? (seen : List UInt64) : List UInt64 → Option UInt64
  | [] => none
  | blockSize :: later =>
    if blockSize ∈ seen then some blockSize else firstRepeated? (blockSize :: seen) later

/-- What is wrong with a list of block sizes as a list. -/
def blockSizesFault? (blockSizes : List UInt64) : Option SettingsFault :=
  if blockSizes = [] then some .noBlockSize
  else (firstRepeated? [] blockSizes).map .repeatedBlockSize

/-- What is wrong with an output path, given whether there is a directory at it. -/
def outputFault? (isDirectory : Bool) (path : String) : Option SettingsFault :=
  if path = "" then some .emptyOutput
  else if isDirectory then some (.outputIsDirectory path)
  else none

/-- The plans of valid settings, or the first fault of others. The flag says whether there is a
directory at the output path. -/
def validate (isDirectory : Bool) (s : Settings) : Except SettingsFault (List BlockPlan) :=
  match (blockSizesFault? s.blockSizes).or (outputFault? isDirectory s.output) with
  | some fault => .error fault
  | none => s.plans.mapError .request

/-- The warnings about all plans in order. -/
def warnings (plans : List BlockPlan) : List Warning :=
  plans.flatMap BlockPlan.warnings

end Settings

end AccessPattern
