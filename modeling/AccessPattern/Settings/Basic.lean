import AccessPattern.Path
import AccessPattern.RequestError

/-!
# Settings of a run

What a run is to generate and where: the extent, the block sizes, the ordering strategy by name,
the seed, the backend geometry and the output files. One testset is generated per block size.
With a single block size it goes to the output path itself; with several, each goes to the output
path with the size put before the extension.
-/

namespace AccessPattern

/-- The settings of a run. -/
structure Settings where
  /-- The extent to cover in bytes. -/
  size : UInt64
  /-- The block sizes; each gets a testset of its own. -/
  blockSizes : List UInt64
  /-- The name of the ordering strategy as it was given. -/
  pattern : String
  /-- The seed for randomized strategies; without one each testset draws its own. -/
  seed : Option UInt64
  geometry : Geometry
  /-- The path of the testset, or the pattern of the paths when there are several. -/
  output : String
  /-- Whether a manifest is written next to each testset. -/
  manifest : Bool
  /-- Whether each testset is read back and checked. -/
  verify : Bool
  /-- Whether the run ends once the settings are known to be valid. -/
  dryRun : Bool
deriving DecidableEq, Repr

namespace Settings

/-- The settings in force when nothing is given: 4 GiB in blocks of 4 KiB, ascending. -/
def standard : Settings where
  size := 4294967296
  blockSizes := [4096]
  pattern := Strategy.linear.name
  seed := none
  geometry := Geometry.standard
  output := "testset.txt"
  manifest := false
  verify := false
  dryRun := false

/-- The strategy that the settings name. -/
def strategy (s : Settings) : Except RequestError Strategy :=
  Strategy.parse s.pattern

/-- What a strategy is asked to order for a block size. -/
def request (s : Settings) (strategy : Strategy) (blockSize : UInt64) : PlanRequest :=
  ⟨strategy, s.size, blockSize, s.geometry⟩

/-- The plan of a strategy for a block size. -/
def plan (s : Settings) (strategy : Strategy) (blockSize : UInt64) :
    Except RequestError BlockPlan :=
  match BlockPlan.check (s.request strategy blockSize) with
  | .ok plan => .ok plan
  | .error error => .error (.plan error)

/-- The plans of all block sizes in order, or the error of the first that has none. -/
def plans (s : Settings) : Except RequestError (List BlockPlan) := do
  let strategy ← s.strategy
  s.blockSizes.mapM (s.plan strategy)

/-- The path of the testset for a block size. -/
def testsetPath (s : Settings) (blockSize : UInt64) : String :=
  if s.blockSizes.length ≤ 1 then s.output
  else Path.suffixed s.output (Size.format blockSize)

/-- The path of the manifest for a block size. -/
def manifestPath (s : Settings) (blockSize : UInt64) : String :=
  Path.manifest (s.testsetPath blockSize)

end Settings

end AccessPattern
