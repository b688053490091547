import AccessPattern.Plan.Geometry
import Std.Data.HashSet

/-!
# Coverage of an extent

A sequence of offsets covers an extent when it consists of the offsets of all whole blocks of the
extent, each once. `checkCoverage` looks at the offsets in order and names the first that is not
aligned, lies beyond the extent or repeats an earlier one; if there is none it names the lowest
block that is missing.
-/

namespace AccessPattern

/-- Why a sequence does not cover an extent; positions count from zero. -/
inductive CoverageFault where
  /-- The offset is not a multiple of the block size. -/
  | misaligned (position : Nat) (offset : UInt64)
  /-- The offset lies outside the whole blocks of the extent. -/
  | outOfRange (position : Nat) (offset : UInt64)
  /-- The offset stands at an earlier position too. -/
  | duplicate (position : Nat) (offset : UInt64)
  /-- The lowest offset that stands nowhere. -/
  | missing (offset : UInt64)
deriving DecidableEq, Repr

/-- The wording of a fault, with lines counted from one. -/
def CoverageFault.message : CoverageFault → String
  | .misaligned position offset =>
    s!"offset {offset} at line {position + 1} is not block aligned"
  | .outOfRange position offset =>
    s!"offset {offset} at line {position + 1} is beyond the extent"
  | .duplicate position offset =>
    s!"offset {offset} at line {position + 1} appears more than once"
  | .missing offset => s!"offset {offset} is never emitted"

namespace Coverage

/-- The lowest number from `block` up to but not including `count` that is not in the set. -/
def firstAbsent (seen : Std.HashSet Nat) (count block : Nat) : Option Nat :=
  if block < count then
    if seen.contains block then firstAbsent seen count (block + 1) else some block
  else none
termination_by count - block

/-- Look at the offsets from a position on, knowing the blocks seen at earlier positions. -/
def scan (blockSize : UInt64) (count position : Nat) (seen : Std.HashSet Nat) :
    List UInt64 → Option CoverageFault
  | [] => (firstAbsent seen count 0).map fun block => .missing (UInt64.ofNat block * blockSize)
  | offset :: later =>
    if offset % blockSize ≠ 0 then some (.misaligned position offset)
    else
      let block := (offset / blockSize).toNat
      if count ≤ block then some (.outOfRange position offset)
      else if seen.contains block then some (.duplicate position offset)
      else scan blockSize count (position + 1) (seen.insert block) later

end Coverage

/-- The first fault of a sequence as a cover of the extent, or none if it covers it. -/
def checkCoverage (offsets : List UInt64) (extent blockSize : UInt64) : Option CoverageFault :=
  Coverage.scan blockSize (extent / blockSize).toNat 0 ∅ offsets

/-- The coverage check, unless blocks have no size. -/
def checkCoverage? (offsets : List UInt64) (extent blockSize : UInt64) :
    Except ArithmeticFault (Option CoverageFault) :=
  if blockSize = 0 then .error .blockDivision else .ok (checkCoverage offsets extent blockSize)

end AccessPattern
