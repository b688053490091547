import AccessPattern.Coverage
import AccessPattern.Manifest
import AccessPattern.Run.Host
import AccessPattern.Run.Log
import AccessPattern.Settings.Basic
import AccessPattern.Testset

/-!
# Jobs

A job makes the testset of one block size: it generates the offsets from a seed, writes them,
reads them back and checks them if that is asked for, and writes the manifest if that is asked
for. Whatever goes wrong ends the job; the other jobs of the run are not affected.

A job touches no file but its testset and its manifest. What it logs is determined by how it ends.
-/

namespace AccessPattern

/-- What is to be done for one block size. -/
structure Job where
  plan : BlockPlan
  /-- The seed of the random source. -/
  seed : UInt64
  /-- Whether the seed was drawn for this job. -/
  seedIsDrawn : Bool
  /-- The offsets of the testset. -/
  offsets : List UInt64
  /-- The path of the testset. -/
  path : String
  verify : Bool
  manifest : Bool
  /-- The offsets are those of the plan in the order that the seed determines. -/
  offsets_eq : offsets = plan.offsetsOfSeed seed

/-- Why a job failed. -/
inductive JobError where
  /-- The testset could not be written. -/
  | unwritten (path : String) (fault : FileFault)
  /-- The testset could not be read back. -/
  | unread (error : RequestError)
  /-- The offsets read back are not those generated. -/
  | differs (path : String)
  /-- The offsets read back do not cover the extent. -/
  | incomplete (path : String) (fault : CoverageFault)
  /-- The manifest could not be written. -/
  | noManifest (path : String) (fault : FileFault)
deriving DecidableEq, Repr

/-- The wordings of an error and of the causes behind it, outermost first. -/
def JobError.chain : JobError → List String
  | .unwritten path fault => RequestError.chain (.file path fault)
  | .unread error => error.chain
  | .differs path => [s!"{path}: file contents differ from generated sequence"]
  | .incomplete path fault => [s!"{path}: coverage check failed: {fault.message}"]
  | .noManifest path fault => Manifest.writeErrorChain path fault

/-- What is reported about a job that succeeded. -/
structure JobReport where
  path : String
  blockSize : UInt64
  blockCount : Nat
  /-- The seed, if the order depends on it. -/
  seed : Option UInt64
  /-- How many offsets each channel owns. -/
  channelBlocks : List UInt64
  /-- Milliseconds that the job took. -/
  elapsed : Nat
deriving DecidableEq, Repr

namespace Job

/-- The job of a plan under settings; the seed is the one of the settings if they have one. -/
def ofPlan (s : Settings) (seed : UInt64) (plan : BlockPlan) : Job where
  plan := plan
  seed := seed
  seedIsDrawn := s.seed.isNone
  offsets := plan.offsetsOfSeed seed
  path := s.testsetPath plan.blockSize
  verify := s.verify
  manifest := s.manifest
  offsets_eq := rfl

/-- The seed as far as the order depends on it. -/
def reportedSeed (job : Job) : Option UInt64 :=
  if job.plan.strategy.isRandomized then some job.seed else none

/-- The manifest of what the job writes. -/
def describe (job : Job) (time : Timestamp) : Manifest :=
  Manifest.describe job.plan job.reportedSeed job.offsets job.path time

/-- Check the offsets read back from the testset. -/
def checkReadBack (job : Job) (contents : Except FileFault Bytes) : Except JobError Unit := do
  let found ← (Testset.ofFile job.path contents).mapError .unread
  if found ≠ job.offsets then throw (.differs job.path)
  match checkCoverage found job.plan.extent job.plan.blockSize with
  | some fault => throw (.incomplete job.path fault)
  | none => pure ()

variable {m : Type → Type} [Monad m]

/-- Write the testset. -/
def writeTestset (host : Host m) (job : Job) : ExceptT JobError m Unit := do
  match ← host.write job.path (Bytes.ofText (Testset.render job.offsets)) with
  | .ok () => pure ()
  | .error fault => throw (.unwritten job.path fault)

/-- Read the testset back and check it, if that is asked for. -/
def verifyTestset (host : Host m) (job : Job) : ExceptT JobError m Unit := do
  if job.verify then
    let contents ← host.read job.path
    ExceptT.mk (pure (job.checkReadBack contents))

/-- Write the manifest, if that is asked for. -/
def writeManifest (host : Host m) (job : Job) : ExceptT JobError m Unit := do
  if job.manifest then
    let path := Path.manifest job.path
    let time ← host.timeOfDay job.plan.blockSize
    match ← host.write path (Bytes.ofText (job.describe time).fileText) with
    | .ok () => pure ()
    | .error fault => throw (.noManifest path fault)

/-- Do a job. -/
def run (host : Host m) (job : Job) : ExceptT JobError m JobReport := do
  let start ← host.stopwatch
  job.writeTestset host
  job.verifyTestset host
  job.writeManifest host
  let finish ← host.stopwatch
  pure
    { path := job.path
      blockSize := job.plan.blockSize
      blockCount := job.offsets.length
      seed := job.reportedSeed
      channelBlocks := (job.plan.geometry.histogram job.offsets).map UInt64.ofNat
      elapsed := finish - start }

/-- The lines before anything is written. -/
def openingLog (job : Job) : List LogLine :=
  let plan := job.plan
  let drawn : LogLine := ⟨.info, s!"{job.path}: entropy seed {job.seed}"⟩
  (if plan.strategy.isRandomized && job.seedIsDrawn then [drawn] else []) ++
    [⟨.debug, s!"generating {plan.strategy.name} testset: extent={plan.extent} " ++
      s!"block_size={plan.blockSize} page_size={plan.geometry.pageSize} " ++
      s!"channels={plan.geometry.channels} blocks={plan.blockCount}"⟩]

/-- The line about the testset that was written. -/
def writtenLog (job : Job) : LogLine :=
  ⟨.debug, s!"wrote {job.offsets.length} offsets to {job.path}"⟩

/-- The line about the testset that was checked, if that was asked for. -/
def verifiedLog (job : Job) : List LogLine :=
  if job.verify then [⟨.debug, s!"{job.path}: verified {job.offsets.length} offsets"⟩] else []

/-- All lines of a job, given the error it ended with, if any. -/
def log (job : Job) : Option JobError → List LogLine
  | some (.unwritten ..) => job.openingLog
  | some (.unread _) | some (.differs _) | some (.incomplete ..) =>
    job.openingLog ++ [job.writtenLog]
  | some (.noManifest ..) | none => job.openingLog ++ [job.writtenLog] ++ job.verifiedLog

end Job

end AccessPattern
