import AccessPattern.Files.System
import AccessPattern.Timestamp.Basic

/-!
# What a run needs of its surroundings

A run reads and writes files, draws seeds and looks at clocks. `Host` lists these operations for
any monad, so that the same run can be done for real and on a `FileSystem` value. On the latter,
`Surroundings.host`, the seeds and times are given beforehand for each block size; whatever the
order of the jobs, each sees its own.
-/

namespace AccessPattern

/-- The operations that a run is given. -/
structure Host (m : Type → Type) where
  /-- The bytes of the file at a path. -/
  read : String → m (Except FileFault Bytes)
  /-- Write a file at a path. -/
  write : String → Bytes → m (Except FileFault Unit)
  /-- Whether there is a directory at a path. -/
  isDirectory : String → m Bool
  /-- A seed for the testset of a block size. -/
  drawSeed : UInt64 → m UInt64
  /-- The time of day for the manifest of a block size. -/
  timeOfDay : UInt64 → m Timestamp
  /-- Milliseconds since some fixed moment. -/
  stopwatch : m Nat

/-- What a run on a `FileSystem` is given beforehand. -/
structure Surroundings where
  /-- The seeds drawn for the block sizes. -/
  seedOf : UInt64 → UInt64
  /-- The times of the manifests of the block sizes. -/
  timeOf : UInt64 → Timestamp

namespace FileSystem

/-- Write a file, keeping the file system if that fails. -/
def writeOrKeep (path : String) (bytes : Bytes) : StateM FileSystem (Except FileFault Unit) :=
  fun fs =>
    match fs.write path bytes with
    | .ok next => (.ok (), next)
    | .error fault => (.error fault, fs)

end FileSystem

/-- The host whose files are those of a `FileSystem`. No time passes there. -/
def Surroundings.host (given : Surroundings) : Host (StateM FileSystem) where
  read path := fun fs => (fs.read path, fs)
  write := FileSystem.writeOrKeep
  isDirectory path := fun fs => (fs.isDirectory path, fs)
  drawSeed blockSize := pure (given.seedOf blockSize)
  timeOfDay blockSize := pure (given.timeOf blockSize)
  stopwatch := pure 0

end AccessPattern
