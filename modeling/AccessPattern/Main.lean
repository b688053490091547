import AccessPattern.Run.Basic
import Std.Time.DateTime.Timestamp

/-!
# The program

Runs the command line of the process on its files, its clocks and its source of randomness. The
exit code is the one of the run's outcome: 0 for success, 1 for an error, 2 for a command line
that makes no sense.
-/

namespace AccessPattern.Main

/-- The number and the words under which the operating system reports an error. -/
def systemError? : IO.Error → Option (UInt32 × String)
  | .alreadyExists _ code words | .otherError code words | .resourceBusy code words
  | .resourceVanished code words | .unsupportedOperation code words | .hardwareFault code words
  | .unsatisfiedConstraints code words | .illegalOperation code words
  | .protocolError code words | .timeExpired code words | .interrupted _ code words
  | .noFileOrDirectory _ code words | .invalidArgument _ code words
  | .permissionDenied _ code words | .resourceExhausted _ code words
  | .inappropriateType _ code words | .noSuchThing _ code words => some (code, words)
  | .unexpectedEof | .userError _ => none

/-- The fault that the operating system reports under a number. -/
def faultOfCode (code : UInt32) (words : String) : FileFault :=
  if code = 2 then .notFound
  else if code = 12 then .outOfMemory
  else if code = 17 then .alreadyExists
  else if code = 20 then .notDirectory
  else if code = 21 then .isDirectory
  else if code = 28 then .noSpace
  else if code = 36 then .nameTooLong
  else .other s!"{words} (os error {code})"

/-- The number of an error, which some operations report with its sign changed. -/
def plainCode (code : UInt32) : UInt32 :=
  if code < 0x80000000 then code else 0 - code

/-- The fault that an error stands for. -/
def faultOf (error : IO.Error) : FileFault :=
  match systemError? error with
  | some (code, words) => faultOfCode (plainCode code) words
  | none => .other (toString error)

/-- Do something with the file at a path, giving the fault if that fails. -/
def attempt {α : Type} (path : String) (action : IO α) : IO (Except FileFault α) := do
  if path.toList.contains '\x00' then return .error .nulInPath
  try
    return .ok (← action)
  catch error =>
    return .error (faultOf error)

/-- Write a file and wait until the system has taken all of it. -/
def writeThrough (path : String) (bytes : ByteArray) : IO Unit := do
  let handle ← IO.FS.Handle.mk path .write
  handle.write bytes
  handle.flush

/-- Whether there is a directory at the end of a path, links being followed. -/
def isDirectory (path : String) : IO Bool := do
  let found ← attempt path do (← IO.FS.realPath path).isDir
  return found.toOption.getD false

/-- A number of 64 bits from bytes. -/
def wordOfBytes (bytes : ByteArray) : UInt64 :=
  bytes.data.foldl (fun word byte => word * 256 + byte.toUInt64) 0

/-- The time of day. -/
def now : IO Timestamp := do
  let duration := (← Std.Time.Timestamp.now).toDurationSinceUnixEpoch
  return Timestamp.afterEpoch duration.second.val.toNat duration.nano.val.toNat

/-- The host that is the process's own surroundings. -/
def host : Host IO where
  read path := do
    let bytes ← attempt path (IO.FS.readBinFile path)
    return bytes.map fun bytes => bytes.data.toList
  write path bytes := attempt path (writeThrough path ⟨bytes.toArray⟩)
  isDirectory := isDirectory
  drawSeed _ := do return wordOfBytes (← IO.getRandomBytes 8)
  timeOfDay _ := now
  stopwatch := IO.monoMsNow

/-- Print the messages of a log, all with the time at which that is done. -/
def printLog (log : List LogLine) : IO Unit := do
  let time := (← now).render
  for line in log do
    let text := String.intercalate "\n" line.lines
    IO.eprintln s!"[{time} {line.level.name}] {text}"

end AccessPattern.Main

open AccessPattern in
/-- Run the command line of the process. -/
def main (words : List String) : IO UInt32 := do
  let seed ← IO.getEnv "FTLPATTERN_SEED"
  let outcome ← AccessPattern.run Main.host id words seed
  outcome.output.forM IO.println
  Main.printLog outcome.log
  outcome.report.forM IO.eprintln
  return outcome.exitCode
