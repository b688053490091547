import AccessPattern.Files.Fault
import AccessPattern.Plan.Block
import AccessPattern.Size

/-!
# Errors of requests

What can be wrong with a request to generate or read a testset: a setting or an input file that
breaks a rule of generation, an unknown strategy, or a file that cannot be handled.
-/

namespace AccessPattern

/-- Why a request was not fulfilled. -/
inductive RequestError where
  /-- A size is not written as one. -/
  | size (error : SizeError)
  /-- The settings do not make a plan. -/
  | plan (error : PlanError)
  /-- A line of a testset is not an offset; lines count from one. -/
  | offsetLine (source : String) (line : Nat) (text : String)
  /-- No strategy has the given name. -/
  | unknownStrategy (text : String)
  /-- A testset file could not be written or read. -/
  | file (path : String) (fault : FileFault)
deriving DecidableEq, Repr

namespace RequestError

/-- The words that open the wording of an error in the settings. -/
def settingsHeading : String := "invalid configuration: "

/-- The wording of a request error. -/
def message : RequestError → String
  | .size error => settingsHeading ++ error.message
  | .plan error => settingsHeading ++ error.message
  | .offsetLine source line text =>
    settingsHeading ++ s!"{source} line {line}: '{text}' is not a byte offset"
  | .unknownStrategy text => Strategy.unknownMessage text
  | .file path fault => s!"testset IO failed for {path}: {fault.message}"

/-- The wordings of an error and of the causes behind it, outermost first. -/
def chain : RequestError → List String
  | .file path fault => [message (.file path fault), fault.message]
  | error => [error.message]

end RequestError

/-- The strategy that a text names, or the complaint that there is none. -/
def Strategy.parse (text : String) : Except RequestError Strategy :=
  match Strategy.parse? text with
  | some strategy => .ok strategy
  | none => .error (.unknownStrategy text)

end AccessPattern
