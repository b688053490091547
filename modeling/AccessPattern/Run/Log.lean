/-!
# Log lines

A run logs messages of four levels. Messages of the level `debug` are for those who ask for
details. A message of several lines is logged with its later lines indented.
-/

namespace AccessPattern

/-- How much a message matters. -/
inductive LogLevel where
  | debug
  | info
  | warn
  | error
deriving DecidableEq, Repr

/-- The name of a level. -/
def LogLevel.name : LogLevel → String
  | .debug => "DEBUG"
  | .info => "INFO"
  | .warn => "WARN"
  | .error => "ERROR"

/-- A message and its level. -/
structure LogLine where
  level : LogLevel
  message : String
deriving DecidableEq, Repr

namespace LogLine

/-- Whether a message is logged, given whether details were asked for. -/
def isShown (debug : Bool) (line : LogLine) : Bool :=
  debug || line.level != .debug

/-- The lines of text that log a message, the first without its level. -/
def lines (line : LogLine) : List String :=
  match line.message.splitOn "\n" with
  | [] => []
  | first :: later => first :: later.map ("    " ++ ·)

end LogLine

end AccessPattern
