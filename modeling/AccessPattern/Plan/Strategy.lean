import AccessPattern.Text.Blank
import AccessPattern.Text.LetterCase

/-!
# Ordering strategies

The five policies by which the blocks of an extent are ordered, with their names. A name is read
without regard to case and surrounding white space, with `-` for `_`; two further names are
aliases.
-/

namespace AccessPattern

/-- The policy by which blocks are ordered. -/
inductive Strategy where
  /-- Ascending. -/
  | linear
  /-- Shuffled as a whole. -/
  | random
  /-- One block per channel in turn, each channel ascending. -/
  | roundRobinSequential
  /-- One block per channel in turn, each channel shuffled. -/
  | roundRobinRandom
  /-- One page per channel in turn, the pages of each channel shuffled. -/
  | roundRobinPerPages
deriving DecidableEq, Repr

namespace Strategy

/-- All strategies, in the order in which they are listed to users. -/
def all : List Strategy :=
  [linear, random, roundRobinSequential, roundRobinRandom, roundRobinPerPages]

/-- The name of a strategy. -/
def name : Strategy → String
  | linear => "linear"
  | random => "random"
  | roundRobinSequential => "round_robin_sequential"
  | roundRobinRandom => "round_robin_random"
  | roundRobinPerPages => "round_robin_per_pages"

/-- Whether the order depends on which channel owns a block. -/
def isStriped : Strategy → Bool
  | linear | random => false
  | roundRobinSequential | roundRobinRandom | roundRobinPerPages => true

/-- Whether the order depends on a random source. -/
def isRandomized : Strategy → Bool
  | linear | roundRobinSequential => false
  | random | roundRobinRandom | roundRobinPerPages => true

/-- The strategy of a name in its plain spelling, aliases included. -/
def ofPlainName? (text : String) : Option Strategy :=
  if text = "sequential" then some linear
  else if text = "round_robin" then some roundRobinRandom
  else all.find? fun strategy => strategy.name == text

/-- The plain spelling of a name: no surrounding white space, lower case, `_` for `-`. -/
def plainName (text : String) : String :=
  String.ofList <| (Text.lower (Text.trim text.toList)).map fun c => if c = '-' then '_' else c

/-- The strategy that a text names. -/
def parse? (text : String) : Option Strategy :=
  ofPlainName? (plainName text)

/-- The wording of the complaint about a text that names no strategy. -/
def unknownMessage (text : String) : String :=
  s!"unknown strategy '{text}' (expected one of: " ++
    String.intercalate ", " (all.map name) ++ ")"

/-- Every strategy is listed. -/
@[simp] theorem mem_all (strategy : Strategy) : strategy ∈ all := by
  cases strategy <;> decide

/-- Every strategy is found by its name. -/
@[simp] theorem ofPlainName?_name (strategy : Strategy) :
    ofPlainName? strategy.name = some strategy := by
  cases strategy <;> decide

end Strategy

end AccessPattern
