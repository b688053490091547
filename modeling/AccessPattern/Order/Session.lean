import AccessPattern.Order.Generate

/-!
# Sessions

A session answers a sequence of requests from one random source. A request for a plan that does
not pass its check leaves the source alone, and so does one for a plan whose order needs no
randomness.
-/

namespace AccessPattern.Session

/-- What can be asked of a shared random source. -/
inductive Step where
  /-- Generate the offsets of a request. -/
  | generate (request : PlanRequest)
  /-- Take a 64-bit word. -/
  | nextLong
  /-- Take a 32-bit word. -/
  | nextShort
  /-- Start over from a seed. -/
  | reseed (seed : UInt64)
deriving DecidableEq, Repr

/-- The answer to a step. -/
inductive Answer where
  | offsets (offsets : List UInt64)
  | long (word : UInt64)
  | short (word : UInt32)
  | reseeded
  /-- The plan was refused; nothing was drawn. -/
  | refused (error : PlanError)
deriving DecidableEq, Repr

/-- Answer one step, giving the source as it is afterwards. -/
def answer (source : Xoshiro) : Step → Answer × Xoshiro
  | .generate request =>
    match BlockPlan.check request with
    | .ok plan =>
      let (offsets, next) := plan.generate.run source
      (.offsets offsets, next)
    | .error error => (.refused error, source)
  | .nextLong =>
    let (word, next) := source.nextLong
    (.long word, next)
  | .nextShort =>
    let (word, next) := source.nextShort
    (.short word, next)
  | .reseed seed => (.reseeded, Xoshiro.ofSeed seed)

/-- Answer all steps in turn; with each answer goes the source as it is after it. -/
def run (source : Xoshiro) : List Step → List (Answer × Xoshiro)
  | [] => []
  | step :: later =>
    let (reply, next) := answer source step
    (reply, next) :: run next later

end AccessPattern.Session
