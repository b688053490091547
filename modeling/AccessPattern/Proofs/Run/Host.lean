import AccessPattern.Proofs.Except
import AccessPattern.Run.Host

/-!
# Runs on a file system value

What the operations of a host do when its files are those of a `FileSystem`: looking at the time of
day leaves the file system alone, and a write that fails does too. `ReadOnly` is the same of longer
computations.
-/

namespace AccessPattern

/-- A step that cannot fail, and then one that can. -/
theorem run_lift_bind {ε α β σ : Type} (first : StateM σ α)
    (second : α → ExceptT ε (StateM σ) β) (start : σ) :
    ((monadLift first : ExceptT ε (StateM σ) α) >>= second).run.run start =
      (second (first.run start).1).run.run (first.run start).2 :=
  rfl

/-- A computation that leaves the state alone, whether it succeeds or fails. -/
def ReadOnly {ε α σ : Type} (step : ExceptT ε (StateM σ) α) : Prop :=
  ∀ start, (step.run.run start).2 = start

namespace ReadOnly

variable {ε α β σ : Type}

/-- A result that is known does not need the state. -/
theorem known (result : Except ε α) :
    ReadOnly (ExceptT.mk (pure result) : ExceptT ε (StateM σ) α) :=
  fun _ => rfl

/-- What such a computation gives is given in the same state. -/
theorem result_eq_iff {step : ExceptT ε (StateM σ) α} (h : ReadOnly step) {start : σ}
    {result : Except ε α} :
    (step.run.run start).1 = result ↔ step.run.run start = (result, start) :=
  ⟨fun hresult => Prod.ext hresult (h start), fun hrun => congrArg Prod.fst hrun⟩

/-- Two steps that leave the state alone do so one after the other. -/
theorem bind {first : ExceptT ε (StateM σ) α} {second : α → ExceptT ε (StateM σ) β}
    (hfirst : ReadOnly first) (hsecond : ∀ value, ReadOnly (second value)) :
    ReadOnly (first >>= second) := by
  intro start
  have hstate := hfirst start
  rw [ExceptT.run_bind, StateT.run_bind]
  cases hrun : first.run.run start with
  | mk result next =>
    obtain rfl : next = start := by rw [← hstate, hrun]
    cases result with
    | error fault => rfl
    | ok value => exact hsecond value next

/-- A step that cannot fail and leaves the state alone, and then one that does. -/
theorem lift_bind {first : StateM σ α} {second : α → ExceptT ε (StateM σ) β}
    (hfirst : ∀ start, (first.run start).2 = start) (hsecond : ∀ value, ReadOnly (second value)) :
    ReadOnly ((monadLift first : ExceptT ε (StateM σ) α) >>= second) := by
  intro start
  rw [run_lift_bind, hfirst]
  exact hsecond _ start

end ReadOnly

namespace Surroundings

variable (given : Surroundings) (fs : FileSystem)

/-- Looking at the time of day leaves the file system alone. -/
@[simp]
theorem host_timeOfDay_run (blockSize : UInt64) :
    (given.host.timeOfDay blockSize).run fs = (given.timeOf blockSize, fs) :=
  rfl

/-- A write changes the file system if it succeeds. -/
@[simp] theorem host_write_run (path : String) (bytes : Bytes) :
    (given.host.write path bytes).run fs =
      match fs.write path bytes with
      | .ok next => (.ok (), next)
      | .error fault => (.error fault, fs) :=
  rfl

end Surroundings

end AccessPattern
