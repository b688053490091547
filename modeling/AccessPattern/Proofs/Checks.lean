import Mathlib.Data.List.Basic

/-!
# Checks in order

What is wrong with a request is said by a list of checks, each with the fault that is reported when
it is violated. Of several that are violated the first in the list counts.

Something that is checked step by step fails with that fault when each step does for the checks it
stands for. `failure?` forgets what a step gives when it succeeds, which leaves equations between
optional faults.
-/

namespace AccessPattern

variable {ε ε' α β : Type}

/-- A check, and the fault that is reported when it is violated. -/
structure Check (ε : Type) where
  fault : ε
  isViolated : Bool

namespace Check

/-- The same check with the fault in other terms. -/
def rename (f : ε → ε') (check : Check ε) : Check ε' :=
  ⟨f check.fault, check.isViolated⟩

/-- The fault of the first check that is violated. -/
def firstViolated? (checks : List (Check ε)) : Option ε :=
  (checks.find? (·.isViolated)).map (·.fault)

/-- Without checks there is no fault. -/
@[simp] theorem firstViolated?_nil : firstViolated? ([] : List (Check ε)) = none :=
  rfl

/-- A check that is violated hides those after it. -/
@[simp] theorem firstViolated?_cons (fault : ε) (isViolated : Bool) (checks : List (Check ε)) :
    firstViolated? (⟨fault, isViolated⟩ :: checks) =
      if isViolated then some fault else firstViolated? checks := by
  cases isViolated with
  | true => rfl
  | false => rfl

/-- Checks that come later count if none of those before them is violated. -/
@[simp] theorem firstViolated?_append (checks later : List (Check ε)) :
    firstViolated? (checks ++ later) = (firstViolated? checks).or (firstViolated? later) := by
  rw [firstViolated?, List.find?_append, Option.map_or]
  rfl

/-- The checks of several items count item by item. -/
@[simp] theorem firstViolated?_flatMap (checks : α → List (Check ε)) (items : List α) :
    firstViolated? (items.flatMap checks) =
      items.findSome? fun item => firstViolated? (checks item) := by
  rw [firstViolated?, List.find?_flatMap, List.map_findSome?]
  rfl

/-- The first fault in other terms is that of the checks in these terms. -/
@[simp] theorem firstViolated?_map_rename (f : ε → ε') (checks : List (Check ε)) :
    firstViolated? (checks.map (rename f)) = (firstViolated? checks).map f := by
  rw [firstViolated?, firstViolated?, List.find?_map, Option.map_map, Option.map_map]
  rfl

/-- No fault is reported when no check is violated. -/
theorem firstViolated?_eq_none_iff {checks : List (Check ε)} :
    firstViolated? checks = none ↔ ∀ check ∈ checks, check.isViolated = false := by
  rw [firstViolated?, Option.map_eq_none_iff, List.find?_eq_none]
  simp only [Bool.not_eq_true]

end Check

/-- The fault of a step that failed. -/
def failure? : Except ε α → Option ε
  | .ok _ => none
  | .error fault => some fault

/-- A step that succeeded has no fault. -/
@[simp] theorem failure?_ok (value : α) : failure? (.ok value : Except ε α) = none :=
  rfl

/-- A step that failed has its fault. -/
@[simp] theorem failure?_error (fault : ε) : failure? (.error fault : Except ε α) = some fault :=
  rfl

/-- A step failed with its fault. -/
@[simp] theorem failure?_eq_some_iff {step : Except ε α} {fault : ε} :
    failure? step = some fault ↔ step = .error fault := by
  cases step with
  | error other => simp
  | ok value => simp

/-- A step without a fault succeeded. -/
theorem failure?_eq_none_iff {step : Except ε α} :
    failure? step = none ↔ ∃ value, step = .ok value := by
  cases step with
  | error fault => simp
  | ok value => simp

/-- The fault of a renamed error is renamed. -/
@[simp] theorem failure?_mapError (f : ε → ε') (step : Except ε α) :
    failure? (step.mapError f) = (failure? step).map f := by
  cases step with
  | error fault => rfl
  | ok value => rfl

/-- Two steps fail like the first, or else like the second if what it is given does not matter. -/
theorem failure?_bind {step : Except ε α} {next : α → Except ε β} {later : Option ε}
    (h : ∀ value, failure? (next value) = later) :
    failure? (step >>= next) = (failure? step).or later := by
  cases step with
  | error fault => rfl
  | ok value => exact h value

/-- The same step on all items fails like the first item on which it does. -/
@[simp] theorem failure?_mapM (step : α → Except ε β) (items : List α) :
    failure? (items.mapM step) = items.findSome? fun item => failure? (step item) := by
  induction items with
  | nil => rfl
  | cons item items ih =>
    rw [List.mapM_cons, List.findSome?_cons]
    cases step item with
    | error fault => rfl
    | ok value =>
      rw [← ih]
      cases items.mapM step with
      | error fault => rfl
      | ok values => rfl

/-- The same step on all items fails when it does on one of them and on none before. -/
theorem mapM_eq_error_iff {step : α → Except ε β} {items : List α} {fault : ε} :
    items.mapM step = .error fault ↔
      ∃ before item after, items = before ++ item :: after ∧
        (∀ earlier ∈ before, ∃ value, step earlier = .ok value) ∧ step item = .error fault := by
  rw [← failure?_eq_some_iff, failure?_mapM, List.findSome?_eq_some_iff]
  simp only [failure?_eq_none_iff, failure?_eq_some_iff, and_comm]

end AccessPattern
