import AccessPattern.Random.Source

/-!
# The Fisher–Yates shuffle

Positions are visited from the last down to the second; each is swapped with a position drawn
evenly among itself and the ones before it. The shuffle is the composition of two parts that can
be looked at apart: which indices are drawn (`drawIndices`), and what a list of indices does to
the items (`arrange`). `shuffleFrom_eq` says so.
-/

namespace AccessPattern.Shuffle

variable {α σ : Type}

/-- Visit the positions from the given one down to the second, swapping each with a drawn one. -/
def shuffleFrom [WordSource σ] : Nat → Array α → StateM σ (Array α)
  | 0, items => pure items
  | last + 1, items => do
    let choice ← Draw.index (last + 2)
    shuffleFrom last (items.swapIfInBounds (last + 1) choice)

/-- Shuffle the items, drawing one index for every item but the first. -/
def shuffle [WordSource σ] (items : Array α) : StateM σ (Array α) :=
  shuffleFrom (items.size - 1) items

/-- Draw the indices that a shuffle of positions up to the given one uses, in order. -/
def drawIndices [WordSource σ] : Nat → StateM σ (List Nat)
  | 0 => pure []
  | last + 1 => do
    let choice ← Draw.index (last + 2)
    let later ← drawIndices last
    pure (choice :: later)

/-- Perform the swaps of a shuffle for given indices, from the given position downwards. -/
def arrange : Nat → List Nat → Array α → Array α
  | last + 1, choice :: later, items =>
    arrange last later (items.swapIfInBounds (last + 1) choice)
  | _, _, items => items

/-- A shuffle arranges the items by the indices it draws. -/
theorem shuffleFrom_eq [WordSource σ] (last : Nat) (items : Array α) (state : σ) :
    (shuffleFrom last items).run state =
      (arrange last ((drawIndices last).run state).1 items, ((drawIndices last).run state).2) := by
  induction last generalizing items state with
  | zero => rfl
  | succ last ih =>
    simp only [shuffleFrom, drawIndices, StateT.run_bind]
    exact ih _ _

/-- Swapping by any indices only reorders the items. -/
theorem arrange_perm (last : Nat) (choices : List Nat) (items : Array α) :
    (arrange last choices items).Perm items := by
  induction last generalizing choices items with
  | zero => exact .refl _
  | succ last ih =>
    cases choices with
    | nil => exact .refl _
    | cons choice later =>
      refine (ih later _).trans ?_
      rw [Array.swapIfInBounds_def]
      split
      · split
        · exact Array.swap_perm _ _
        · exact .refl _
      · exact .refl _

end AccessPattern.Shuffle
