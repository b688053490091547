import AccessPattern.Order.Generate
import Mathlib.Data.List.Forall2

/-!
# What shuffling keeps

A shuffle permutes its items, whatever the source. Which places are swapped depends on the number
of items and on the source, never on the items: shuffling renamed items gives the renamed result
and leaves the source in the same state. Where there are fewer than two items nothing is swapped and
nothing is drawn. All of this holds for lists shuffled one after the other, which is what the
generated orders need.
-/

namespace AccessPattern

variable {α β σ : Type}

namespace Shuffle

/-- The swaps of a shuffle do not look at the items. -/
@[simp] theorem arrange_map (f : α → β) (last : Nat) (choices : List Nat) (items : Array α) :
    arrange last choices (items.map f) = (arrange last choices items).map f := by
  induction last generalizing choices items with
  | zero => rfl
  | succ last ih =>
    cases choices with
    | nil => rfl
    | cons choice later =>
      have hswap : (items.map f).swapIfInBounds (last + 1) choice =
          (items.swapIfInBounds (last + 1) choice).map f := by
        apply Array.ext
        · simp
        · intro i hleft hright
          simp only [Array.getElem_map, Array.getElem_swapIfInBounds, Array.size_map,
            apply_dite f]
      rw [arrange, arrange, hswap, ih]

variable [WordSource σ]

/-- A shuffle permutes its items. -/
theorem shuffle_perm (items : Array α) (source : σ) :
    ((shuffle items).run source).1.Perm items := by
  rw [shuffle, shuffleFrom_eq]
  exact arrange_perm _ _ _

/-- Shuffling renamed items draws the same indices and gives the renamed result. -/
@[simp] theorem shuffle_map (f : α → β) (items : Array α) (source : σ) :
    (shuffle (items.map f)).run source =
      Prod.map (Array.map f) id ((shuffle items).run source) := by
  simp [shuffle, shuffleFrom_eq]

/-- With fewer than two items there is nothing to shuffle and nothing is drawn. -/
theorem shuffle_of_size_le_one {items : Array α} (h : items.size ≤ 1) (source : σ) :
    (shuffle items).run source = (items, source) := by
  rw [shuffle, Nat.sub_eq_zero_of_le h]
  rfl

end Shuffle

/-- Lists that are permuted within themselves together hold what they held. -/
theorem flatMap_toList_perm {lists : List (List α)} {lanes : List (Array α)}
    (h : List.Forall₂ (fun list (lane : Array α) => lane.toList.Perm list) lists lanes) :
    (lanes.flatMap Array.toList).Perm lists.flatten := by
  induction h with
  | nil => exact .refl _
  | cons hlane _ ih =>
    rw [List.flatMap_cons, List.flatten_cons]
    exact hlane.append ih

/-- What is the same for all items of a list does not show that the list was permuted. -/
theorem map_eq_of_constant (f : α → β) {lists : List (List α)} {lanes : List (Array α)}
    (hconstant : ∀ list ∈ lists, ∃ value, ∀ item ∈ list, f item = value)
    (h : List.Forall₂ (fun list (lane : Array α) => lane.toList.Perm list) lists lanes) :
    lanes.map (Array.map f) = (lists.map List.toArray).map (Array.map f) := by
  induction h with
  | nil => rfl
  | cons hlane _ ih =>
    obtain ⟨value, hvalue⟩ := hconstant _ List.mem_cons_self
    have hvalues := (hlane.map f).trans (.of_eq (List.map_eq_replicate_iff.mpr hvalue))
    have hsame := (List.perm_replicate.mp hvalues).trans
      (List.map_eq_replicate_iff.mpr hvalue).symm
    rw [List.map_cons, List.map_cons, List.map_cons,
      ih fun list hlist => hconstant list (List.mem_cons_of_mem _ hlist)]
    congr 1
    rw [← Array.toList_inj]
    simpa using hsame

variable [WordSource σ]

/-- Where there are no lists nothing is drawn. -/
@[simp] theorem shuffleEach_nil (source : σ) :
    (shuffleEach ([] : List (List α))).run source = ([], source) :=
  rfl

/-- The first list is shuffled first, and the others from the source that this leaves. -/
@[simp] theorem shuffleEach_cons (list : List α) (lists : List (List α)) (source : σ) :
    (shuffleEach (list :: lists)).run source =
      let first := (Shuffle.shuffle list.toArray).run source
      let others := (shuffleEach lists).run first.2
      (first.1 :: others.1, others.2) := by
  simp only [shuffleEach, List.mapM_cons, StateT.run_bind]
  rfl

/-- Where no list has two items, all stay as they are and nothing is drawn. -/
theorem shuffleEach_of_length_le_one {lists : List (List α)}
    (h : ∀ list ∈ lists, list.length ≤ 1) (source : σ) :
    (shuffleEach lists).run source = (lists.map List.toArray, source) := by
  induction lists with
  | nil => simp
  | cons list lists ih =>
    rw [List.forall_mem_cons] at h
    simp [Shuffle.shuffle_of_size_le_one h.1, ih h.2]

/-- Each list is permuted within itself. -/
theorem shuffleEach_forall₂ (lists : List (List α)) (source : σ) :
    List.Forall₂ (fun list (lane : Array α) => lane.toList.Perm list) lists
      ((shuffleEach lists).run source).1 := by
  induction lists generalizing source with
  | nil => simp
  | cons list lists ih =>
    rw [shuffleEach_cons]
    exact .cons (Shuffle.shuffle_perm _ _).toList (ih _)

/-- Together the shuffled lists hold what the lists hold. -/
theorem flatMap_shuffleEach_perm (lists : List (List α)) (source : σ) :
    (((shuffleEach lists).run source).1.flatMap Array.toList).Perm lists.flatten :=
  flatMap_toList_perm (shuffleEach_forall₂ lists source)

/-- Shuffling lists of renamed items gives the renamed results from the same draws. -/
@[simp] theorem shuffleEach_map (f : α → β) (lists : List (List α)) (source : σ) :
    (shuffleEach (lists.map (List.map f))).run source =
      Prod.map (List.map (Array.map f)) id ((shuffleEach lists).run source) := by
  induction lists generalizing source with
  | nil => simp
  | cons list lists ih =>
    have hfirst := Shuffle.shuffle_map f list.toArray source
    rw [List.map_toArray] at hfirst
    simp [hfirst, ih]

/-- What is the same for all items of a list does not show that the list was shuffled. -/
theorem map_shuffleEach_of_constant (f : α → β) {lists : List (List α)}
    (h : ∀ list ∈ lists, ∃ value, ∀ item ∈ list, f item = value) (source : σ) :
    ((shuffleEach lists).run source).1.map (Array.map f) =
      (lists.map List.toArray).map (Array.map f) :=
  map_eq_of_constant f h (shuffleEach_forall₂ lists source)

namespace BlockPlan

variable (plan : BlockPlan) (source : σ)

/-- The lanes are shuffled one after the other and then interleaved. -/
theorem shuffledLanes_run :
    plan.shuffledLanes.run source =
      Prod.map interleave id ((shuffleEach plan.lanes).run source) :=
  rfl

/-- The runs of each lane are shuffled, interleaved and taken apart. -/
theorem shuffledPages_run_pageRuns :
    plan.shuffledPages.run source =
      Prod.map (List.flatten ∘ interleave) id
        ((shuffleEach (plan.lanes.map plan.pageRuns)).run source) :=
  rfl

end BlockPlan

end AccessPattern
