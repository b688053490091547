/-!
# Buckets

Items are sorted into numbered buckets, or only counted, in one pass. Items whose number belongs
to no bucket are left out. `buckets_eq` and `counts_eq` say what each bucket holds without
reference to the others.
-/

namespace AccessPattern.Buckets

variable {α : Type}

/-- The items with each number below a limit, in their order. -/
def buckets (limit : Nat) (number : α → Nat) (items : List α) : List (List α) :=
  (items.foldr (fun item sorted => sorted.modify (number item) (item :: ·))
    (Array.replicate limit [])).toList

/-- How many items have each number below a limit. -/
def counts (limit : Nat) (number : α → Nat) (items : List α) : List Nat :=
  (items.foldr (fun item counted => counted.modify (number item) (· + 1))
    (Array.replicate limit 0)).toList

/-- A list with one entry for each number below a limit. -/
theorem eq_map_range {β : Type} {limit : Nat} {list : List β} (f : Nat → β)
    (hlength : list.length = limit) (hentry : ∀ i, i < limit → list[i]? = some (f i)) :
    list = (List.range limit).map f := by
  apply List.ext_getElem?
  intro i
  by_cases hi : i < limit
  · rw [hentry i hi]
    simp [hi]
  · rw [List.getElem?_eq_none (by omega), List.getElem?_eq_none (by simpa using hi)]

/-- Each bucket holds the items with its number. -/
theorem buckets_eq (limit : Nat) (number : α → Nat) (items : List α) :
    buckets limit number items =
      (List.range limit).map fun i => items.filter fun item => number item == i := by
  unfold buckets
  apply eq_map_range
  · induction items with
    | nil => simp
    | cons item items ih => simpa using ih
  · intro i hi
    induction items with
    | nil => simp [hi]
    | cons item items ih =>
      simp only [List.foldr_cons, Array.getElem?_toList, Array.getElem?_modify] at ih ⊢
      rw [ih, List.filter_cons]
      by_cases h : number item = i <;> simp [h]

/-- Each count is the number of the items with its number. -/
theorem counts_eq (limit : Nat) (number : α → Nat) (items : List α) :
    counts limit number items =
      (List.range limit).map fun i => items.countP fun item => number item == i := by
  unfold counts
  apply eq_map_range
  · induction items with
    | nil => simp
    | cons item items ih => simpa using ih
  · intro i hi
    induction items with
    | nil => simp [hi]
    | cons item items ih =>
      simp only [List.foldr_cons, Array.getElem?_toList, Array.getElem?_modify] at ih ⊢
      rw [ih, List.countP_cons]
      by_cases h : number item = i <;> simp [h]

end AccessPattern.Buckets
