import AccessPattern.Proofs.Order.Permutation
import Mathlib.Data.Set.Function

/-!
# An interleaving shows its lanes

Where the items of a lane are those with the number of the lane, the lanes can be read off an
interleaving: they are the items with each number, in their order. Conversely an order of the items
is an interleaving of such lanes as soon as its numbers follow each other as they do in one of
them, since the numbers of an interleaving depend on the lengths of the lanes only, and a list is
known when its numbers and the items of each number are.
-/

namespace AccessPattern

variable {α : Type} {number : α → Nat}

/-- Lists with the same numbers in turn that have the same items of each number are equal. -/
theorem eq_of_map_eq_of_filter_eq {list other : List α}
    (hnumbers : list.map number = other.map number)
    (hitems : ∀ item ∈ list, (list.filter fun x => number x == number item) =
      other.filter fun x => number x == number item) : list = other := by
  induction list generalizing other with
  | nil => exact (List.map_eq_nil_iff.mp hnumbers.symm).symm
  | cons first list ih =>
    obtain ⟨head, rest, rfl, hhead, hrest⟩ := List.map_eq_cons_iff.mp hnumbers.symm
    obtain rfl : first = head := by
      have hfirst := hitems first List.mem_cons_self
      simp only [List.filter_cons, hhead, beq_self_eq_true, if_true] at hfirst
      exact (List.cons.inj hfirst).1
    rw [ih hrest.symm fun item hitem => ?_]
    have hfiltered := hitems item (List.mem_cons_of_mem _ hitem)
    rw [List.filter_cons, List.filter_cons] at hfiltered
    split at hfiltered
    · exact (List.cons.inj hfiltered).2
    · exact hfiltered

/-- The items of one turn come from the lanes. -/
theorem exists_mem_of_mem_turnItems {lanes : List (Array α)} {turn : Nat} {item : α}
    (h : item ∈ turnItems lanes turn) : ∃ lane ∈ lanes, item ∈ lane := by
  obtain ⟨lane, hlane, hitem⟩ := List.mem_filterMap.mp h
  exact ⟨lane, hlane, Array.mem_of_getElem? hitem⟩

/-- A lane can be told from the other lanes of an interleaving by what holds of its items only. -/
theorem filter_interleave {keep : α → Bool} {before after : List (Array α)} {lane : Array α}
    (hlane : ∀ item ∈ lane, keep item)
    (hothers : ∀ other ∈ before ++ after, ∀ item ∈ other, ¬keep item) :
    (interleave (before ++ lane :: after)).filter keep = lane.toList := by
  have hnone {lanes : List (Array α)} (hlanes : lanes ⊆ before ++ after) (turn : Nat) :
      (turnItems lanes turn).filter keep = [] := by
    rw [List.filter_eq_nil_iff]
    intro item hitem
    obtain ⟨other, hother, hmem⟩ := exists_mem_of_mem_turnItems hitem
    exact hothers other (hlanes hother) item hmem
  have hturn (turn : Nat) :
      (turnItems (before ++ lane :: after) turn).filter keep = lane[turn]?.toList := by
    have hsplit : turnItems (before ++ lane :: after) turn =
        turnItems before turn ++ (lane[turn]?.toList ++ turnItems after turn) := by
      simp
    rw [hsplit, List.filter_append, List.filter_append, hnone (List.subset_append_left _ _),
      hnone (List.subset_append_right _ _), List.nil_append, List.append_nil,
      List.filter_eq_self.mpr]
    intro item hitem
    exact hlane item (Array.mem_of_getElem? (Option.mem_toList.mp hitem))
  have hsize : lane.toList.length ≤ longestLane (before ++ lane :: after) :=
    size_le_longestLane (List.mem_append_right _ List.mem_cons_self)
  have hitems := flatMap_range_getElem? lane.toList _ hsize
  simp only [Array.getElem?_toList] at hitems
  rw [interleave, List.filter_flatMap]
  exact (List.flatMap_congr fun turn _ => hturn turn).trans hitems

section Numbered

variable {count : Nat} {items : List α} {lanes : List (Array α)}

/-- The lanes hold the items with each number below a count, in any order. -/
def SortedInto (number : α → Nat) (count : Nat) (items : List α) (lanes : List (Array α)) : Prop :=
  List.Forall₂ (fun list (lane : Array α) => lane.toList.Perm list)
    (Buckets.buckets count number items) lanes

/-- Items sorted as they come are sorted. -/
theorem sortedInto_buckets (number : α → Nat) (count : Nat) (items : List α) :
    SortedInto number count items ((Buckets.buckets count number items).map List.toArray) := by
  rw [SortedInto, List.forall₂_map_right_iff, List.forall₂_same]
  exact fun _ _ => .refl _

/-- There is a lane for each number below the count. -/
theorem SortedInto.length_eq (h : SortedInto number count items lanes) : lanes.length = count := by
  rw [← List.Forall₂.length_eq h, Buckets.buckets_eq, List.length_map, List.length_range]

/-- A lane holds the items with its number. -/
theorem SortedInto.perm (h : SortedInto number count items lanes) {place : Nat}
    (hplace : place < lanes.length) :
    lanes[place].toList.Perm (items.filter fun item => number item == place) := by
  have hbucket : place < (Buckets.buckets count number items).length := by
    rwa [List.Forall₂.length_eq h]
  have hperm := h.get hbucket hplace
  simpa [Buckets.buckets_eq] using hperm

/-- The items of a lane have its number. -/
theorem SortedInto.number_eq (h : SortedInto number count items lanes) {place : Nat}
    (hplace : place < lanes.length) {item : α} (hitem : item ∈ lanes[place]) :
    number item = place := by
  have hmem := (h.perm hplace).mem_iff.mp (Array.mem_toList_iff.mpr hitem)
  exact beq_iff_eq.mp (List.mem_filter.mp hmem).2

/-- The items with a number, in the order of the interleaving, are the lane of that number. -/
theorem SortedInto.filter_interleave_eq (h : SortedInto number count items lanes) {place : Nat}
    (hplace : place < lanes.length) :
    ((interleave lanes).filter fun item => number item == place) = lanes[place].toList := by
  have hothers : ∀ other ∈ lanes.take place ++ lanes.drop (place + 1), ∀ item ∈ other,
      ¬(number item == place) = true := by
    intro other hother item hitem hnumber
    rw [beq_iff_eq] at hnumber
    rcases List.mem_append.mp hother with hbefore | hafter
    · obtain ⟨early, hearly, rfl⟩ := List.mem_take_iff_getElem.mp hbefore
      have := h.number_eq _ hitem
      omega
    · obtain ⟨late, hlate, rfl⟩ := List.mem_drop_iff_getElem.mp hafter
      have := h.number_eq _ hitem
      omega
  have hlane : ∀ item ∈ lanes[place], (number item == place) = true := fun item hitem =>
    beq_iff_eq.mpr (h.number_eq hplace hitem)
  rw [← filter_interleave hlane hothers, List.getElem_cons_drop, List.take_append_drop]

/-- The numbers of an interleaving are those of the items sorted as they come. -/
theorem SortedInto.map_number (h : SortedInto number count items lanes) :
    (interleave lanes).map number =
      (interleave ((Buckets.buckets count number items).map List.toArray)).map number := by
  have hconstant : ∀ list ∈ Buckets.buckets count number items,
      ∃ value, ∀ item ∈ list, number item = value := by
    intro list hlist
    rw [Buckets.buckets_eq] at hlist
    obtain ⟨place, -, rfl⟩ := List.mem_map.mp hlist
    exact ⟨place, fun item hitem => beq_iff_eq.mp (List.mem_filter.mp hitem).2⟩
  rw [← interleave_map, map_eq_of_constant number hconstant h, interleave_map]

variable (hnumber : ∀ item ∈ items, number item < count)
include hnumber

/-- If every item has a lane, an interleaving holds all items. -/
theorem SortedInto.interleave_perm_items (h : SortedInto number count items lanes) :
    (interleave lanes).Perm items := by
  refine (interleave_perm _).trans ((flatMap_toList_perm h).trans ?_)
  rw [Buckets.buckets_eq, ← List.flatMap_def]
  exact flatMap_filter_perm _ _ _ hnumber

/-- Lanes that hold the items with their number are interleaved to all orders of the items whose
numbers follow each other as in the interleaving of the items as they come, each order being had
from one arrangement of the lanes. -/
theorem interleave_bijOn :
    Set.BijOn interleave {lanes | SortedInto number count items lanes}
      {order | order.Perm items ∧ order.map number =
        (interleave ((Buckets.buckets count number items).map List.toArray)).map number} := by
  refine ⟨fun lanes h => ⟨h.interleave_perm_items hnumber, h.map_number⟩, ?_, ?_⟩
  · intro lanes (h : SortedInto number count items lanes) others
      (hothers : SortedInto number count items others) heq
    refine List.ext_getElem (h.length_eq.trans hothers.length_eq.symm) fun place hlane hother => ?_
    rw [← Array.toList_inj, ← h.filter_interleave_eq hlane, heq,
      hothers.filter_interleave_eq hother]
  · rintro order ⟨hperm, horder⟩
    let lanes := (List.range count).map fun place =>
      (order.filter fun item => number item == place).toArray
    have hlanes : SortedInto number count items lanes := by
      rw [SortedInto, Buckets.buckets_eq, List.forall₂_map_left_iff, List.forall₂_map_right_iff,
        List.forall₂_same]
      exact fun place _ => hperm.filter _
    refine ⟨lanes, hlanes, eq_of_map_eq_of_filter_eq (hlanes.map_number.trans horder.symm) ?_⟩
    intro item hitem
    have hplace : number item < lanes.length := by
      rw [hlanes.length_eq]
      exact hnumber item ((hlanes.interleave_perm_items hnumber).mem_iff.mp hitem)
    rw [hlanes.filter_interleave_eq hplace, List.getElem_map, List.getElem_range]

end Numbered

end AccessPattern
