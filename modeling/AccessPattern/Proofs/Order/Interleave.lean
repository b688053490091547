import AccessPattern.Order.Lanes
import Mathlib.Data.List.Perm.Basic

/-!
# What interleaving keeps

Going round the lanes reorders their items and adds or loses none. It does not look at the items
either: renaming them commutes with it, so what is seen of an interleaving through a function that
is constant on each lane depends on the lengths of the lanes only.

All of this is read off one form of `interleave`: as many turns as one likes, provided that no
lane is longer.
-/

namespace AccessPattern

variable {α β : Type}

/-- The items that the lanes give in one turn, in lane order. -/
def turnItems (lanes : List (Array α)) (turn : Nat) : List α :=
  lanes.filterMap fun lane => lane[turn]?

/-- The running maximum behind `longestLane` only grows. -/
private theorem le_foldl_max (lanes : List (Array α)) (longest : Nat) :
    longest ≤ lanes.foldl (fun longest lane => max longest lane.size) longest := by
  induction lanes generalizing longest with
  | nil => exact Nat.le_refl _
  | cons lane lanes ih => exact Nat.le_trans (Nat.le_max_left _ _) (ih _)

/-- No lane is longer than the longest one. -/
theorem size_le_longestLane {lanes : List (Array α)} {lane : Array α} (h : lane ∈ lanes) :
    lane.size ≤ longestLane lanes := by
  unfold longestLane
  generalize 0 = longest
  induction lanes generalizing longest with
  | nil => simp at h
  | cons head lanes ih =>
    rcases List.mem_cons.mp h with rfl | h
    · exact Nat.le_trans (Nat.le_max_right _ _) (le_foldl_max lanes _)
    · exact ih h _

/-- A bound on all lanes is a bound on the longest one. -/
theorem longestLane_le {lanes : List (Array α)} {bound : Nat}
    (h : ∀ lane ∈ lanes, lane.size ≤ bound) : longestLane lanes ≤ bound := by
  have hfold (longest : Nat) (hlongest : longest ≤ bound) :
      lanes.foldl (fun longest lane => max longest lane.size) longest ≤ bound := by
    induction lanes generalizing longest with
    | nil => exact hlongest
    | cons head lanes ih =>
      exact ih (fun lane hlane => h lane (List.mem_cons_of_mem _ hlane)) _
        (Nat.max_le.mpr ⟨hlongest, h head List.mem_cons_self⟩)
  exact hfold 0 (Nat.zero_le _)

/-- A turn after the end of every lane gives nothing. -/
theorem turnItems_eq_nil {lanes : List (Array α)} {turn : Nat}
    (h : ∀ lane ∈ lanes, lane.size ≤ turn) : turnItems lanes turn = [] := by
  rw [turnItems, List.filterMap_eq_nil_iff]
  intro lane hlane
  exact Array.getElem?_eq_none (h lane hlane)

/-- Interleaving is any number of turns that no lane outlasts. -/
theorem interleave_eq_flatMap {lanes : List (Array α)} {turns : Nat}
    (h : ∀ lane ∈ lanes, lane.size ≤ turns) :
    interleave lanes = (List.range turns).flatMap (turnItems lanes) := by
  obtain ⟨more, rfl⟩ := Nat.exists_eq_add_of_le (longestLane_le h)
  have hmore : ((List.range more).map (longestLane lanes + ·)).flatMap (turnItems lanes) = [] := by
    rw [List.flatMap_eq_nil_iff]
    intro turn hturn
    obtain ⟨late, -, rfl⟩ := List.mem_map.mp hturn
    exact turnItems_eq_nil fun lane hlane =>
      Nat.le_trans (size_le_longestLane hlane) (Nat.le_add_right _ _)
  rw [List.range_add, List.flatMap_append, hmore, List.append_nil]
  rfl

/-- The items of a list, index by index, are the list. -/
theorem flatMap_range_getElem? (items : List α) (limit : Nat) (h : items.length ≤ limit) :
    ((List.range limit).flatMap fun i => items[i]?.toList) = items := by
  induction items generalizing limit with
  | nil => simp
  | cons item items ih =>
    obtain ⟨limit, rfl⟩ := Nat.exists_eq_add_of_le' h
    rw [List.length_cons, ← Nat.add_assoc, List.range_succ_eq_map, List.flatMap_cons,
      List.flatMap_map]
    simp only [List.getElem?_cons_zero, List.getElem?_cons_succ, Option.toList_some,
      List.singleton_append]
    rw [ih _ (Nat.le_add_left _ _)]

/-- Without lanes a turn gives nothing. -/
@[simp] theorem turnItems_nil (turn : Nat) : turnItems ([] : List (Array α)) turn = [] :=
  rfl

/-- One more lane in front adds its item of the turn. -/
@[simp] theorem turnItems_cons (lane : Array α) (lanes : List (Array α)) (turn : Nat) :
    turnItems (lane :: lanes) turn = lane[turn]?.toList ++ turnItems lanes turn := by
  cases hitem : lane[turn]? <;> simp [turnItems, hitem]

/-- The lanes behind others give their items of the turn behind those of the others. -/
@[simp] theorem turnItems_append (lanes others : List (Array α)) (turn : Nat) :
    turnItems (lanes ++ others) turn = turnItems lanes turn ++ turnItems others turn :=
  List.filterMap_append

/-- Turns that no lane outlasts give each item of each lane once. -/
private theorem flatMap_turnItems_perm {lanes : List (Array α)} {turns : Nat}
    (h : ∀ lane ∈ lanes, lane.size ≤ turns) :
    ((List.range turns).flatMap (turnItems lanes)).Perm (lanes.flatMap Array.toList) := by
  induction lanes with
  | nil => simp
  | cons lane lanes ih =>
    have hlane := flatMap_range_getElem? lane.toList turns (h lane List.mem_cons_self)
    have hrest := ih fun other hother => h other (List.mem_cons_of_mem _ hother)
    rw [funext (turnItems_cons lane lanes), List.flatMap_cons]
    apply (List.flatMap_append_perm _ _ _).symm.trans
    simp only [Array.getElem?_toList] at hlane
    rw [hlane]
    exact hrest.append_left _

/-- A single lane is taken item by item. -/
@[simp] theorem interleave_singleton (lane : Array α) : interleave [lane] = lane.toList := by
  have hitem : turnItems [lane] = fun turn => lane.toList[turn]?.toList := by
    funext turn
    simp
  have hlanes : ∀ other ∈ [lane], other.size ≤ lane.toList.length := by simp
  rw [interleave_eq_flatMap hlanes, hitem]
  exact flatMap_range_getElem? lane.toList _ (Nat.le_refl _)

/-- Interleaving only reorders the items of the lanes. -/
theorem interleave_perm (lanes : List (Array α)) :
    (interleave lanes).Perm (lanes.flatMap Array.toList) :=
  flatMap_turnItems_perm fun _ hlane => size_le_longestLane hlane

/-- Renaming the items commutes with taking turns. -/
@[simp] theorem turnItems_map (f : α → β) (lanes : List (Array α)) (turn : Nat) :
    turnItems (lanes.map (Array.map f)) turn = (turnItems lanes turn).map f := by
  induction lanes with
  | nil => simp
  | cons lane lanes ih => simp [ih, Option.toList_map]

/-- Renaming the items commutes with interleaving. -/
@[simp] theorem interleave_map (f : α → β) (lanes : List (Array α)) :
    interleave (lanes.map (Array.map f)) = (interleave lanes).map f := by
  have hrenamed : ∀ lane ∈ lanes.map (Array.map f), lane.size ≤ longestLane lanes := by
    intro renamed hmem
    obtain ⟨lane, hlane, rfl⟩ := List.mem_map.mp hmem
    rw [Array.size_map]
    exact size_le_longestLane hlane
  rw [interleave_eq_flatMap hrenamed, funext (turnItems_map f lanes), ← List.map_flatMap]
  rfl

end AccessPattern
