import AccessPattern.Proofs.Order.Rounds
import Mathlib.Data.List.Nodup
import Mathlib.Data.Set.Card

/-!
# The places of an interleaving

An item of a lane is taken in the turn that is its place in the lane. So an interleaving lists the
items by their turns, and within a turn by their lanes, and an item comes behind as many others as
have an earlier turn, or the same turn and an earlier lane. Where an item comes thus depends on the
lengths of the lanes only, so lanes of known lengths can be read off their interleaving.

To say so for any items, equal ones among them, each item is labelled with its place. Labels are not
looked at when lanes are interleaved.
-/

namespace AccessPattern

variable {α : Type}

/-- A turn and the number of a lane are the place of an item. -/
def IsPlace (lanes : List (Array α)) (place : Nat × Nat) : Prop :=
  ∃ lane, lanes[place.2]? = some lane ∧ place.1 < lane.size

/-- The item at a place, if there is one. -/
def itemAt? (lanes : List (Array α)) (place : Nat × Nat) : Option α :=
  lanes[place.2]?.bind fun lane => lane[place.1]?

/-- The lanes with each item labelled with its place. -/
def labelled (lanes : List (Array α)) : List (Array ((Nat × Nat) × α)) :=
  lanes.mapIdx fun number lane => lane.mapIdx fun turn item => ((turn, number), item)

variable {lanes : List (Array α)}

/-- A labelled lane is a lane with its labels. -/
@[simp] theorem getElem?_labelled (lanes : List (Array α)) (number : Nat) :
    (labelled lanes)[number]? =
      lanes[number]?.map fun lane => lane.mapIdx fun turn item => ((turn, number), item) :=
  List.getElem?_mapIdx

/-- Without their labels the lanes are as before. -/
@[simp] theorem map_snd_labelled (lanes : List (Array α)) :
    (labelled lanes).map (Array.map Prod.snd) = lanes := by
  refine List.ext_getElem? fun number => ?_
  rw [List.getElem?_map, getElem?_labelled, Option.map_map]
  refine (Option.map_congr fun lane _ => ?_).trans Option.map_id'
  refine Array.ext_getElem? fun turn => ?_
  simp [Function.comp_def]

/-- What stands at a place of the labelled lanes is labelled with it. -/
theorem label_of_getElem? {number turn : Nat} {lane : Array ((Nat × Nat) × α)}
    {entry : (Nat × Nat) × α} (hlane : (labelled lanes)[number]? = some lane)
    (hentry : lane[turn]? = some entry) : entry.1 = (turn, number) := by
  rw [getElem?_labelled] at hlane
  obtain ⟨plain, -, rfl⟩ := Option.map_eq_some_iff.mp hlane
  rw [Array.getElem?_mapIdx] at hentry
  obtain ⟨item, -, rfl⟩ := Option.map_eq_some_iff.mp hentry
  rfl

/-- The labelled items are the items at their places. -/
theorem mem_interleave_labelled {place : Nat × Nat} {item : α} :
    (place, item) ∈ interleave (labelled lanes) ↔ itemAt? lanes place = some item := by
  rw [(interleave_perm _).mem_iff, List.mem_flatMap, itemAt?, Option.bind_eq_some_iff]
  constructor
  · rintro ⟨lane, hlane, hentry⟩
    obtain ⟨number, hnumber⟩ := List.mem_iff_getElem?.mp hlane
    obtain ⟨turn, hturn⟩ := List.mem_iff_getElem?.mp hentry
    rw [Array.getElem?_toList] at hturn
    obtain rfl := label_of_getElem? hnumber hturn
    rw [getElem?_labelled] at hnumber
    obtain ⟨plain, hplain, rfl⟩ := Option.map_eq_some_iff.mp hnumber
    rw [Array.getElem?_mapIdx] at hturn
    obtain ⟨found, hfound, hitem⟩ := Option.map_eq_some_iff.mp hturn
    exact ⟨plain, hplain, by rw [hfound, (Prod.mk.inj hitem).2]⟩
  · rintro ⟨lane, hlane, hitem⟩
    refine ⟨_, List.mem_of_getElem? (i := place.2) (by rw [getElem?_labelled, hlane]; rfl), ?_⟩
    refine List.mem_of_getElem? (i := place.1) ?_
    rw [Array.getElem?_toList, Array.getElem?_mapIdx, hitem]
    rfl

/-- The labelled items come by turns, and within a turn by lanes. -/
theorem pairwise_interleave_labelled (lanes : List (Array α)) :
    (interleave (labelled lanes)).Pairwise fun before after =>
      Prod.Lex (· < ·) (· < ·) before.1 after.1 := by
  change ((List.range _).flatMap (turnItems _)).Pairwise _
  rw [List.pairwise_flatMap]
  constructor
  · intro turn _
    rw [turnItems, List.pairwise_filterMap, List.pairwise_iff_getElem]
    intro first second hfirst hsecond hlt before hbefore after hafter
    rw [label_of_getElem? (List.getElem?_eq_getElem hfirst) hbefore,
      label_of_getElem? (List.getElem?_eq_getElem hsecond) hafter]
    exact .right _ hlt
  · refine List.pairwise_lt_range.imp fun {early late} hlt before hbefore after hafter => ?_
    have hturn {turn : Nat} {entry : (Nat × Nat) × α}
        (hentry : entry ∈ turnItems (labelled lanes) turn) : entry.1.1 = turn := by
      obtain ⟨lane, hlane, hitem⟩ := List.mem_filterMap.mp hentry
      obtain ⟨number, hnumber⟩ := List.mem_iff_getElem?.mp hlane
      rw [label_of_getElem? hnumber hitem]
    rw [← hturn hbefore, ← hturn hafter] at hlt
    exact Prod.Lex.left _ _ hlt

/-- The items of an interleaving are those at the places of its labels. -/
theorem map_itemAt?_labels (lanes : List (Array α)) :
    ((interleave (labelled lanes)).map Prod.fst).map (itemAt? lanes) =
      (interleave lanes).map some := by
  have hitems : interleave lanes = (interleave (labelled lanes)).map Prod.snd := by
    rw [← interleave_map, map_snd_labelled]
  rw [hitems, List.map_map, List.map_map]
  exact List.map_congr_left fun entry hentry => mem_interleave_labelled.mp hentry

/-- There is an item at a place and nowhere else. -/
theorem isPlace_iff {place : Nat × Nat} :
    IsPlace lanes place ↔ ∃ item, itemAt? lanes place = some item := by
  simp only [IsPlace, itemAt?, Option.bind_eq_some_iff, Array.getElem?_eq_some_iff]
  constructor
  · rintro ⟨lane, hlane, hturn⟩
    exact ⟨lane[place.1], lane, hlane, hturn, rfl⟩
  · rintro ⟨-, lane, hlane, hturn, -⟩
    exact ⟨lane, hlane, hturn⟩

/-- The labels of an interleaving are the places of the lanes. -/
theorem mem_labels {place : Nat × Nat} :
    place ∈ (interleave (labelled lanes)).map Prod.fst ↔ IsPlace lanes place := by
  simp [isPlace_iff, ← mem_interleave_labelled]

/-- In a list that is sorted without ties, an item stands behind as many items as come before it. -/
theorem ncard_before {r : α → α → Prop} (hasymm : ∀ first second, r first second → ¬r second first)
    {list : List α} (hsorted : list.Pairwise r) {position : Nat} {item : α}
    (hitem : list[position]? = some item) :
    {other | other ∈ list ∧ r other item}.ncard = position := by
  classical
  have hnodup : list.Nodup := by
    refine hsorted.imp ?_
    rintro first _ hbefore rfl
    exact hasymm _ _ hbefore hbefore
  obtain ⟨hposition, rfl⟩ := List.getElem?_eq_some_iff.mp hitem
  have hsplit : list = list.take position ++ list[position] :: list.drop (position + 1) := by
    rw [List.getElem_cons_drop, List.take_append_drop]
  have hbefore : {other | other ∈ list ∧ r other list[position]} =
      {other | other ∈ list.take position} := by
    rw [hsplit, List.pairwise_append, List.pairwise_cons] at hsorted
    obtain ⟨-, ⟨hlater, -⟩, hearlier⟩ := hsorted
    refine Set.ext fun other => ⟨fun ⟨hother, hbefore⟩ => ?_, fun hother => ?_⟩
    · rw [hsplit, List.mem_append, List.mem_cons] at hother
      rcases hother with hother | rfl | hother
      · exact hother
      · exact absurd hbefore (hasymm _ _ hbefore)
      · exact absurd hbefore (hasymm _ _ (hlater other hother))
    · exact ⟨List.mem_of_mem_take hother, hearlier other hother _ List.mem_cons_self⟩
  rw [hbefore, ← List.coe_toFinset, Set.ncard_coe_finset,
    List.toFinset_card_of_nodup (hnodup.sublist (List.take_sublist _ _)), List.length_take]
  exact Nat.min_eq_left (Nat.le_of_lt hposition)

/-- Of two places only one is the earlier one. -/
theorem lex_asymm (first second : Nat × Nat) (h : Prod.Lex (· < ·) (· < ·) first second) :
    ¬Prod.Lex (· < ·) (· < ·) second first := by
  rw [Prod.lex_def] at h ⊢
  omega

/-- How many places of some lanes are earlier than a place. -/
noncomputable def placesBefore (lanes : List (Array α)) (place : Nat × Nat) : Nat :=
  {other | IsPlace lanes other ∧ Prod.Lex (· < ·) (· < ·) other place}.ncard

/-- An item comes behind as many items as have an earlier place. -/
theorem getElem?_placesBefore {place : Nat × Nat} {item : α}
    (h : itemAt? lanes place = some item) :
    (interleave lanes)[placesBefore lanes place]? = some item := by
  have hmem : place ∈ (interleave (labelled lanes)).map Prod.fst :=
    mem_labels.mpr (isPlace_iff.mpr ⟨item, h⟩)
  obtain ⟨position, hposition⟩ := List.mem_iff_getElem?.mp hmem
  have hsorted := List.pairwise_map.mpr (pairwise_interleave_labelled lanes)
  have hbefore := ncard_before lex_asymm hsorted hposition
  simp only [mem_labels] at hbefore
  have hitems : (((interleave (labelled lanes)).map Prod.fst).map (itemAt? lanes))[position]? =
      ((interleave lanes).map some)[position]? := by
    rw [map_itemAt?_labels]
  rw [List.getElem?_map, hposition, Option.map_some, h, List.getElem?_map] at hitems
  obtain ⟨found, hfound, heq⟩ := Option.map_eq_some_iff.mp hitems.symm
  rw [placesBefore, hbefore, hfound, heq]

/-- Each lane is found in an interleaving, in its own order. -/
theorem sublist_interleave {lane : Array α} (h : lane ∈ lanes) :
    lane.toList.Sublist (interleave lanes) := by
  have hitems := flatMap_range_getElem? lane.toList (longestLane lanes) (size_le_longestLane h)
  rw [← hitems]
  refine List.Sublist.flatMap_right _ fun turn _ => ?_
  have hturn : [lane].filterMap (fun other => other[turn]?) = lane.toList[turn]?.toList := by
    rw [Array.getElem?_toList]
    cases hitem : lane[turn]? <;> simp [hitem]
  rw [← hturn]
  exact (List.singleton_sublist.mpr h).filterMap _

/-- As many items come out as the lanes hold. -/
@[simp] theorem length_interleave (lanes : List (Array α)) :
    (interleave lanes).length = (lanes.map Array.size).sum := by
  simp [(interleave_perm lanes).length_eq, List.length_flatMap]

section SameLengths

variable {others : List (Array α)} (hsizes : others.map Array.size = lanes.map Array.size)
include hsizes

/-- Lanes of the same lengths have the same places. -/
theorem isPlace_congr {place : Nat × Nat} : IsPlace others place ↔ IsPlace lanes place := by
  have hsize : others[place.2]?.map Array.size = lanes[place.2]?.map Array.size := by
    rw [← List.getElem?_map, hsizes, List.getElem?_map]
  rw [IsPlace, IsPlace]
  cases hother : others[place.2]? <;> cases hlane : lanes[place.2]? <;> simp_all

/-- Where the items of lanes come depends on the lengths of the lanes only. -/
theorem placesBefore_congr : placesBefore others = placesBefore lanes := by
  funext place
  simp only [placesBefore, isPlace_congr hsizes]

/-- If their interleavings are equal too, lanes of the same lengths have the same items. -/
theorem itemAt?_eq_of_interleave_eq (hitems : interleave others = interleave lanes)
    (place : Nat × Nat) : itemAt? others place = itemAt? lanes place := by
  by_cases hplace : IsPlace lanes place
  · obtain ⟨item, hitem⟩ := isPlace_iff.mp hplace
    obtain ⟨other, hother⟩ := isPlace_iff.mp ((isPlace_congr hsizes).mpr hplace)
    have hfound := getElem?_placesBefore hitem
    rw [← hitems, ← placesBefore_congr hsizes, getElem?_placesBefore hother] at hfound
    rw [hitem, hother, hfound]
  · have hnone : itemAt? lanes place = none :=
      Option.eq_none_iff_forall_ne_some.mpr fun item h => hplace (isPlace_iff.mpr ⟨item, h⟩)
    rw [← isPlace_congr hsizes, isPlace_iff] at hplace
    rw [hnone, Option.eq_none_iff_forall_ne_some]
    exact fun item h => hplace ⟨item, h⟩

/-- Lanes of the same lengths are equal when their interleavings are. -/
theorem eq_of_interleave_eq (hitems : interleave others = interleave lanes) : others = lanes := by
  have hlength : others.length = lanes.length := by
    simpa using congrArg List.length hsizes
  refine List.ext_getElem hlength fun number hother hlane => Array.ext_getElem? fun turn => ?_
  have hitem := itemAt?_eq_of_interleave_eq hsizes hitems (turn, number)
  rwa [itemAt?, itemAt?, List.getElem?_eq_getElem hother, List.getElem?_eq_getElem hlane] at hitem

end SameLengths

/-- Going round some lanes, skipping those that have run out, ends and puts out their interleaving.
This lists the items of the lanes by turns and within a turn by lanes: each item that stands at a
place of a lane comes behind as many items as have an earlier turn, or the same turn and an earlier
lane. So nothing is lost or doubled, each lane keeps its own order, and lanes of given lengths are
known from their interleaving. -/
theorem interleave_in_order_of_places (lanes : List (Array α)) :
    (∀ result, RoundsEnd (lanes.map Array.size).sum [] (lanes.map Array.toList) result ↔
      result = interleave lanes) ∧
    (∃ places : List (Nat × Nat), places.Pairwise (Prod.Lex (· < ·) (· < ·)) ∧
      (∀ place, place ∈ places ↔ IsPlace lanes place) ∧
      places.map (itemAt? lanes) = (interleave lanes).map some) ∧
    (∀ number turn lane item, lanes[number]? = some lane → lane[turn]? = some item →
      (interleave lanes)[{place | IsPlace lanes place ∧
        Prod.Lex (· < ·) (· < ·) place (turn, number)}.ncard]? = some item) ∧
    (interleave lanes).length = (lanes.map Array.size).sum ∧
    (∀ lane ∈ lanes, lane.toList.Sublist (interleave lanes)) ∧
    ∀ others : List (Array α), others.map Array.size = lanes.map Array.size →
      interleave others = interleave lanes → others = lanes := by
  refine ⟨roundsEnd_iff lanes, ?_, fun number turn lane item hlane hitem => ?_,
    length_interleave lanes, fun lane => sublist_interleave, fun others => eq_of_interleave_eq⟩
  · exact ⟨_, List.pairwise_map.mpr (pairwise_interleave_labelled lanes), fun place => mem_labels,
      map_itemAt?_labels lanes⟩
  · have hplace : itemAt? lanes (turn, number) = some item := by
      rw [itemAt?, hlane]
      exact hitem
    exact getElem?_placesBefore hplace

/-- Of four lanes one is empty and one runs out at once; the second item of the last lane comes
behind four others. -/
theorem interleave_in_order_of_places_unequal :
    RoundsEnd 6 [] [[1, 2, 3], [10], [], [30, 31]] [1, 10, 30, 2, 31, 3] ∧
      ([1, 10, 30, 2, 31, 3] : List Nat)[{place | IsPlace [#[1, 2, 3], #[10], #[], #[30, 31]] place ∧
        Prod.Lex (· < ·) (· < ·) place (1, 3)}.ncard]? = some 31 ∧
      [30, 31].Sublist [1, 10, 30, 2, 31, 3] ∧
      ∀ others : List (Array Nat), others.map Array.size = [3, 1, 0, 2] →
        interleave others = [1, 10, 30, 2, 31, 3] → others = [#[1, 2, 3], #[10], #[], #[30, 31]] := by
  obtain ⟨hloop, -, hplace, -, hlanes, hunique⟩ :=
    interleave_in_order_of_places [#[1, 2, 3], #[10], #[], #[30, 31]]
  exact ⟨(hloop _).mpr rfl, hplace 3 1 _ 31 rfl rfl, hlanes #[30, 31] (by simp), hunique⟩

end AccessPattern
