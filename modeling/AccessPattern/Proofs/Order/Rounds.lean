import AccessPattern.Proofs.Order.Interleave
import Mathlib.Algebra.Ring.Nat

/-!
# Interleaving as a loop

Interleaving was said turn by turn. Here it is a loop that knows nothing of turns: it goes round the
lanes again and again, takes the next item of each lane that still has one, and stops as soon as as
many items are out as the lanes held in the beginning. A round puts out an item as long as one is
left, and what is out and what is left always make up that number, so the loop ends; and it ends
with the interleaving.
-/

namespace AccessPattern

variable {α : Type}

/-- One round: behind the items that are out comes the next item of each lane that has one, and the
lanes keep the rest. -/
def goRound : List α → List (List α) → List α × List (List α)
  | out, [] => (out, [])
  | out, [] :: lanes =>
    let (out, left) := goRound out lanes
    (out, [] :: left)
  | out, (item :: rest) :: lanes =>
    let (out, left) := goRound (out ++ [item]) lanes
    (out, rest :: left)

/-- Going round for as long as fewer items are out than there are in total ends with some items
out. -/
inductive RoundsEnd (total : Nat) : List α → List (List α) → List α → Prop where
  /-- Enough items are out. -/
  | enough {out : List α} {lanes : List (List α)} (h : total ≤ out.length) :
    RoundsEnd total out lanes out
  /-- Another round is needed. -/
  | again {out result : List α} {lanes : List (List α)} (h : out.length < total)
    (hlater : RoundsEnd total (goRound out lanes).1 (goRound out lanes).2 result) :
    RoundsEnd total out lanes result

/-- A round puts out the first item of each lane and leaves the others. -/
theorem goRound_eq (out : List α) (lanes : List (List α)) :
    goRound out lanes = (out ++ lanes.filterMap List.head?, lanes.map List.tail) := by
  induction lanes generalizing out with
  | nil => simp [goRound]
  | cons lane lanes ih =>
    cases lane with
    | nil => rw [goRound, ih, List.filterMap_cons_none rfl]; rfl
    | cons item rest => simp [goRound, ih]

/-- A round moves items from the lanes to those that are out, and loses none. -/
theorem length_goRound (out : List α) (lanes : List (List α)) :
    (goRound out lanes).1.length + (goRound out lanes).2.flatten.length =
      out.length + lanes.flatten.length := by
  induction lanes generalizing out with
  | nil => rfl
  | cons lane lanes ih =>
    cases lane with
    | nil => exact ih out
    | cons item rest =>
      have hlater := ih (out ++ [item])
      simp only [goRound, List.flatten_cons, List.length_append, List.length_cons,
        List.length_nil] at hlater ⊢
      omega

/-- As long as a lane has an item left, a round takes one. -/
theorem length_left_goRound_lt {lanes : List (List α)} (h : lanes.flatten ≠ []) (out : List α) :
    (goRound out lanes).2.flatten.length < lanes.flatten.length := by
  have hnonempty : lanes.filterMap List.head? ≠ [] := by
    intro hnone
    refine h (List.flatten_eq_nil_iff.mpr fun lane hlane => ?_)
    exact List.head?_eq_none_iff.mp (List.filterMap_eq_nil_iff.mp hnone lane hlane)
  have hout : out.length < (goRound out lanes).1.length := by
    rw [goRound_eq, List.length_append]
    exact Nat.lt_add_of_pos_right (List.length_pos_iff.mpr hnonempty)
  have := length_goRound out lanes
  omega

/-- Lanes without items are interleaved to nothing. -/
theorem interleave_of_flatten_eq_nil {lanes : List (List α)} (h : lanes.flatten = []) :
    interleave (lanes.map List.toArray) = [] := by
  refine List.Perm.eq_nil ?_
  rw [← h]
  simpa [List.flatMap_map, List.flatMap_id'] using interleave_perm (lanes.map List.toArray)

/-- The items of a later turn are those that the turn before gives once the first items are gone. -/
theorem turnItems_succ (lanes : List (List α)) (turn : Nat) :
    turnItems (lanes.map List.toArray) (turn + 1) =
      turnItems ((lanes.map List.tail).map List.toArray) turn := by
  rw [turnItems, turnItems, List.filterMap_map, List.filterMap_map, List.filterMap_map]
  refine List.filterMap_congr fun lane _ => ?_
  cases lane with
  | nil => rfl
  | cons item rest => simp

/-- The interleaving is the first item of each lane and then the interleaving of what is left. -/
theorem interleave_eq_append (lanes : List (List α)) :
    interleave (lanes.map List.toArray) =
      lanes.filterMap List.head? ++ interleave ((lanes.map List.tail).map List.toArray) := by
  have hfirst : turnItems (lanes.map List.toArray) 0 = lanes.filterMap List.head? := by
    rw [turnItems, List.filterMap_map]
    refine List.filterMap_congr fun lane _ => ?_
    cases lane with
    | nil => rfl
    | cons item rest => rfl
  have hlanes : ∀ lane ∈ lanes.map List.toArray,
      lane.size ≤ longestLane (lanes.map List.toArray) + 1 := fun lane hlane =>
    Nat.le_succ_of_le (size_le_longestLane hlane)
  have hleft : ∀ lane ∈ (lanes.map List.tail).map List.toArray,
      lane.size ≤ longestLane (lanes.map List.toArray) := by
    intro lane hlane
    obtain ⟨rest, hrest, rfl⟩ := List.mem_map.mp hlane
    obtain ⟨whole, hwhole, rfl⟩ := List.mem_map.mp hrest
    have := hlanes _ (List.mem_map_of_mem hwhole)
    simp only [List.size_toArray, List.length_tail] at this ⊢
    omega
  rw [interleave_eq_flatMap hlanes, interleave_eq_flatMap hleft, List.range_succ_eq_map,
    List.flatMap_cons, List.flatMap_map, hfirst, funext (turnItems_succ lanes)]

/-- A loop that is under way, with as many items out and left as there are in total, puts out the
interleaving of what is left. -/
theorem roundsEnd_append_interleave (out : List α) (lanes : List (List α)) :
    RoundsEnd (out.length + lanes.flatten.length) out lanes
      (out ++ interleave (lanes.map List.toArray)) := by
  induction hleft : lanes.flatten.length using Nat.strongRecOn generalizing out lanes with
  | ind left ih =>
    subst hleft
    by_cases hnone : lanes.flatten = []
    · rw [interleave_of_flatten_eq_nil hnone, hnone, List.append_nil]
      exact .enough (Nat.le_refl _)
    · have hlater := ih _ (length_left_goRound_lt hnone out) (goRound out lanes).1 _ rfl
      rw [length_goRound] at hlater
      refine .again (Nat.lt_add_of_pos_right (List.length_pos_iff.mpr hnone)) ?_
      rw [interleave_eq_append, ← List.append_assoc]
      rw [goRound_eq] at hlater ⊢
      exact hlater

/-- However such a loop ends, it has put out the interleaving of what was left. -/
theorem RoundsEnd.eq_append_interleave {total : Nat} {out result : List α} {lanes : List (List α)}
    (h : RoundsEnd total out lanes result) (htotal : out.length + lanes.flatten.length = total) :
    result = out ++ interleave (lanes.map List.toArray) := by
  induction h with
  | @enough out lanes henough =>
    have hnone : lanes.flatten = [] := List.length_eq_zero_iff.mp (by omega)
    rw [interleave_of_flatten_eq_nil hnone, List.append_nil]
  | @again out result lanes hless hlater ih =>
    have hresult := ih ((length_goRound out lanes).trans htotal)
    rw [goRound_eq] at hresult
    rw [hresult, interleave_eq_append lanes, List.append_assoc]

/-- Going round the lanes until as many items are out as they held ends, and only with the
interleaving. -/
theorem roundsEnd_iff (lanes : List (Array α)) (result : List α) :
    RoundsEnd (lanes.map Array.size).sum [] (lanes.map Array.toList) result ↔
      result = interleave lanes := by
  have htotal : ([] : List α).length + (lanes.map Array.toList).flatten.length =
      (lanes.map Array.size).sum := by
    rw [List.length_nil, Nat.zero_add, List.length_flatten, List.map_map]
    rfl
  have hlanes : (lanes.map Array.toList).map List.toArray = lanes := by
    simp [List.map_map, Function.comp_def]
  constructor
  · intro h
    rw [h.eq_append_interleave htotal, hlanes, List.nil_append]
  · rintro rfl
    have h := roundsEnd_append_interleave [] (lanes.map Array.toList)
    rwa [htotal, hlanes, List.nil_append] at h

end AccessPattern
