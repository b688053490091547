import AccessPattern.Random.Shuffle
import Mathlib.Data.List.Nodup
import Mathlib.Data.Set.Function

/-!
# One choice for every permutation

A shuffle of different items gives every permutation of them for exactly one choice of indices.
The position visited first is not touched again, so the item that the permutation has there tells
which index was chosen for it; then the same holds of the positions before it.

The indices that a shuffle draws are such a choice, and there is no other limit on them: as long as
the bounds fit a word, every choice is drawn from a tape of words that are all accepted.
-/

namespace AccessPattern

namespace Shuffle

variable {α : Type}

/-- Indices that a shuffle of the positions up to a last one may use: for each position from the
last one down to the second, that position or one before it. -/
inductive IsChoice : Nat → List Nat → Prop
  | nil : IsChoice 0 []
  | cons {last choice : Nat} {later : List Nat} :
    choice ≤ last + 1 → IsChoice last later → IsChoice (last + 1) (choice :: later)

/-- Swapping two places exchanges their items and keeps the others. -/
theorem getElem?_swapIfInBounds {items : Array α} {first second : Nat} (hfirst : first < items.size)
    (hsecond : second < items.size) (place : Nat) :
    (items.swapIfInBounds first second)[place]? =
      if second = place then items[first]? else if first = place then items[second]?
        else items[place]? := by
  rw [Array.swapIfInBounds_def, dif_pos hfirst, dif_pos hsecond, Array.getElem?_swap,
    Array.getElem?_eq_getElem hfirst, Array.getElem?_eq_getElem hsecond]

/-- Swapping two places only reorders the items. -/
theorem swapIfInBounds_perm {items : Array α} {first second : Nat} (hfirst : first < items.size)
    (hsecond : second < items.size) : (items.swapIfInBounds first second).Perm items := by
  rw [Array.swapIfInBounds_def, dif_pos hfirst, dif_pos hsecond]
  exact Array.swap_perm _ _

/-- The items behind the last position stay where they are. -/
theorem getElem?_arrange_of_lt {last : Nat} {choices : List Nat} (h : IsChoice last choices)
    {items : Array α} (hlast : last ≤ items.size - 1) {place : Nat} (hplace : last < place) :
    (arrange last choices items)[place]? = items[place]? := by
  induction h generalizing items with
  | nil => rfl
  | @cons last choice later hchoice _ ih =>
    rw [arrange, ih (by rw [Array.size_swapIfInBounds]; omega) (by omega),
      getElem?_swapIfInBounds (by omega) (by omega), if_neg (by omega), if_neg (by omega)]

/-- The item of the chosen place comes to the last position. -/
theorem getElem?_arrange_last {last choice : Nat} {later : List Nat}
    (h : IsChoice (last + 1) (choice :: later)) {items : Array α}
    (hlast : last + 1 ≤ items.size - 1) :
    (arrange (last + 1) (choice :: later) items)[last + 1]? = items[choice]? := by
  obtain ⟨hchoice, hlater⟩ : choice ≤ last + 1 ∧ IsChoice last later := by
    cases h with
    | cons hchoice hlater => exact ⟨hchoice, hlater⟩
  rw [arrange, getElem?_arrange_of_lt hlater (by rw [Array.size_swapIfInBounds]; omega) (by omega),
    getElem?_swapIfInBounds (by omega) (by omega)]
  split
  · next heq => rw [heq]
  · rw [if_pos rfl]

/-- Different choices arrange different items differently. -/
theorem eq_of_arrange_eq {last : Nat} {choices others : List Nat} (h : IsChoice last choices)
    (hothers : IsChoice last others) {items : Array α} (hnodup : items.toList.Nodup)
    (hlast : last ≤ items.size - 1)
    (heq : arrange last choices items = arrange last others items) : choices = others := by
  induction h generalizing items others with
  | nil =>
    cases hothers with
    | nil => rfl
  | @cons last choice later hchoice hlater ih =>
    cases hothers with
    | @cons _ other rest hother hrest =>
      have hitem : items[choice]? = items[other]? := by
        rw [← getElem?_arrange_last (.cons hchoice hlater) hlast, heq,
          getElem?_arrange_last (.cons hother hrest) hlast]
      obtain rfl : choice = other := by
        rw [← Array.getElem?_toList, ← Array.getElem?_toList] at hitem
        exact (List.getElem?_inj (by rw [Array.length_toList]; omega) hnodup).mp hitem
      have hswap : (items.swapIfInBounds (last + 1) choice).Perm items :=
        swapIfInBounds_perm (by omega) (by omega)
      rw [ih hrest (hswap.toList.nodup_iff.mpr hnodup) (by rw [hswap.size_eq]; omega) heq]

/-- Permutations that agree everywhere but at the first place are equal. -/
private theorem eq_of_perm_of_tail {items target : Array α} (hperm : target.Perm items)
    (htail : ∀ place, 0 < place → target[place]? = items[place]?) : target = items := by
  apply Array.toList_inj.mp
  have hsame := hperm.toList
  have hplaces (place : Nat) : target.toList[place + 1]? = items.toList[place + 1]? := by
    rw [Array.getElem?_toList, Array.getElem?_toList, htail _ (Nat.succ_pos _)]
  generalize target.toList = targets at hsame hplaces ⊢
  generalize items.toList = list at hsame hplaces ⊢
  cases targets with
  | nil => exact hsame.nil_eq
  | cons head targets =>
    cases list with
    | nil => exact hsame.eq_nil
    | cons first list =>
      obtain rfl : targets = list := List.ext_getElem? fun place => by simpa using hplaces place
      have hhead : [head].Perm [first] := (List.perm_append_right_iff targets).mp hsame
      rw [List.singleton_perm_singleton.mp hhead]

/-- Every permutation that keeps the items behind the last position is made by some choice. Its item
at the last position cannot come from behind, where it would stand a second time. -/
theorem exists_arrange_eq {last : Nat} {items target : Array α} (hnodup : items.toList.Nodup)
    (hperm : target.Perm items) (hbehind : ∀ place, last < place → target[place]? = items[place]?)
    (hlast : last ≤ items.size - 1) :
    ∃ choices, IsChoice last choices ∧ arrange last choices items = target := by
  induction last generalizing items with
  | zero => exact ⟨[], .nil, (eq_of_perm_of_tail hperm hbehind).symm⟩
  | succ last ih =>
    have hlast : last + 1 < items.size := by omega
    obtain ⟨item, hitem⟩ : ∃ item, target[last + 1]? = some item :=
      ⟨_, Array.getElem?_eq_getElem (by rwa [hperm.size_eq])⟩
    obtain ⟨choice, hchosen⟩ : ∃ choice, items[choice]? = some item :=
      Array.mem_iff_getElem?.mp (hperm.mem_iff.mp (Array.mem_iff_getElem?.mpr ⟨_, hitem⟩))
    have hinside : choice < items.size := (Array.getElem?_eq_some_iff.mp hchosen).1
    have hchoice : choice ≤ last + 1 := by
      by_contra hlater
      have htwice : target.toList[choice]? = target.toList[last + 1]? := by
        rw [Array.getElem?_toList, Array.getElem?_toList, hbehind _ (by omega), hchosen, hitem]
      have hsame : choice = last + 1 := (List.getElem?_inj
        (by rw [hperm.toList.length_eq]; exact hinside)
        (hperm.toList.nodup_iff.mpr hnodup)).mp htwice
      omega
    have hswap := swapIfInBounds_perm hlast hinside
    have hkept (place : Nat) (hplace : last < place) :
        target[place]? = (items.swapIfInBounds (last + 1) choice)[place]? := by
      rw [getElem?_swapIfInBounds hlast hinside]
      by_cases hfirst : last + 1 = place
      · rw [← hfirst, if_pos rfl, hitem, ← hchosen]
        split
        · next heq => rw [heq]
        · rfl
      · rw [if_neg (by omega), if_neg hfirst]
        exact hbehind place (by omega)
    obtain ⟨later, hlater, harranged⟩ := ih (hswap.toList.nodup_iff.mpr hnodup)
      (hperm.trans hswap.symm) hkept (by rw [hswap.size_eq]; omega)
    exact ⟨choice :: later, .cons hchoice hlater, harranged⟩

/-- The choices for a number of items arrange different items in all permutations, each of them
once. -/
theorem arrange_bijOn {items : Array α} (hnodup : items.toList.Nodup) :
    Set.BijOn (fun choices => arrange (items.size - 1) choices items)
      {choices | IsChoice (items.size - 1) choices} {target | target.Perm items} := by
  refine ⟨fun choices _ => arrange_perm _ _ _, ?_, ?_⟩
  · intro choices hchoices others hothers heq
    exact eq_of_arrange_eq hchoices hothers hnodup (Nat.le_refl _) heq
  · intro target (hperm : target.Perm items)
    refine exists_arrange_eq hnodup hperm (fun place hplace => ?_) (Nat.le_refl _)
    rw [Array.getElem?_eq_none (by rw [hperm.size_eq]; omega), Array.getElem?_eq_none (by omega)]

variable {σ : Type} [WordSource σ]

/-- The indices that a shuffle draws are a choice. -/
theorem isChoice_drawIndices (last : Nat) (source : σ) :
    IsChoice last ((drawIndices last).run source).1 := by
  induction last generalizing source with
  | zero => exact .nil
  | succ last ih =>
    have hbound : 0 < last + 2 := Nat.succ_pos _
    have hdrawn := Draw.indexWithin_lt hbound (WordSource.patience σ) source
    exact .cons (Nat.le_of_lt_succ hdrawn) (ih _)

end Shuffle

/-- A source that hands out the words of a tape one after the other, and zeros after its end. -/
structure Tape where
  words : List UInt32

instance : WordSource Tape where
  nextWord tape := (tape.words.headD 0, ⟨tape.words.tail⟩)
  patience := UInt32.size

namespace Draw

/-- The least word that falls on an index below a bound. -/
def wordFor (bound index : Nat) : UInt32 :=
  UInt32.ofNat ((index * UInt32.size + bound - 1) / bound)

variable {bound index : Nat}

/-- Scaled onto the bound, the least word of an index is less than a bound above the index. -/
theorem exists_scaled_wordFor (hbound : bound ≤ UInt32.size) (hindex : index < bound) :
    ∃ rest < bound, (wordFor bound index).toNat * bound = index * UInt32.size + rest := by
  have hpos : 0 < bound := Nat.zero_lt_of_lt hindex
  have hword : (index * UInt32.size + bound - 1) / bound < UInt32.size := by
    refine Nat.div_lt_of_lt_mul ?_
    calc index * UInt32.size + bound - 1 < (index + 1) * UInt32.size := by
          rw [Nat.succ_mul]
          omega
      _ ≤ bound * UInt32.size := Nat.mul_le_mul_right _ hindex
  have hdivision := Nat.div_add_mod' (index * UInt32.size + bound - 1) bound
  have hmod := Nat.mod_lt (index * UInt32.size + bound - 1) hpos
  rw [wordFor, UInt32.toNat_ofNat_of_lt' hword]
  exact ⟨bound - 1 - (index * UInt32.size + bound - 1) % bound, by omega, by omega⟩

/-- The acceptance zone reaches up to the bound. -/
theorem le_acceptanceZone {rest : Nat} (h : rest < bound) : rest ≤ acceptanceZone bound := by
  have hshift : bound ≤ bound <<< (31 - bound.log2) := by
    rw [Nat.shiftLeft_eq]
    exact Nat.le_mul_of_pos_right _ (Nat.two_pow_pos _)
  unfold acceptanceZone
  omega

variable {σ : Type} [WordSource σ]

/-- An accepted word ends a draw, however many words may be refused. -/
theorem index_run_of_accepts {source next : σ} {word : UInt32}
    (hword : WordSource.nextWord source = (word, next)) (haccepted : accepts bound word) :
    (Draw.index bound).run source = (scaledIndex bound word, next) := by
  change indexWithin bound (WordSource.patience σ) source = _
  cases WordSource.patience σ with
  | zero => rw [indexWithin, hword]
  | succ refusals =>
    rw [indexWithin, hword]
    exact if_pos haccepted

/-- A tape with the word of an index in front gives this index, and the word is accepted. -/
theorem index_run_tape (hbound : bound ≤ UInt32.size) (hindex : index < bound)
    (words : List UInt32) :
    (Draw.index bound).run (Tape.mk (wordFor bound index :: words)) = (index, Tape.mk words) := by
  obtain ⟨rest, hrest, hscaled⟩ := exists_scaled_wordFor hbound hindex
  have hsize : rest < UInt32.size := Nat.lt_of_lt_of_le hrest hbound
  have haccepted : accepts bound (wordFor bound index) := by
    rw [accepts, hscaled, Nat.mul_add_mod', Nat.mod_eq_of_lt hsize, decide_eq_true_eq]
    exact le_acceptanceZone hrest
  have hfalls : scaledIndex bound (wordFor bound index) = index := by
    rw [scaledIndex, hscaled, Nat.mul_comm, Nat.mul_add_div (by decide), Nat.div_eq_of_lt hsize,
      Nat.add_zero]
  have hword : WordSource.nextWord (Tape.mk (wordFor bound index :: words)) =
      (wordFor bound index, Tape.mk words) := rfl
  rw [index_run_of_accepts hword haccepted, hfalls]

end Draw

namespace Shuffle

/-- The words from which a shuffle of the positions up to a last one draws a choice. -/
def wordsFor : Nat → List Nat → List UInt32
  | last + 1, choice :: later => Draw.wordFor (last + 2) choice :: wordsFor last later
  | _, _ => []

/-- Every choice is drawn from a tape of its words, which are used up by it. -/
theorem drawIndices_run_tape {last : Nat} {choices : List Nat} (h : IsChoice last choices)
    (hlast : last < UInt32.size) (words : List UInt32) :
    (drawIndices last).run (Tape.mk (wordsFor last choices ++ words)) =
      (choices, Tape.mk words) := by
  induction h with
  | nil => rfl
  | @cons last choice later hchoice _ ih =>
    rw [drawIndices, StateT.run_bind, wordsFor, List.cons_append,
      Draw.index_run_tape (by omega) (Nat.lt_succ_of_le hchoice)]
    change ((drawIndices last).run _ >>= fun later => pure (choice :: later.1, later.2)) = _
    rw [ih (by omega)]
    rfl

end Shuffle

end AccessPattern
