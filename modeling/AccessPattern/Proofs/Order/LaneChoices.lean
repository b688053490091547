import AccessPattern.Proofs.Order.Unmixing
import AccessPattern.Proofs.Random.Choices

/-!
# One choice for every interleaving

Lists that are shuffled one after the other are permuted by one choice of indices for each of them,
and every such choice can be drawn. If the lists are lanes of items with their number, interleaving
the shuffled lanes hides nothing, so each order that it gives still comes from one choice.
-/

namespace AccessPattern

variable {α β σ : Type}

/-- Indices for shuffling lists of some sizes one after the other. -/
def AreChoices (sizes : List Nat) (choices : List (List Nat)) : Prop :=
  List.Forall₂ (fun size choice => Shuffle.IsChoice (size - 1) choice) sizes choices

/-- Each list, shuffled by the indices chosen for it. -/
def arrangeEach (lists : List (List α)) (choices : List (List Nat)) : List (Array α) :=
  List.zipWith (fun list choice => Shuffle.arrange (list.length - 1) choice list.toArray)
    lists choices

/-- Draw the indices that shuffling lists of some sizes uses, list by list. -/
def drawEach [WordSource σ] (sizes : List Nat) : StateM σ (List (List Nat)) :=
  sizes.mapM fun size => Shuffle.drawIndices (size - 1)

/-- Renaming the items commutes with shuffling them by given indices. -/
@[simp] theorem arrangeEach_map (f : α → β) (lists : List (List α)) (choices : List (List Nat)) :
    arrangeEach (lists.map (List.map f)) choices =
      (arrangeEach lists choices).map (Array.map f) := by
  rw [arrangeEach, arrangeEach, List.zipWith_map_left, List.map_zipWith]
  simp only [List.length_map, ← List.map_toArray, Shuffle.arrange_map]

/-- Different items in lists are permuted within their lists in all ways, each by one choice. -/
theorem arrangeEach_bijOn {lists : List (List α)} (hnodup : ∀ list ∈ lists, list.Nodup) :
    Set.BijOn (arrangeEach lists) {choices | AreChoices (lists.map List.length) choices}
      {lanes | List.Forall₂ (fun list (lane : Array α) => lane.toList.Perm list) lists lanes} := by
  induction lists with
  | nil =>
    refine ⟨fun choices _ => .nil, ?_, ?_⟩
    · rintro choices ⟨⟩ others ⟨⟩ -
      rfl
    · rintro lanes ⟨⟩
      exact ⟨[], .nil, rfl⟩
  | cons list lists ih =>
    have hlist : list.toArray.toList.Nodup := hnodup list List.mem_cons_self
    obtain ⟨hmaps, hinjective, hsurjective⟩ := Shuffle.arrange_bijOn hlist
    obtain ⟨hmapsAll, hinjectiveAll, hsurjectiveAll⟩ :=
      ih fun other hother => hnodup other (List.mem_cons_of_mem _ hother)
    refine ⟨?_, ?_, ?_⟩
    · rintro _ (_ | ⟨hchoice, hchoices⟩)
      exact .cons (Array.Perm.toList (hmaps hchoice)) (hmapsAll hchoices)
    · rintro _ (_ | ⟨hchoice, hchoices⟩) _ (_ | ⟨hother, hothers⟩) heq
      obtain ⟨hfirst, hrest⟩ := List.cons.inj heq
      rw [hinjective hchoice hother hfirst, hinjectiveAll hchoices hothers hrest]
    · rintro _ (_ | ⟨hlane, hlanes⟩)
      obtain ⟨choice, hchoice, rfl⟩ := hsurjective (Array.perm_iff_toList_perm.mpr hlane)
      obtain ⟨choices, hchoices, rfl⟩ := hsurjectiveAll hlanes
      exact ⟨choice :: choices, .cons hchoice hchoices, rfl⟩

/-- Different items, sorted into lanes by a number, shuffled and interleaved, come in all orders in
which the numbers follow each other as without shuffling, in each order for one choice. -/
theorem interleave_arrangeEach_bijOn {number : α → Nat} {count : Nat} {items : List α}
    (hnodup : items.Nodup) (hnumber : ∀ item ∈ items, number item < count) :
    Set.BijOn (interleave ∘ arrangeEach (Buckets.buckets count number items))
      {choices | AreChoices ((Buckets.buckets count number items).map List.length) choices}
      {order | order.Perm items ∧ order.map number =
        (interleave ((Buckets.buckets count number items).map List.toArray)).map number} := by
  refine (interleave_bijOn hnumber).comp (arrangeEach_bijOn fun list hlist => ?_)
  rw [Buckets.buckets_eq] at hlist
  obtain ⟨place, -, rfl⟩ := List.mem_map.mp hlist
  exact hnodup.filter _

section Drawn

variable [WordSource σ]

/-- For no lists nothing is drawn. -/
@[simp] theorem drawEach_nil (source : σ) : (drawEach []).run source = ([], source) :=
  rfl

/-- Drawing for one more list in front draws for it first. -/
@[simp] theorem drawEach_cons (size : Nat) (sizes : List Nat) (source : σ) :
    (drawEach (size :: sizes)).run source =
      let first := (Shuffle.drawIndices (size - 1)).run source
      let others := (drawEach sizes).run first.2
      (first.1 :: others.1, others.2) := by
  simp only [drawEach, List.mapM_cons, StateT.run_bind]
  rfl

/-- Shuffling lists draws indices for them and arranges them by these. -/
theorem shuffleEach_run (lists : List (List α)) (source : σ) :
    (shuffleEach lists).run source =
      Prod.map (arrangeEach lists) id ((drawEach (lists.map List.length)).run source) := by
  induction lists generalizing source with
  | nil => simp [arrangeEach]
  | cons list lists ih => simp [Shuffle.shuffle, Shuffle.shuffleFrom_eq, arrangeEach, ih]

/-- What is drawn for lists are choices for them. -/
theorem areChoices_drawEach (sizes : List Nat) (source : σ) :
    AreChoices sizes ((drawEach sizes).run source).1 := by
  induction sizes generalizing source with
  | nil => exact .nil
  | cons size sizes ih =>
    rw [drawEach_cons]
    exact .cons (Shuffle.isChoice_drawIndices _ _) (ih _)

end Drawn

/-- All choices are drawn from some tape, if the sizes of the lists fit a word. -/
theorem exists_drawEach_eq {sizes : List Nat} {choices : List (List Nat)}
    (h : AreChoices sizes choices) (hsizes : ∀ size ∈ sizes, size < UInt32.size) :
    ∃ words, ((drawEach sizes).run (Tape.mk words)).1 = choices := by
  induction h with
  | nil => exact ⟨[], rfl⟩
  | @cons size choice sizes choices hchoice _ ih =>
    obtain ⟨words, hwords⟩ := ih fun other hother => hsizes other (List.mem_cons_of_mem _ hother)
    have hsize := hsizes size List.mem_cons_self
    refine ⟨Shuffle.wordsFor (size - 1) choice ++ words, ?_⟩
    simp [Shuffle.drawIndices_run_tape hchoice (by omega), hwords]

end AccessPattern
