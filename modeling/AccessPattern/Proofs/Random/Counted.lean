import AccessPattern.Random.Shuffle

/-!
# Counting the words that are drawn

A source may be wrapped so that it counts the words that are taken from it. A draw does not see the
wrapping: it is answered with the same words and ends with the same result, so the count tells how
many words the draw takes from the source alone. An index takes one word at least, and one more for
each that it refuses.
-/

namespace AccessPattern

/-- A source together with how many words have been taken from it. -/
structure Counted (σ : Type) where
  source : σ
  drawn : Nat

instance {σ : Type} [WordSource σ] : WordSource (Counted σ) where
  nextWord counted :=
    Prod.map id (Counted.mk · (counted.drawn + 1)) (WordSource.nextWord counted.source)
  patience := WordSource.patience σ

variable {σ α β : Type}

/-- From every source a draw takes at least some number of words, and counting them changes neither
its result nor the source that it leaves. -/
def TakesAtLeast (least : Nat) (draw : StateM σ α) (counted : StateM (Counted σ) α) : Prop :=
  ∀ source, ∃ words, least ≤ words ∧ ∀ drawn,
    counted.run ⟨source, drawn⟩ = Prod.map id (Counted.mk · (drawn + words)) (draw.run source)

namespace TakesAtLeast

/-- A value that is there already takes no words. -/
theorem pure (value : α) : TakesAtLeast 0 (Pure.pure value : StateM σ α) (Pure.pure value) :=
  fun _ => ⟨0, Nat.le_refl _, fun _ => rfl⟩

/-- Draws in turn take the words of each. -/
theorem bind {first later : Nat} {draw : StateM σ α} {counted : StateM (Counted σ) α}
    {next : α → StateM σ β} {countedNext : α → StateM (Counted σ) β}
    (hdraw : TakesAtLeast first draw counted)
    (hnext : ∀ value, TakesAtLeast later (next value) (countedNext value)) :
    TakesAtLeast (first + later) (draw >>= next) (counted >>= countedNext) := by
  intro source
  obtain ⟨words, hwords, hcounted⟩ := hdraw source
  obtain ⟨others, hothers, hrest⟩ := hnext (draw.run source).1 (draw.run source).2
  refine ⟨words + others, Nat.add_le_add hwords hothers, fun drawn => ?_⟩
  rw [StateT.run_bind, StateT.run_bind, hcounted, ← Nat.add_assoc]
  exact hrest _

end TakesAtLeast

variable [WordSource σ]

/-- Where a word may be refused, the index is read from it or from the words behind it. -/
theorem Draw.indexWithin_succ (bound refusals : Nat) (source : σ) :
    Draw.indexWithin bound (refusals + 1) source =
      if Draw.accepts bound (WordSource.nextWord source).1 then
        (Draw.scaledIndex bound (WordSource.nextWord source).1, (WordSource.nextWord source).2)
      else Draw.indexWithin bound refusals (WordSource.nextWord source).2 :=
  rfl

/-- An index takes a word for each refusal and the word that it is read from: a refused word counts
too, and the draw goes on with one refusal less. -/
theorem Draw.exists_words_indexWithin (bound refusals : Nat) (source : σ) :
    ∃ words, 1 ≤ words ∧ ∀ drawn,
      Draw.indexWithin bound refusals (Counted.mk source drawn) =
        Prod.map id (Counted.mk · (drawn + words)) (Draw.indexWithin bound refusals source) := by
  induction refusals generalizing source with
  | zero => exact ⟨1, Nat.le_refl _, fun _ => rfl⟩
  | succ refusals ih =>
    by_cases haccepted : Draw.accepts bound (WordSource.nextWord source).1
    · refine ⟨1, Nat.le_refl _, fun drawn => ?_⟩
      rw [Draw.indexWithin_succ, Draw.indexWithin_succ, if_pos haccepted]
      exact if_pos haccepted
    · obtain ⟨words, -, hwords⟩ := ih (WordSource.nextWord source).2
      refine ⟨1 + words, Nat.le_add_right _ _, fun drawn => ?_⟩
      rw [Draw.indexWithin_succ, Draw.indexWithin_succ, if_neg haccepted, ← Nat.add_assoc,
        ← hwords]
      exact if_neg haccepted

/-- An index takes at least one word. -/
theorem Draw.takesAtLeast_index (bound : Nat) :
    TakesAtLeast (σ := σ) 1 (Draw.index bound) (Draw.index bound) :=
  Draw.exists_words_indexWithin bound (WordSource.patience σ)

/-- The indices of a shuffle take at least one word for each item but the first. -/
theorem Shuffle.takesAtLeast_drawIndices (last : Nat) :
    TakesAtLeast (σ := σ) last (Shuffle.drawIndices last) (Shuffle.drawIndices last) := by
  induction last with
  | zero => exact TakesAtLeast.pure _
  | succ last ih =>
    have hdraws := (Draw.takesAtLeast_index (σ := σ) (last + 2)).bind fun choice =>
      ih.bind fun later => TakesAtLeast.pure (choice :: later)
    rwa [Nat.add_zero, Nat.add_comm] at hdraws

end AccessPattern
