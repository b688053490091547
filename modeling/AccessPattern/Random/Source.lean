/-!
# Sources of random words and bounded draws

A source hands out 32-bit words one at a time. An index below a bound is drawn by scaling a
word onto the bound and refusing the words whose low half falls outside the acceptance zone,
so that every index is hit by equally many accepted words.

A source states how many words in a row it may see refused. When that patience is used up the
next word is taken as it comes, so a draw always ends and always yields an index below its
bound; only its evenness depends on the refusals having ended earlier.
-/

namespace AccessPattern

/-- A state from which 32-bit words are drawn one after the other. -/
class WordSource (σ : Type) where
  /-- The next word and the state that follows it. -/
  nextWord : σ → UInt32 × σ
  /-- How many refused words in a row a single draw may use up. -/
  patience : Nat

namespace Draw

/-- The low halves up to this bound are accepted, which makes the draw even. -/
def acceptanceZone (bound : Nat) : Nat :=
  bound <<< (31 - bound.log2) - 1

/-- A word is accepted when the low half of its scaled value lies in the acceptance zone. -/
def accepts (bound : Nat) (word : UInt32) : Bool :=
  word.toNat * bound % UInt32.size ≤ acceptanceZone bound

/-- The index below the bound on which a word falls. -/
def scaledIndex (bound : Nat) (word : UInt32) : Nat :=
  word.toNat * bound / UInt32.size

/-- Draw words until one is accepted, refusing at most the given number of them. -/
def indexWithin {σ : Type} [WordSource σ] (bound : Nat) : Nat → σ → Nat × σ
  | 0, state =>
    let (word, next) := WordSource.nextWord state
    (scaledIndex bound word, next)
  | refusals + 1, state =>
    let (word, next) := WordSource.nextWord state
    if accepts bound word then (scaledIndex bound word, next)
    else indexWithin bound refusals next

/-- Draw an index below the bound. -/
def index {σ : Type} [WordSource σ] (bound : Nat) : StateM σ Nat :=
  fun state => indexWithin bound (WordSource.patience σ) state

/-- A scaled word stays below its bound. -/
theorem scaledIndex_lt {bound : Nat} (word : UInt32) (h : 0 < bound) :
    scaledIndex bound word < bound := by
  have hw : word.toNat < 2 ^ 32 := word.toNat_lt
  refine Nat.div_lt_of_lt_mul ?_
  exact Nat.mul_lt_mul_of_pos_right hw h

/-- However many words are refused, the drawn index stays below its bound. -/
theorem indexWithin_lt {σ : Type} [WordSource σ] {bound : Nat} (h : 0 < bound)
    (refusals : Nat) (state : σ) : (indexWithin bound refusals state).1 < bound := by
  induction refusals generalizing state with
  | zero => exact scaledIndex_lt _ h
  | succ refusals ih =>
    simp only [indexWithin]
    split
    · exact scaledIndex_lt _ h
    · exact ih _

end Draw

end AccessPattern
