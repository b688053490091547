import AccessPattern.Proofs.Text

/-!
# Lower case outside of ASCII

`lower` keeps the characters whose lower case holds nothing of ASCII. Any lower-casing that treats
the others alike, and turns these into whatever else outside of ASCII, even depending on what
stands around them, gives the same texts as far as they are ASCII.
-/

namespace AccessPattern.Text

/-- What a character may become in lower case. Where its lower case holds ASCII there is no choice;
elsewhere it may be any characters outside of ASCII. -/
inductive LowersTo (c : Char) : List Char → Prop where
  | letter : LowersTo c (lowerLetter c)
  | foreign {piece : List Char} (hletter : ∀ d ∈ lowerLetter c, ¬IsAscii d) (hne : piece ≠ [])
    (hpiece : ∀ d ∈ piece, ¬IsAscii d) : LowersTo c piece

/-- What a text may become in lower case, character by character. -/
inductive IsLowerCase : List Char → List Char → Prop where
  | nil : IsLowerCase [] []
  | cons {c : Char} {piece text lowered : List Char} (hpiece : LowersTo c piece)
    (hlowered : IsLowerCase text lowered) : IsLowerCase (c :: text) (piece ++ lowered)

variable {c : Char} {text lowered piece : List Char}

/-- The first character of a text is lower-cased for itself. -/
@[simp] theorem lower_cons : lower (c :: text) = lowerLetter c ++ lower text :=
  List.flatMap_cons

/-- What `lower` gives is a lower case. -/
theorem isLowerCase_lower (text : List Char) : IsLowerCase text (lower text) := by
  induction text with
  | nil => exact .nil
  | cons c text ih =>
    rw [lower_cons]
    exact .cons .letter ih

/-- No character is dropped. -/
theorem lowerLetter_ne_nil (c : Char) : lowerLetter c ≠ [] := by
  unfold lowerLetter
  split
  · simp
  · split <;> simp

/-- Characters in ASCII leave no choice. -/
theorem LowersTo.eq_lowerLetter (h : LowersTo c piece)
    (hascii : (∀ d ∈ piece, IsAscii d) ∨ ∀ d ∈ lowerLetter c, IsAscii d) :
    piece = lowerLetter c := by
  cases h with
  | letter => rfl
  | foreign hletter hne hpiece =>
    rcases hascii with hascii | hascii
    · have hhead := List.head_mem hne
      exact absurd (hascii _ hhead) (hpiece _ hhead)
    · have hhead := List.head_mem (lowerLetter_ne_nil c)
      exact absurd (hascii _ hhead) (hletter _ hhead)

/-- A lower case in ASCII is the one that `lower` gives, and where this is in ASCII there is no
other. -/
theorem IsLowerCase.eq_lower (h : IsLowerCase text lowered)
    (hascii : (∀ d ∈ lowered, IsAscii d) ∨ ∀ d ∈ lower text, IsAscii d) :
    lowered = lower text := by
  induction h with
  | nil => rfl
  | cons hpiece _ ih =>
    simp only [lower_cons, List.forall_mem_append] at hascii ⊢
    rw [hpiece.eq_lowerLetter (hascii.imp And.left And.left), ih (hascii.imp And.right And.right)]

/-- A lower case in ASCII is a single character: only the dotted capital I becomes two. -/
theorem length_lowerLetter (h : ∀ d ∈ lowerLetter c, IsAscii d) : (lowerLetter c).length = 1 := by
  unfold lowerLetter at h ⊢
  split
  · rfl
  · next hkelvin =>
    rw [if_neg hkelvin] at h
    split
    · next hdotted =>
      rw [if_pos hdotted] at h
      exact absurd (h '\u0307' (by simp)) (by decide)
    · rfl

/-- A text whose lower case is in ASCII keeps its length. -/
theorem length_lower (h : ∀ d ∈ lower text, IsAscii d) : (lower text).length = text.length := by
  induction text with
  | nil => rfl
  | cons c text ih =>
    rw [lower_cons, List.forall_mem_append] at h
    simp [length_lowerLetter h.1, ih h.2, Nat.add_comm]

end AccessPattern.Text
