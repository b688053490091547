import AccessPattern.Proofs.Text

/-!
# What trimming leaves

Trimming removes white space at the start and then at the end. What it leaves is the one part of the
text that has no white space at its own ends and nothing else around it.
-/

namespace AccessPattern.Text

/-- A part of a text that has no white space at its ends, and nothing else around it. -/
structure TrimsTo (text body : List Char) : Prop where
  around : ∃ before after, text = before ++ body ++ after ∧
    (∀ c ∈ before, isBlank c = true) ∧ ∀ c ∈ after, isBlank c = true
  first : ∀ c ∈ body.head?, isBlank c = false
  last : ∀ c ∈ body.getLast?, isBlank c = false

variable {text body before rest : List Char} {c : Char}

/-- White space at the start is dropped. -/
theorem trimStart_append (h : ∀ c ∈ before, isBlank c = true) :
    trimStart (before ++ rest) = trimStart rest :=
  List.dropWhile_append_of_pos h

/-- Nothing else is dropped. -/
theorem exists_eq_append_trimStart (text : List Char) :
    ∃ before, text = before ++ trimStart text ∧ ∀ c ∈ before, isBlank c = true :=
  ⟨text.takeWhile isBlank, List.takeWhile_append_dropWhile.symm,
    List.all_eq_true.mp List.all_takeWhile⟩

/-- What is left begins with no white space. -/
theorem isBlank_of_mem_head?_trimStart (h : c ∈ (trimStart text).head?) : isBlank c = false := by
  have hfirst := List.head?_dropWhile_not isBlank text
  rw [trimStart, Option.mem_def] at h
  rwa [h] at hfirst

/-- The end of a text is the start of its reverse. -/
theorem trimEnd_eq_reverse (text : List Char) :
    trimEnd text = (trimStart text.reverse).reverse :=
  rfl

/-- Around the part that is left stands white space only, and all of it. -/
theorem trimsTo_trim (text : List Char) : TrimsTo text (trim text) := by
  obtain ⟨before, hstart, hbefore⟩ := exists_eq_append_trimStart text
  obtain ⟨after, hend, hafter⟩ := exists_eq_append_trimStart (trimStart text).reverse
  have hrest : trimStart text = trim text ++ after.reverse := by
    rw [trim, trimEnd_eq_reverse, ← List.reverse_append, ← hend, List.reverse_reverse]
  refine ⟨⟨before, after.reverse, ?_, hbefore, ?_⟩, ?_, ?_⟩
  · rw [List.append_assoc, ← hrest, ← hstart]
  · simpa using hafter
  · intro c hc
    have hfirst : c ∈ (trimStart text).head? := by
      rw [Option.mem_def] at hc ⊢
      rw [hrest, List.head?_append, hc, Option.some_or]
    exact isBlank_of_mem_head?_trimStart hfirst
  · intro c hc
    rw [trim, trimEnd_eq_reverse, List.getLast?_reverse] at hc
    exact isBlank_of_mem_head?_trimStart hc

/-- Trimming leaves the part that has white space around it and none at its ends. Where that part is
empty, the white space after it is dropped from the start too. -/
theorem trimsTo_iff : TrimsTo text body ↔ trim text = body := by
  constructor
  · intro ⟨⟨before, after, htext, hbefore, hafter⟩, hfirst, hlast⟩
    subst htext
    rw [List.append_assoc, trim, trimStart_append hbefore]
    cases body with
    | nil =>
      have hnil : trimStart after = [] := by
        rw [← List.append_nil after, trimStart_append hafter]
        rfl
      rw [List.nil_append, hnil]
      rfl
    | cons c rest =>
      have hstart : trimStart (c :: rest ++ after) = c :: rest ++ after := trimStart_eq_self hfirst
      have hend : trimStart (c :: rest).reverse = (c :: rest).reverse :=
        trimStart_eq_self (by rwa [List.head?_reverse])
      rw [hstart, trimEnd_eq_reverse, List.reverse_append, trimStart_append (by simpa using hafter),
        hend, List.reverse_reverse]
  · rintro rfl
    exact trimsTo_trim text

/-- The part that is left is not longer than the text. -/
theorem TrimsTo.length_le (h : TrimsTo text body) : body.length ≤ text.length := by
  obtain ⟨before, after, rfl, -, -⟩ := h.around
  rw [List.length_append, List.length_append]
  omega

end AccessPattern.Text
