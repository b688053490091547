import AccessPattern.Path
import Mathlib.Data.List.TakeWhile

/-!
# The last name of a path

Whatever a path looks like, it is a directory part, which is empty or ends in a slash, and a last
name without slashes. Putting a label into a path changes the last name only: the label stands
after an underscore and before whatever follows the last dot of the name. A manifest has the last
name of its testset with more after it.
-/

namespace AccessPattern.Path

/-- The parts of two texts joined by a slash are the parts of the two. -/
theorem splitSlashes_append_slash (current text rest : List Char) :
    splitSlashes current (text ++ '/' :: rest) =
      splitSlashes current text ++ splitSlashes [] rest := by
  induction text generalizing current with
  | nil => rfl
  | cons c text ih =>
    by_cases hc : c = '/'
    · subst hc
      simp only [List.cons_append, splitSlashes, ih]
    · have hstep (tail : List Char) :
          splitSlashes current (c :: tail) = splitSlashes (c :: current) tail := by
        rw [splitSlashes]
        exact hc
      rw [List.cons_append, hstep, hstep, ih]

/-- A text without slashes is a single part. -/
theorem splitSlashes_of_notMem {text : List Char} (current : List Char) (h : '/' ∉ text) :
    splitSlashes current text = [current.reverse ++ text] := by
  induction text generalizing current with
  | nil => rw [splitSlashes, List.append_nil]
  | cons c text ih =>
    rw [List.mem_cons, not_or] at h
    rw [splitSlashes, ih _ h.2, List.reverse_cons, List.append_assoc]
    · rfl
    · exact Ne.symm h.1

/-- The parts of a path hold no slash. -/
theorem notMem_of_mem_splitSlashes {current text part : List Char} (hcurrent : '/' ∉ current)
    (h : part ∈ splitSlashes current text) : '/' ∉ part := by
  induction text generalizing current with
  | nil =>
    rw [splitSlashes, List.mem_singleton] at h
    rwa [h, List.mem_reverse]
  | cons c text ih =>
    by_cases hc : c = '/'
    · subst hc
      rw [splitSlashes, List.mem_cons] at h
      rcases h with rfl | h
      · rwa [List.mem_reverse]
      · exact ih (List.not_mem_nil) h
    · rw [splitSlashes] at h
      · refine ih (fun hmem => ?_) h
        rcases List.mem_cons.mp hmem with heq | hmem
        · exact hc heq.symm
        · exact hcurrent hmem
      · exact hc

/-- What may stand before the last name of a path: nothing, or a text that ends in a slash. -/
def IsDirectoryPart (directory : List Char) : Prop :=
  directory = [] ∨ ∃ before, directory = before ++ ['/']

/-- The path consists of a directory part and a last name, which has no slash. -/
structure EndsIn (path : String) (directory name : List Char) : Prop where
  toList_eq : path.toList = directory ++ name
  directory_part : IsDirectoryPart directory
  slash_notMem : '/' ∉ name

/-- Every path ends in some last name. -/
theorem exists_endsIn (path : String) : ∃ directory name, EndsIn path directory name := by
  have hreverse := List.takeWhile_append_dropWhile (p := (· ≠ '/')) (l := path.toList.reverse)
  refine ⟨(path.toList.reverse.dropWhile (· ≠ '/')).reverse,
    (path.toList.reverse.takeWhile (· ≠ '/')).reverse, ?_, ?_, ?_⟩
  · rw [← List.reverse_append, hreverse, List.reverse_reverse]
  · cases hrest : path.toList.reverse.dropWhile (· ≠ '/') with
    | nil => exact .inl rfl
    | cons c rest =>
      have hc : c = '/' := by
        have := List.head?_dropWhile_not (· ≠ '/') path.toList.reverse
        rw [hrest] at this
        simpa using this
      exact .inr ⟨rest.reverse, by rw [hc, List.reverse_cons]⟩
  · rw [List.mem_reverse]
    intro hmem
    simpa using List.mem_takeWhile_imp hmem

/-- The manifest of a testset stands beside it. -/
theorem EndsIn.manifest {path : String} {directory name : List Char}
    (h : EndsIn path directory name) :
    EndsIn (Path.manifest path) directory (name ++ ".json".toList) := by
  refine ⟨?_, h.directory_part, ?_⟩
  · rw [Path.manifest, String.toList_append, h.toList_eq, List.append_assoc]
  · rw [List.mem_append, not_or]
    exact ⟨h.slash_notMem, by decide⟩

/-- The parts of a path are those of its directory part and then its last name. -/
theorem EndsIn.splitSlashes_eq {path : String} {directory name : List Char}
    (h : EndsIn path directory name) :
    splitSlashes [] path.toList = (splitSlashes [] directory).dropLast ++ [name] := by
  rw [h.toList_eq]
  rcases h.directory_part with rfl | ⟨before, rfl⟩
  · exact splitSlashes_of_notMem [] h.slash_notMem
  · rw [List.append_assoc, List.singleton_append, splitSlashes_append_slash,
      splitSlashes_append_slash, splitSlashes_of_notMem [] h.slash_notMem,
      splitSlashes, List.dropLast_concat]
    rfl

/-- Whether a path starts at the root shows in its directory part. -/
theorem EndsIn.head?_eq_slash_iff {path : String} {directory name : List Char}
    (h : EndsIn path directory name) :
    path.toList.head? = some '/' ↔ directory.head? = some '/' := by
  rw [h.toList_eq]
  cases directory with
  | nil =>
    refine ⟨fun hhead => absurd (List.mem_of_mem_head? hhead) h.slash_notMem, fun hhead => ?_⟩
    contradiction
  | cons c rest => rfl

/-- Extending a directory path puts the same text before every name. -/
theorem exists_join_eq (directory : List Char) :
    ∃ opening, IsDirectoryPart opening ∧ ∀ name, join directory name = opening ++ name := by
  unfold join
  split
  · exact ⟨[], .inl rfl, fun _ => rfl⟩
  · next hlast => exact ⟨directory, .inr (List.getLast?_eq_some_iff.mp hlast), fun _ => rfl⟩
  · refine ⟨directory ++ ['/'], .inr ⟨directory, rfl⟩, fun name => ?_⟩
    rw [List.append_assoc, List.singleton_append]

/-- A file name has no slash. -/
theorem slash_notMem_of_splitFileName {path directory name : List Char}
    (h : splitFileName path = (directory, some name)) : '/' ∉ name := by
  unfold splitFileName at h
  dsimp only at h
  split at h
  · exact nomatch (Prod.mk.inj h).2
  · next first before hparts =>
    split at h
    · exact nomatch (Prod.mk.inj h).2
    · have hname : first = name := by simpa using congrArg Prod.snd h
      have hmem : first ∈ (splitSlashes [] (splitOpening path).2).reverse :=
        (List.dropWhile_suffix isIdle).subset (hparts ▸ List.mem_cons_self)
      rw [List.mem_reverse, hname] at hmem
      exact notMem_of_mem_splitSlashes (List.not_mem_nil) hmem

/-- Stem and extension consist of characters of the file name. -/
theorem subset_of_splitExtension {name stem : List Char} {extension : Option (List Char)}
    (h : splitExtension name = (stem, extension)) :
    stem ⊆ name ∧ ∀ chars, extension = some chars → chars ⊆ name := by
  unfold splitExtension at h
  dsimp only at h
  split at h
  · obtain ⟨rfl, rfl⟩ := Prod.mk.inj h
    exact ⟨List.Subset.refl _, fun _ hchars => nomatch hchars⟩
  · obtain ⟨rfl, rfl⟩ := Prod.mk.inj h
    constructor
    · intro c hc
      have := List.mem_reverse.mp (List.dropLast_subset _ hc)
      exact List.mem_reverse.mp ((List.dropWhile_suffix _).subset this)
    · rintro chars ⟨⟩ c hc
      exact List.mem_reverse.mp ((List.takeWhile_prefix _).subset (List.mem_reverse.mp hc))

/-- Where a label goes in a path: into the last name, after an underscore and before a dot if
anything follows it. -/
structure LabelPlace (path directory before after : List Char) : Prop where
  suffixedChars_eq : ∀ label, suffixedChars path label = directory ++ (before ++ label ++ after)
  directory_part : IsDirectoryPart directory
  slash_notMem_before : '/' ∉ before
  slash_notMem_after : '/' ∉ after
  underscore_mem : '_' ∈ before
  after_eq : after = [] ∨ ∃ extension, after = '.' :: extension

/-- A stem and what follows the label make a place for a label. -/
theorem LabelPlace.of_join {path directory stem after : List Char}
    (hsuffixed : ∀ label, suffixedChars path label = join directory (stem ++ '_' :: label ++ after))
    (hstem : '/' ∉ stem) (hafter : '/' ∉ after)
    (hdot : after = [] ∨ ∃ extension, after = '.' :: extension) :
    ∃ opening, LabelPlace path opening (stem ++ ['_']) after := by
  obtain ⟨opening, hopening, hjoin⟩ := exists_join_eq directory
  refine ⟨opening, fun label => ?_, hopening, ?_, hafter, ?_, hdot⟩
  · rw [hsuffixed, hjoin]
    simp only [List.append_assoc, List.cons_append, List.nil_append]
  · rw [List.mem_append, not_or]
    exact ⟨hstem, by decide⟩
  · exact List.mem_append_right _ List.mem_cons_self

/-- Every path has a place for a label. -/
theorem exists_labelPlace (path : List Char) :
    ∃ directory before after, LabelPlace path directory before after := by
  cases hpath : splitFileName path with
  | mk directory name =>
    cases name with
    | none =>
      have hsuffixed (label : List Char) :
          suffixedChars path label = join directory ([] ++ '_' :: label ++ []) := by
        rw [suffixedChars, hpath, List.nil_append, List.append_nil]
      obtain ⟨opening, hplace⟩ :=
        LabelPlace.of_join hsuffixed (List.not_mem_nil) (List.not_mem_nil) (.inl rfl)
      exact ⟨opening, _, _, hplace⟩
    | some name =>
      have hslash := slash_notMem_of_splitFileName hpath
      cases hname : splitExtension name with
      | mk stem extension =>
        obtain ⟨hstem, hextension⟩ := subset_of_splitExtension hname
        cases extension with
        | none =>
          have hsuffixed (label : List Char) :
              suffixedChars path label = join directory (stem ++ '_' :: label ++ []) := by
            rw [suffixedChars, hpath, List.append_nil]
            simp only [hname]
          obtain ⟨opening, hplace⟩ := LabelPlace.of_join hsuffixed
            (fun h => hslash (hstem h)) (List.not_mem_nil) (.inl rfl)
          exact ⟨opening, _, _, hplace⟩
        | some extension =>
          have hsuffixed (label : List Char) : suffixedChars path label =
              join directory (stem ++ '_' :: label ++ '.' :: extension) := by
            rw [suffixedChars, hpath]
            simp only [hname]
          have hafter : '/' ∉ '.' :: extension := by
            rw [List.mem_cons, not_or]
            exact ⟨by decide, fun h => hslash (hextension extension rfl h)⟩
          obtain ⟨opening, hplace⟩ := LabelPlace.of_join hsuffixed
            (fun h => hslash (hstem h)) hafter (.inr ⟨extension, rfl⟩)
          exact ⟨opening, _, _, hplace⟩

namespace LabelPlace

variable {path directory before after label other : List Char}

/-- The last name of a path with a label. -/
theorem endsIn {path label : String} (h : LabelPlace path.toList directory before after)
    (hlabel : '/' ∉ label.toList) :
    EndsIn (suffixed path label) directory (before ++ label.toList ++ after) := by
  refine ⟨?_, h.directory_part, ?_⟩
  · rw [suffixed, String.toList_ofList, h.suffixedChars_eq]
  · rw [List.mem_append, List.mem_append, not_or, not_or]
    exact ⟨⟨h.slash_notMem_before, hlabel⟩, h.slash_notMem_after⟩

include path in
/-- A name with a label does not lead upwards. -/
theorem name_ne_parent (h : LabelPlace path directory before after) :
    before ++ label ++ after ≠ ['.', '.'] := by
  intro heq
  have hmem : '_' ∈ before ++ label ++ after :=
    List.mem_append_left _ (List.mem_append_left _ h.underscore_mem)
  rw [heq] at hmem
  exact absurd hmem (by decide)

/-- What a label without dots and an after-part look like up to the first dot. -/
theorem takeWhile_label (h : LabelPlace path directory before after) (hlabel : '.' ∉ label)
    (tail : List Char) (htail : tail = [] ∨ ∃ rest, tail = '.' :: rest) :
    (label ++ (after ++ tail)).takeWhile (· ≠ '.') = label := by
  have hall : ∀ c ∈ label, decide (c ≠ '.') = true := by
    intro c hc
    simpa using fun heq : c = '.' => hlabel (heq ▸ hc)
  rw [List.takeWhile_append_of_pos hall]
  rcases h.after_eq with rfl | ⟨extension, rfl⟩
  · rcases htail with rfl | ⟨rest, rfl⟩ <;> simp
  · simp

/-- The name with one label is never the name of the manifest for another. -/
theorem name_ne_manifest (h : LabelPlace path directory before after) (hlabel : '.' ∉ label)
    (hother : '.' ∉ other) :
    before ++ label ++ after ≠ before ++ other ++ after ++ ".json".toList := by
  intro heq
  rw [List.append_assoc, List.append_assoc, List.append_assoc, List.append_cancel_left_eq] at heq
  have hlabels : label = other := by
    have htake := congrArg (List.takeWhile (· ≠ '.')) heq
    rw [h.takeWhile_label hother ".json".toList (.inr ⟨['j', 's', 'o', 'n'], by decide⟩)] at htake
    rw [← htake]
    simpa using (h.takeWhile_label hlabel [] (.inl rfl)).symm
  rw [hlabels, List.append_cancel_left_eq] at heq
  have hlength := congrArg List.length heq
  simp at hlength

end LabelPlace

end AccessPattern.Path
