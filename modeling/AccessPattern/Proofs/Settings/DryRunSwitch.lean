import AccessPattern.Settings.CommandLine
import Mathlib.Data.List.Basic

/-!
# Asking for a dry run in front of a command line

The switch for a dry run can be put in front of any command line that does not have it. It is then
read first, and whatever the other words say takes effect as without it: the same options are given,
but for the dry run, and what is refused is refused for the same reason.

The words are read before they take effect, so there are two parts: which words read as the switch,
and that no other item looks at it.
-/

namespace AccessPattern.Command

/-- Only one long name is that of the switch. -/
theorem eq_of_lookup_longNames {name : String} (h : longNames.lookup name = some (.switch .dryRun)) :
    name = "dry-run" := by
  have hall : ∀ entry ∈ longNames, entry.2 = .switch .dryRun → entry.1 = "dry-run" := by decide
  obtain ⟨before, after, hnames, -⟩ := List.lookup_eq_some_iff.mp h
  exact hall (name, .switch .dryRun) (hnames ▸ List.mem_append_right _ List.mem_cons_self) rfl

/-- No short name is that of the switch. -/
theorem lookup_shortNames_ne (letter : Char) :
    shortNames.lookup letter ≠ some (.switch .dryRun) := by
  have hall : ∀ entry ∈ shortNames, entry.2 ≠ .switch .dryRun := by decide
  intro h
  obtain ⟨before, after, hnames, -⟩ := List.lookup_eq_some_iff.mp h
  exact hall (letter, .switch .dryRun) (hnames ▸ List.mem_append_right _ List.mem_cons_self) rfl

/-- A long option reads as the switch only if it is the name of the switch. -/
theorem eq_of_mem_longWord {text : List Char} (h : Item.switch .dryRun ∈ (longWord text).1) :
    text = "dry-run".toList := by
  unfold longWord at h
  dsimp only at h
  split at h
  · contradiction
  · next hlookup hrest =>
    obtain rfl := Item.switch.inj (List.mem_singleton.mp h)
    have hname : text.takeWhile (· ≠ '=') = text :=
      (List.takeWhile_prefix _).eq_of_length_le (List.drop_eq_nil_iff.mp hrest)
    rw [← eq_of_lookup_longNames hlookup, String.toList_ofList, hname]
  · contradiction
  · contradiction
  · cases List.mem_singleton.mp h

/-- Short options do not read as the switch. -/
theorem notMem_shortWord (text : List Char) : Item.switch .dryRun ∉ (shortWord text).1 := by
  induction text with
  | nil => exact List.not_mem_nil
  | cons letter rest ih =>
    rw [shortWord]
    split
    · exact List.not_mem_nil
    · next switch hlookup =>
      have hswitch : switch ≠ .dryRun := fun heq => lookup_shortNames_ne letter (heq ▸ hlookup)
      exact List.not_mem_cons_of_ne_of_not_mem (fun heq => hswitch (Item.switch.inj heq).symm) ih
    · split
      · exact List.not_mem_nil
      · exact fun h => nomatch List.mem_singleton.mp h
      · exact fun h => nomatch List.mem_singleton.mp h

/-- An option word reads as the switch only if it is the long option of that name. -/
theorem eq_of_mem_optionWord {word : String} (hoption : isValue word = false)
    (h : Item.switch .dryRun ∈ (readWords.optionWord word).1) : word = "--dry-run" := by
  unfold isValue at hoption
  split at hoption
  · next first rest hword =>
    rw [readWords.optionWord, hword, List.drop_one, List.tail_cons] at h
    split at h
    · next text hdash =>
      rw [hdash, eq_of_mem_longWord h] at hword
      exact String.toList_inj.mp hword
    · exact absurd h (notMem_shortWord _)
  · contradiction

/-- An option without its value is no switch. -/
theorem notMem_unanswered (asks : Option ValueOption) :
    Item.switch .dryRun ∉ unanswered asks := by
  cases asks with
  | none => exact List.not_mem_nil
  | some option => exact fun h => nomatch List.mem_singleton.mp h

/-- Words read as the switch only if one of them is the long option of that name. -/
theorem notMem_readWords {words : List String} (h : "--dry-run" ∉ words)
    (asks : Option ValueOption) : Item.switch .dryRun ∉ (readWords asks words).items := by
  induction words generalizing asks with
  | nil => exact notMem_unanswered asks
  | cons word rest ih =>
    rw [List.mem_cons, not_or] at h
    unfold readWords
    split
    · cases asks with
      | none => exact List.not_mem_nil
      | some option =>
        exact List.not_mem_cons_of_ne_of_not_mem (fun heq => nomatch heq) (ih h.2 none)
    · next hoption =>
      split
      · exact notMem_unanswered asks
      · have hword : Item.switch .dryRun ∉ (readWords.optionWord word).1 := fun hmem =>
          h.1 (eq_of_mem_optionWord (eq_false_of_ne_true hoption) hmem).symm
        split
        · next items next heq =>
          rw [heq] at hword
          exact List.not_mem_append (List.not_mem_append (notMem_unanswered asks) hword)
            (ih h.2 next)
        · next items stop heq =>
          rw [heq] at hword
          exact List.not_mem_append (notMem_unanswered asks) hword

/-- What takes effect is among what was read. -/
theorem mem_of_mem_settled {reading : Reading} {item : Item} (h : item ∈ reading.settled) :
    item ∈ reading.items := by
  unfold Reading.settled at h
  split at h
  · exact (List.dropLast_sublist _).subset h
  · exact h

/-- The switch in front of a command line is read first, and then the others as without it. -/
theorem ofWords_cons_dryRun (words : List String) :
    ofWords ("--dry-run" :: words) = (ofWords words).after [.switch .dryRun] := by
  rw [ofWords, readWords, if_neg (by decide), if_neg (by decide)]
  rfl

/-- The switch in front takes effect, and then the others as without it. -/
theorem settled_after_dryRun (reading : Reading) :
    (reading.after [.switch .dryRun]).settled = .switch .dryRun :: reading.settled := by
  obtain ⟨items, stop⟩ := reading
  cases items with
  | nil => cases stop <;> rfl
  | cons first later =>
    simp only [Reading.settled, Reading.after, List.singleton_append, List.getLast?_cons_cons,
      List.dropLast_cons_cons]
    split
    · rfl
    · rfl

/-- Progress with the dry run asked for from the start, or not at all. -/
def Progress.withDryRun (asked : Bool) (p : Progress) : Progress where
  options := { p.options with dryRun := asked }
  given := if asked then p.given ++ [.switch .dryRun] else p.given

variable (asked : Bool)

/-- Taking note of another option does not look at the dry run. -/
theorem note_withDryRun (p : Progress) {name : OptionName} (h : name ≠ .switch .dryRun) :
    (p.withDryRun asked).note name = (p.note name).map (Progress.withDryRun asked) := by
  have hmem : name ∈ (p.withDryRun asked).given ↔ name ∈ p.given := by
    cases asked with
    | false => rfl
    | true => simp [Progress.withDryRun, h]
  unfold Progress.note
  simp only [hmem]
  split
  · rfl
  · cases asked with
    | false => rfl
    | true => rfl

/-- Giving a value to an option does not look at the dry run. -/
theorem assign_withDryRun (o : Options) (value : String) (option : ValueOption) :
    assign { o with dryRun := asked } value option =
      (assign o value option).map fun o => { o with dryRun := asked } := by
  cases option with
  | size | blockSize | pattern | pageSize => rfl
  | seed => rw [assign, assign]; cases number value <;> rfl
  | channels => rw [assign, assign]; cases number value <;> rfl
  | output => rw [assign, assign]; cases path value <;> rfl
  | settingsFile => rw [assign, assign]; cases path value <;> rfl

/-- Turning another switch on does not look at the dry run. -/
theorem turnOn_withDryRun (o : Options) {switch : Switch} (h : switch ≠ .dryRun) :
    turnOn { o with dryRun := asked } switch =
      (turnOn o switch).map fun o => { o with dryRun := asked } := by
  cases switch with
  | dryRun => contradiction
  | manifest | verify | debug | listPatterns | help | version => rfl

/-- An option with its value takes effect as without the dry run. -/
theorem give_withDryRun (p : Progress) (option : ValueOption) (value : String) :
    (p.withDryRun asked).give option value =
      (p.give option value).map (Progress.withDryRun asked) := by
  rw [Progress.give, Progress.give, note_withDryRun asked p (by simp)]
  cases p.note (.takesValue option) with
  | error stop => rfl
  | ok noted =>
    change (do pure { noted.withDryRun asked with
      options := ← assign { noted.options with dryRun := asked } value option } :
        Except Stop Progress) = _
    rw [assign_withDryRun]
    change _ = Except.map (Progress.withDryRun asked)
      (do pure { noted with options := ← assign noted.options value option })
    cases assign noted.options value option with
    | error stop => rfl
    | ok options => rfl

/-- Any other item takes effect as without the dry run. -/
theorem take_withDryRun (p : Progress) {item : Item} (h : item ≠ .switch .dryRun) :
    (p.withDryRun asked).take item = (p.take item).map (Progress.withDryRun asked) := by
  cases item with
  | attached option value => exact give_withDryRun asked p option value
  | following option value =>
    cases value with
    | none => rfl
    | some value => exact give_withDryRun asked p option value
  | switch switch =>
    have hswitch : switch ≠ .dryRun := fun heq => h (heq ▸ rfl)
    have hname : OptionName.switch switch ≠ .switch .dryRun := by simpa using hswitch
    rw [Progress.take, Progress.take, note_withDryRun asked p hname]
    cases p.note (.switch switch) with
    | error stop => rfl
    | ok noted =>
      change (do pure { noted.withDryRun asked with
        options := ← turnOn { noted.options with dryRun := asked } switch } :
          Except Stop Progress) = _
      rw [turnOn_withDryRun asked _ hswitch]
      change _ = Except.map (Progress.withDryRun asked)
        (do pure { noted with options := ← turnOn noted.options switch })
      cases turnOn noted.options switch with
      | error stop => rfl
      | ok options => rfl

/-- All other items take effect as without the dry run. -/
theorem foldlM_take_withDryRun {items : List Item} (h : Item.switch .dryRun ∉ items)
    (p : Progress) :
    items.foldlM Progress.take (p.withDryRun asked) =
      (items.foldlM Progress.take p).map (Progress.withDryRun asked) := by
  induction items generalizing p with
  | nil => rfl
  | cons item items ih =>
    rw [List.mem_cons, not_or] at h
    rw [List.foldlM_cons, List.foldlM_cons, take_withDryRun asked p (Ne.symm h.1)]
    cases p.take item with
    | error stop => rfl
    | ok next => exact ih h.2 next

/-- The seed of the environment does not look at the dry run. -/
theorem addSeed_withDryRun (o : Options) (environmentSeed : Option String) :
    addSeed { o with dryRun := asked } environmentSeed =
      (addSeed o environmentSeed).map fun o => { o with dryRun := asked } := by
  cases environmentSeed with
  | none => rfl
  | some value =>
    rw [addSeed, addSeed]
    split
    · rfl
    · cases number value <;> rfl

/-- The options that words give when they take effect after others did. -/
def optionsAfter (p : Progress) (words : List String) (environmentSeed : Option String) :
    Except Stop Options := do
  let progress ← (ofWords words).settled.foldlM Progress.take p
  match (ofWords words).stop with
  | some stop => .error stop
  | none => addSeed progress.options environmentSeed

variable {words : List String} {environmentSeed : Option String}

/-- Words without the switch give the dry run as it was set before them. -/
theorem optionsAfter_withDryRun (h : "--dry-run" ∉ words) (p : Progress) :
    optionsAfter (p.withDryRun asked) words environmentSeed =
      (optionsAfter p words environmentSeed).map fun o => { o with dryRun := asked } := by
  have hitems : Item.switch .dryRun ∉ (ofWords words).settled := fun hmem =>
    notMem_readWords h none (mem_of_mem_settled hmem)
  rw [optionsAfter, optionsAfter, foldlM_take_withDryRun asked hitems]
  cases (ofWords words).settled.foldlM Progress.take p with
  | error stop => rfl
  | ok progress =>
    cases hstop : (ofWords words).stop with
    | some stop => rfl
    | none => exact addSeed_withDryRun asked progress.options environmentSeed

/-- A command line with the switch in front gives the options that it gives without, but with the
dry run asked for; and it gives none for the same reason. -/
theorem options_cons_dryRun (h : "--dry-run" ∉ words) :
    options ("--dry-run" :: words) environmentSeed =
      (options words environmentSeed).map fun o => { o with dryRun := true } := by
  have hstart : Progress.take ⟨Options.none, []⟩ (.switch .dryRun) =
      .ok (Progress.withDryRun true ⟨Options.none, []⟩) := rfl
  rw [options, ofWords_cons_dryRun, settled_after_dryRun, List.foldlM_cons, hstart]
  exact optionsAfter_withDryRun true h ⟨Options.none, []⟩

/-- A command line without the switch asks for no dry run. -/
theorem dryRun_of_options {o : Options} (h : "--dry-run" ∉ words)
    (hoptions : options words environmentSeed = .ok o) : o.dryRun = false := by
  have hoff : options words environmentSeed =
      (options words environmentSeed).map fun o => { o with dryRun := false } :=
    optionsAfter_withDryRun false h ⟨Options.none, []⟩
  rw [hoptions] at hoff
  exact congrArg Options.dryRun (Except.ok.inj hoff)

end AccessPattern.Command
