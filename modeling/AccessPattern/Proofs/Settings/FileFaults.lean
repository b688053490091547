import AccessPattern.Proofs.Settings.Sources

/-!
# What refuses a settings file

Whether an entry is refused does not depend on what was read before it, so a file is refused for its
own entries alone. When nothing is wrong with a file but perhaps with one setting, what reading the
file gives for this setting, the fault included, is what reading its value gives; and the settings
of two files that differ in this setting only are otherwise the same.
-/

namespace AccessPattern

variable {x y : Setting} {entries others : Toml.Entries} {node written written' : Toml.Node}
  {file rest : Settings}

namespace Settings

/-- Reading entries with different keys, of which only one may be refused, fails as reading this one
does. -/
theorem failure?_readEntries {fields : List Field} (key : String)
    {fault? : Toml.Node → Option TextFault} (hnodup : (entries.map Prod.fst).Nodup)
    (hkey : ∀ node, (key, node) ∈ entries → ∀ s,
      failure? (readEntry fields s (key, node)) = fault? node)
    (hothers : ∀ entry ∈ entries, entry.1 ≠ key → ∀ s, failure? (readEntry fields s entry) = none)
    (s : Settings) :
    failure? (entries.foldlM (readEntry fields) s) = (entries.lookup key).bind fault? := by
  induction entries generalizing s with
  | nil => rfl
  | cons entry entries ih =>
    obtain ⟨name, node⟩ := entry
    rw [List.map_cons, List.nodup_cons] at hnodup
    rw [List.forall_mem_cons] at hothers
    have hlater := ih hnodup.2 (fun node hnode => hkey node (List.mem_cons_of_mem _ hnode))
      hothers.2
    rw [List.foldlM_cons, failure?_bind hlater]
    by_cases hname : name = key
    · subst hname
      have hnoFurther : entries.lookup name = none :=
        Toml.Entries.lookup_eq_none_iff_notMem.mpr hnodup.1
      rw [hkey node List.mem_cons_self, List.lookup_cons_self, hnoFurther, Option.bind_none,
        Option.or_none, Option.bind_some]
    · rw [hothers.1 hname, Option.none_or, List.lookup_cons, beq_false_of_ne (Ne.symm hname)]

/-- The value of a setting is refused when it cannot be read. -/
@[simp] theorem failure?_field (x : Setting) (s : Settings) (node : Toml.Node) :
    failure? (x.field.read s node) = failure? (x.read node) := by
  rw [← Option.or_none (o := failure? (x.read node))]
  exact failure?_bind fun value => rfl

/-- The entry of a setting in its section is refused when its value cannot be read. -/
@[simp] theorem failure?_readEntry_key (x : Setting) (s : Settings) (node : Toml.Node) :
    failure? (readEntry x.heading.fields s (x.key, node)) = failure? (x.read node) := by
  have hfield : x.field ∈ x.heading.fields :=
    List.mem_map_of_mem (Heading.mem_settings_iff.mpr rfl)
  rw [← failure?_field x s node, ← readEntry_of_mem x.heading.nodup_key_fields hfield]
  rfl

/-- An entry of a section is not refused if, being that of a setting, its value can be read. -/
theorem failure?_readEntry_eq_none {heading : Heading} {entry : String × Toml.Node}
    (h : ∀ y : Setting, y.heading = heading → y.key = entry.1 → ∃ value, y.read entry.2 = .ok value)
    (s : Settings) : failure? (readEntry heading.fields s entry) = none := by
  rw [readEntry]
  cases hfind : heading.fields.find? fun field => field.key == entry.1 with
  | none => rfl
  | some field =>
    obtain ⟨y, hy, rfl⟩ := List.mem_map.mp (List.mem_of_find?_eq_some hfind)
    have hkey : y.field.key = entry.1 := by simpa using List.find?_some hfind
    exact (failure?_field y s entry.2).trans
      (failure?_eq_none_iff.mpr (h y (Heading.mem_settings_iff.mp hy) hkey))

/-- A section in which every setting but one can be read is refused when the value of this setting
is. -/
theorem failure?_readSection {heading : Heading} (hdistinct : node.Distinct)
    (hsection : node.IsSection)
    (hothers : ∀ y, y ≠ x → y.heading = heading → ∀ written,
      (sectionEntries heading.keys node).lookup y.key = some written →
        ∃ value, y.read written = .ok value) (s : Settings) :
    failure? (readSection heading.fields s node) =
      if x.heading = heading then
        ((sectionEntries heading.keys node).lookup x.key).bind fun written =>
          failure? (x.read written)
      else none := by
  have hnodup := nodup_sectionEntries heading.nodup_keys hdistinct
  have hfine (entry : String × Toml.Node) (hentry : entry ∈ sectionEntries heading.keys node)
      (hx : ¬ (x.heading = heading ∧ x.key = entry.1)) (s : Settings) :
      failure? (readEntry heading.fields s entry) = none := by
    refine failure?_readEntry_eq_none (fun y hy hkey => ?_) s
    have hne : y ≠ x := fun heq => hx (heq ▸ ⟨hy, hkey⟩)
    exact hothers y hne hy _ (Toml.Entries.lookup_eq_some_of_mem hnodup (hkey ▸ hentry))
  rw [readSection_eq_readEntries heading.nodup_key_fields hsection, heading.map_key_fields]
  split
  · next hheading =>
    subst hheading
    exact failure?_readEntries x.key hnodup (fun written _ s => failure?_readEntry_key x s written)
      (fun entry hentry hkey => hfine entry hentry fun h => hkey h.2.symm) s
  · next hheading =>
    have hnone := failure?_readEntries x.key hnodup
      (fun written hwritten => hfine _ hwritten fun h => hheading h.1)
      (fun entry hentry _ => hfine entry hentry fun h => hheading h.1) s
    rw [hnone, Option.bind_fun_none]

/-- A section is read by its heading. -/
@[simp] theorem readEntry_heading (heading : Heading) (s : Settings) (node : Toml.Node) :
    readEntry sections s (heading.text, node) = readSection heading.fields s node := by
  have hsection : ⟨heading.text, readSection heading.fields⟩ ∈ sections := by
    rw [Heading.sections_eq]
    exact List.mem_map_of_mem heading.mem_all
  exact readEntry_of_mem (by decide) hsection s node

/-- An entry of a document is not refused if, being a section, it is not. -/
theorem failure?_readEntry_sections_eq_none {entry : String × Toml.Node}
    (h : ∀ heading : Heading, heading.text = entry.1 → ∀ s,
      failure? (readSection heading.fields s entry.2) = none)
    (s : Settings) : failure? (readEntry sections s entry) = none := by
  rw [readEntry]
  cases hfind : sections.find? fun field => field.key == entry.1 with
  | none => rfl
  | some field =>
    have hfield := List.mem_of_find?_eq_some hfind
    rw [Heading.sections_eq] at hfield
    obtain ⟨heading, -, rfl⟩ := List.mem_map.mp hfield
    exact h heading (by simpa using List.find?_some hfind) s

end Settings

namespace Setting

/-- A file is fine but for one setting: what it has under the headings are sections, and what it
says of every other setting can be read. -/
structure OthersFine (x : Setting) (entries : Toml.Entries) : Prop where
  isSection : ∀ (heading : Heading) node, entries.lookup heading.text = some node → node.IsSection
  readable : ∀ y, y ≠ x → ∀ written, y.written? entries = some written →
    ∃ value, y.read written = .ok value

/-- Two files say the same of all settings but one: the other sections are the same, and so are the
other keys of its own. -/
structure OthersSame (x : Setting) (entries others : Toml.Entries) : Prop where
  sections : ∀ heading : Heading, heading ≠ x.heading →
    entries.lookup heading.text = others.lookup heading.text
  keys : ∀ y : Setting, y ≠ x → y.written? entries = y.written? others

/-- A file has this value for a setting, and is fine otherwise. -/
structure IsGivenBy (x : Setting) (document : Toml.Document) (node : Toml.Node) : Prop where
  written : x.written? document.entries = some node
  othersFine : x.OthersFine document.entries

/-- What a file says of a setting stands in the section of the setting. -/
theorem written?_of_lookup (h : entries.lookup x.heading.text = some node) :
    x.written? entries = (Settings.sectionEntries x.heading.keys node).lookup x.key := by
  rw [written?, h]
  rfl

/-- What stands under a heading is a section when a setting has a value there. -/
theorem isSection_of_written? (hwritten : x.written? entries = some written)
    (hlookup : entries.lookup x.heading.text = some node) : node.IsSection := by
  rw [written?_of_lookup hlookup] at hwritten
  cases node with
  | table | array | dateTime => trivial
  | text | integer | float | boolean | tables => contradiction

/-- The other settings of a section can be read. -/
theorem OthersFine.readable_of_lookup (hfine : x.OthersFine entries) {heading : Heading}
    (hlookup : entries.lookup heading.text = some node) :
    ∀ y, y ≠ x → y.heading = heading → ∀ written,
      (Settings.sectionEntries heading.keys node).lookup y.key = some written →
        ∃ value, y.read written = .ok value := by
  rintro y hne rfl written hwritten
  exact hfine.readable y hne written ((written?_of_lookup hlookup).trans hwritten)

end Setting

namespace Settings

/-- A file that is fine but for one setting is refused when the value of this setting is. -/
theorem failure?_ofEntries (hdistinct : Toml.Entries.Distinct entries)
    (hfine : x.OthersFine entries) :
    failure? (ofEntries entries) =
      (x.written? entries).bind fun node => failure? (x.read node) := by
  obtain ⟨hnodup, hnodes⟩ := Toml.Entries.distinct_iff.mp hdistinct
  have hsection {heading : Heading} {node : Toml.Node} (hnode : (heading.text, node) ∈ entries) :=
    have hlookup := Toml.Entries.lookup_eq_some_of_mem hnodup hnode
    failure?_readSection (hnodes _ hnode) (hfine.isSection heading node hlookup)
      (hfine.readable_of_lookup hlookup)
  rw [Setting.written?, Option.bind_eq_bind, Option.bind_assoc]
  refine failure?_readEntries x.heading.text hnodup (fun node hnode s => ?_)
    (fun entry hentry hname => ?_) standard
  · rw [readEntry_heading, hsection hnode s, if_pos rfl]
  · refine failure?_readEntry_sections_eq_none fun heading htext s => ?_
    have hnode : (heading.text, entry.2) ∈ entries := htext ▸ hentry
    rw [hsection hnode s, if_neg]
    rintro rfl
    exact hname htext.symm

/-- For a setting with a value in a file that is otherwise fine, reading the file gives what reading
this value gives. -/
theorem map_get_ofEntries (hdistinct : Toml.Entries.Distinct entries) (hfine : x.OthersFine entries)
    (hwritten : x.written? entries = some written) :
    (ofEntries entries).map x.get = x.read written := by
  have hfault := failure?_ofEntries hdistinct hfine
  rw [hwritten, Option.bind_some] at hfault
  cases hfile : ofEntries entries with
  | error fault =>
    rw [hfile] at hfault
    exact (failure?_eq_some_iff.mp hfault.symm).symm
  | ok file =>
    have hget := get_of_ofEntries hdistinct hfile x
    rw [hwritten] at hget
    exact hget.symm

/-- What an accepted file has under the headings are sections. -/
theorem isSection_of_ofEntries (h : ofEntries entries = .ok file) {heading : Heading}
    (hlookup : entries.lookup heading.text = some node) : node.IsSection := by
  obtain ⟨before, after, rfl, -⟩ := List.lookup_eq_some_iff.mp hlookup
  obtain ⟨s, t, hread⟩ := exists_step_eq_ok h (heading.text, node) (by simp)
  by_contra hsection
  rw [readEntry_heading, readSection_of_not_isSection hsection] at hread
  contradiction

/-- An accepted file is fine but for any setting. -/
theorem othersFine_of_ofEntries (hdistinct : Toml.Entries.Distinct entries)
    (h : ofEntries entries = .ok file) (x : Setting) : x.OthersFine entries where
  isSection _ _ := isSection_of_ofEntries h
  readable y _ written hwritten := by
    have hget := get_of_ofEntries hdistinct h y
    rw [hwritten] at hget
    exact ⟨_, hget⟩

end Settings

namespace Setting.OthersSame

/-- A file that says the same of all other settings as one that is fine is fine but for the setting
that it gives. -/
theorem othersFine (h : x.OthersSame entries others) (hfine : x.OthersFine others)
    (hwritten : x.written? entries = some written) : x.OthersFine entries where
  isSection heading node hlookup := by
    by_cases hheading : heading = x.heading
    · subst hheading
      exact isSection_of_written? hwritten hlookup
    · exact hfine.isSection heading node (h.sections heading hheading ▸ hlookup)
  readable y hy value hvalue := hfine.readable y hy value (h.keys y hy ▸ hvalue)

/-- Of two accepted files that say the same of all other settings, each has the other settings of
the other. -/
theorem get_eq (h : x.OthersSame entries others) (hdistinct : Toml.Entries.Distinct entries)
    (hdistinct' : Toml.Entries.Distinct others) (hfile : Settings.ofEntries entries = .ok file)
    (hrest : Settings.ofEntries others = .ok rest) (hy : y ≠ x) : y.get file = y.get rest := by
  have hget := Settings.get_of_ofEntries hdistinct hfile y
  have hget' := Settings.get_of_ofEntries hdistinct' hrest y
  rw [h.keys y hy] at hget
  cases hwritten : y.written? others with
  | none =>
    rw [hwritten] at hget hget'
    exact hget.trans hget'.symm
  | some value =>
    rw [hwritten] at hget hget'
    exact Except.ok.inj (hget.symm.trans hget')

/-- Two files that say the same of all other settings give the same if the values of the setting are
read alike: both are refused for the same fault, or both accepted with the same value of the
setting. -/
theorem ofEntries_congr (h : x.OthersSame entries others)
    (hdistinct : Toml.Entries.Distinct entries) (hdistinct' : Toml.Entries.Distinct others)
    (hfine : x.OthersFine others)
    (hwritten : x.written? entries = some written) (hwritten' : x.written? others = some written')
    (hread : x.read written = x.read written') :
    Settings.ofEntries entries = Settings.ofEntries others := by
  have hget := Settings.map_get_ofEntries hdistinct (h.othersFine hfine hwritten) hwritten
  rw [hread, ← Settings.map_get_ofEntries hdistinct' hfine hwritten'] at hget
  cases hfile : Settings.ofEntries entries with
  | error fault =>
    cases hrest : Settings.ofEntries others with
    | error other =>
      rw [hfile, hrest] at hget
      exact congrArg _ (Except.error.inj hget)
    | ok rest =>
      rw [hfile, hrest] at hget
      contradiction
  | ok file =>
    cases hrest : Settings.ofEntries others with
    | error fault =>
      rw [hfile, hrest] at hget
      contradiction
    | ok rest =>
      rw [hfile, hrest] at hget
      refine congrArg _ (ext fun y => ?_)
      by_cases hy : y = x
      · subst hy
        exact Except.ok.inj hget
      · exact h.get_eq hdistinct hdistinct' hfile hrest hy

/-- A value that is read puts the setting over the file without it, and a value that cannot be read
refuses the file. -/
theorem ofEntries_eq (h : x.OthersSame entries others)
    (hdistinct : Toml.Entries.Distinct entries) (hdistinct' : Toml.Entries.Distinct others)
    (hrest : Settings.ofEntries others = .ok rest) (hwritten : x.written? entries = some written) :
    Settings.ofEntries entries = (x.read written).map fun value => x.put value rest := by
  have hfine := h.othersFine (Settings.othersFine_of_ofEntries hdistinct' hrest x) hwritten
  have hget := Settings.map_get_ofEntries hdistinct hfine hwritten
  rw [← hget]
  cases hfile : Settings.ofEntries entries with
  | error fault => rfl
  | ok file =>
    refine congrArg Except.ok (ext fun y => ?_)
    by_cases hy : y = x
    · subst hy
      exact (get_put y _ rest).symm
    · rw [get_put_of_ne hy, h.get_eq hdistinct hdistinct' hfile hrest hy]

end Setting.OthersSame

namespace Settings

variable {document other : Toml.Document}

/-- A document gives what its entries do. -/
theorem ofText_document (document : Toml.Document) :
    ofText document.text = ofEntries document.entries := by
  rw [ofText, document.isRead]

/-- A setting that a file gives has the value that is read there. -/
theorem map_get_ofText (h : x.IsGivenBy document node) :
    (ofText document.text).map x.get = x.read node := by
  rw [ofText_document]
  exact map_get_ofEntries document.distinct h.othersFine h.written

/-- Files that are the same but for a setting give the same if its values are read alike. -/
theorem ofText_congr (h : x.IsGivenBy document node)
    (hwritten : x.written? other.entries = some written)
    (hsame : x.OthersSame other.entries document.entries) (hread : x.read written = x.read node) :
    ofText other.text = ofText document.text := by
  rw [ofText_document, ofText_document]
  exact hsame.ofEntries_congr other.distinct document.distinct h.othersFine hwritten h.written hread

/-- A file is refused when what it says of a setting cannot be read. -/
theorem exists_fault_of_written? (hwritten : x.written? document.entries = some node)
    (hread : ∀ value, x.read node ≠ .ok value) : ∃ fault, ofText document.text = .error fault := by
  rw [ofText_document]
  cases hfile : ofEntries document.entries with
  | error fault => exact ⟨fault, rfl⟩
  | ok file =>
    have hget := get_of_ofEntries document.distinct hfile x
    rw [hwritten] at hget
    exact absurd hget (hread _)

end Settings

end AccessPattern
