import AccessPattern.Proofs.Checks
import AccessPattern.Proofs.Except
import AccessPattern.Proofs.Toml.Document
import AccessPattern.Settings.CommandLine
import AccessPattern.Settings.File

/-!
# The settings one by one

Each setting has a value of its own in the settings, stands under a key of its own in a section of a
settings file, and may be given by an option. Reading a file and putting options over settings treat
each setting by itself: what they do to one can be told from its own key and its own option.

A key stands in a document at most once, so it does not matter in which order the entries are read.
-/

namespace AccessPattern

/-- The sections of a settings file. -/
inductive Heading where
  | testset
  | geometry
  | output
  | runtime
deriving DecidableEq

/-- The settings. -/
inductive Setting where
  | size
  | blockSizes
  | pattern
  | seed
  | pageSize
  | channels
  | output
  | manifest
  | verify
  | dryRun
deriving DecidableEq

namespace Setting

/-- What the values of a setting are. -/
abbrev Value : Setting → Type
  | .size | .pageSize | .channels => UInt64
  | .blockSizes => List UInt64
  | .pattern | .output => String
  | .seed => Option UInt64
  | .manifest | .verify | .dryRun => Bool

/-- The value of a setting. -/
def get : (x : Setting) → Settings → x.Value
  | .size, s => s.size
  | .blockSizes, s => s.blockSizes
  | .pattern, s => s.pattern
  | .seed, s => s.seed
  | .pageSize, s => s.geometry.pageSize
  | .channels, s => s.geometry.channels
  | .output, s => s.output
  | .manifest, s => s.manifest
  | .verify, s => s.verify
  | .dryRun, s => s.dryRun

/-- The settings with another value of one of them. -/
def put : (x : Setting) → x.Value → Settings → Settings
  | .size, value, s => { s with size := value }
  | .blockSizes, value, s => { s with blockSizes := value }
  | .pattern, value, s => { s with pattern := value }
  | .seed, value, s => { s with seed := value }
  | .pageSize, value, s => { s with geometry := { s.geometry with pageSize := value } }
  | .channels, value, s => { s with geometry := { s.geometry with channels := value } }
  | .output, value, s => { s with output := value }
  | .manifest, value, s => { s with manifest := value }
  | .verify, value, s => { s with verify := value }
  | .dryRun, value, s => { s with dryRun := value }

/-- The section of a setting. -/
def heading : Setting → Heading
  | .size | .blockSizes | .pattern | .seed => .testset
  | .pageSize | .channels => .geometry
  | .output | .manifest | .verify => .output
  | .dryRun => .runtime

/-- The key of a setting in its section. -/
def key : Setting → String
  | .size => "size"
  | .blockSizes => "block_sizes"
  | .pattern => "pattern"
  | .seed => "seed"
  | .pageSize => "page_size"
  | .channels => "channels"
  | .output => "path"
  | .manifest => "manifest"
  | .verify => "verify"
  | .dryRun => "dry_run"

/-- The value of a setting that stands under its key. -/
def read : (x : Setting) → Toml.Node → Except TextFault x.Value
  | .size => Settings.size?
  | .blockSizes => Settings.sizes?
  | .pattern | .output => Settings.textValue
  | .seed => fun node => (Settings.naturalValue node).map some
  | .pageSize | .channels => Settings.naturalValue
  | .manifest | .verify | .dryRun => Settings.booleanValue

/-- The value of a setting that options give. -/
def given? : (x : Setting) → Options → Option (Except OverrideError x.Value)
  | .size, o => o.size.map (Options.readSize .size)
  | .blockSizes, o =>
    if o.blockSizes = [] then none else some (o.blockSizes.mapM (Options.readSize .blockSize))
  | .pattern, o => o.pattern.map .ok
  | .seed, o => o.seed.map fun seed => .ok (some seed)
  | .pageSize, o => o.pageSize.map (Options.readSize .pageSize)
  | .channels, o => o.channels.map .ok
  | .output, o => o.output.map .ok
  | .manifest, o => if o.manifest then some (.ok true) else none
  | .verify, o => if o.verify then some (.ok true) else none
  | .dryRun, o => if o.dryRun then some (.ok true) else none

variable {x y : Setting} {s t : Settings}

/-- A value that was put is found. -/
@[simp] theorem get_put (x : Setting) (value : x.Value) (s : Settings) :
    x.get (x.put value s) = value := by
  cases x <;> rfl

/-- Putting a value leaves the other settings alone. -/
@[simp] theorem get_put_of_ne (h : x ≠ y) (value : y.Value) (s : Settings) :
    x.get (y.put value s) = x.get s := by
  cases x <;> cases y <;> first | contradiction | rfl

/-- The settings are known when each of them is. -/
theorem ext (h : ∀ x : Setting, x.get s = x.get t) : s = t := by
  obtain ⟨_, _, _, _, ⟨_, _⟩, _, _, _, _⟩ := s
  obtain ⟨_, _, _, _, ⟨_, _⟩, _, _, _, _⟩ := t
  cases h .size; cases h .blockSizes; cases h .pattern; cases h .seed; cases h .pageSize
  cases h .channels; cases h .output; cases h .manifest; cases h .verify; cases h .dryRun
  rfl

/-- No two settings have one key. -/
theorem key_injective (h : x.key = y.key) : x = y := by
  cases x <;> cases y <;> first | rfl | exact absurd h (by decide)

/-- How a section treats the key of a setting. -/
def field (x : Setting) : Settings.Field where
  key := x.key
  read s node := do pure (x.put (← x.read node) s)

end Setting

namespace Heading

/-- The text of a heading. -/
def text : Heading → String
  | .testset => "testset"
  | .geometry => "geometry"
  | .output => "output"
  | .runtime => "runtime"

/-- The settings of a section in the order of their keys. -/
def settings : Heading → List Setting
  | .testset => [.size, .blockSizes, .pattern, .seed]
  | .geometry => [.pageSize, .channels]
  | .output => [.output, .manifest, .verify]
  | .runtime => [.dryRun]

/-- The keys of a section in their order. -/
def keys (heading : Heading) : List String :=
  heading.settings.map Setting.key

/-- How the keys of a section are read. -/
def fields (heading : Heading) : List Settings.Field :=
  heading.settings.map Setting.field

/-- The keys of the fields of a section are those of its settings. -/
@[simp] theorem map_key_fields (heading : Heading) : heading.fields.map (·.key) = heading.keys := by
  rw [fields, keys, List.map_map]
  rfl

/-- No section has a key twice. -/
@[simp] theorem nodup_keys (heading : Heading) : heading.keys.Nodup := by
  cases heading <;> decide

/-- The fields of a section have different keys. -/
theorem nodup_key_fields (heading : Heading) : (heading.fields.map (·.key)).Nodup :=
  heading.map_key_fields ▸ heading.nodup_keys

/-- All headings. -/
def all : List Heading :=
  [testset, geometry, output, runtime]

/-- Every heading is listed. -/
@[simp] theorem mem_all (heading : Heading) : heading ∈ all := by
  cases heading <;> decide

/-- A setting is among those of a section if the section is its own. -/
@[simp] theorem mem_settings_iff {heading : Heading} {x : Setting} :
    x ∈ heading.settings ↔ x.heading = heading := by
  cases heading <;> cases x <;> decide

/-- No two sections have one heading text. -/
theorem text_injective {heading other : Heading} (h : heading.text = other.text) :
    heading = other := by
  cases heading <;> cases other <;> first | rfl | exact absurd h (by decide)

/-- The sections of a settings file are read setting by setting. -/
theorem sections_eq :
    Settings.sections = all.map fun heading =>
      ⟨heading.text, Settings.readSection heading.fields⟩ := by
  have hseed : Setting.seed.field = ⟨"seed", fun s node => do
      pure { s with seed := some (← Settings.naturalValue node) }⟩ := by
    refine congrArg (Settings.Field.mk "seed") (funext fun s => funext fun node => ?_)
    change (Settings.naturalValue node).map some >>= _ = _
    cases Settings.naturalValue node with
    | error fault => rfl
    | ok seed => rfl
  have htestset : testset.fields = Settings.testsetFields := by
    rw [Settings.testsetFields, ← hseed]
    rfl
  rw [Settings.sections, ← htestset]
  rfl

end Heading

/-- What may stand as a section: a table, the values of its keys in their order, or a date, which
says nothing. -/
def Toml.Node.IsSection : Toml.Node → Prop
  | .table _ _ | .array _ | .dateTime => True
  | _ => False

namespace Settings

variable {s t : Settings}

/-- Reading an entry is what the field with its key does, or nothing if there is none. -/
theorem readEntry_cases {fields : List Field} {entry : String × Toml.Node}
    (h : readEntry fields s entry = .ok t) :
    (∃ field ∈ fields, field.key = entry.1 ∧ field.read s entry.2 = .ok t) ∨
      (∀ field ∈ fields, field.key ≠ entry.1) ∧ t = s := by
  rw [readEntry] at h
  cases hfind : fields.find? fun field => field.key == entry.1 with
  | some field =>
    rw [hfind] at h
    exact .inl ⟨field, List.mem_of_find?_eq_some hfind, by simpa using List.find?_some hfind, h⟩
  | none =>
    rw [hfind] at h
    exact .inr ⟨by simpa using hfind, (Except.ok.inj h).symm⟩

/-- What reading entries with different keys does to a setting that depends on one of the keys: it is
what the entry with that key does, if there is one. -/
theorem of_readEntries {fields : List Field} {γ : Type} (key : String) (get : Settings → γ)
    (Sets : Toml.Node → γ → γ → Prop) {entries : Toml.Entries} (hnodup : (entries.map Prod.fst).Nodup)
    (hstep : ∀ entry ∈ entries, ∀ {s t}, readEntry fields s entry = .ok t →
      if entry.1 = key then Sets entry.2 (get s) (get t) else get t = get s)
    (h : entries.foldlM (readEntry fields) s = .ok t) :
    match entries.lookup key with
    | some node => Sets node (get s) (get t)
    | none => get t = get s := by
  induction entries generalizing s with
  | nil => exact Except.ok.inj h ▸ rfl
  | cons entry entries ih =>
    obtain ⟨name, node⟩ := entry
    obtain ⟨between, hfirst, hlater⟩ := bind_eq_ok_iff.mp h
    rw [List.map_cons, List.nodup_cons] at hnodup
    rw [List.forall_mem_cons] at hstep
    have hfirst := hstep.1 hfirst
    have hlater := ih hnodup.2 hstep.2 hlater
    by_cases hkey : name = key
    · subst hkey
      have hnoFurther : entries.lookup name = none :=
        Toml.Entries.lookup_eq_none_iff_notMem.mpr hnodup.1
      rw [hnoFurther] at hlater
      rw [if_pos rfl] at hfirst
      rw [List.lookup_cons_self]
      exact hlater ▸ hfirst
    · rw [if_neg hkey] at hfirst
      rw [List.lookup_cons, beq_false_of_ne (Ne.symm hkey)]
      exact hfirst ▸ hlater

/-- The entries of a section: those of its table, or the items of an array under its keys. -/
def sectionEntries (keys : List String) : Toml.Node → Toml.Entries
  | .table _ entries => entries
  | .array items => keys.zip items
  | _ => []

/-- The keys of the entries of a section are different. -/
theorem nodup_sectionEntries {keys : List String} {node : Toml.Node} (hkeys : keys.Nodup)
    (hnode : node.Distinct) : ((sectionEntries keys node).map Prod.fst).Nodup := by
  cases node with
  | table origin entries => exact (Toml.Entries.distinct_iff.mp hnode).1
  | array items =>
    rw [sectionEntries, List.zip_eq_zip_take_min, List.map_fst_zip (by simp)]
    exact (List.take_sublist _ _).nodup hkeys
  | text | integer | float | boolean | dateTime | tables => exact List.nodup_nil

/-- An entry with the key of a field is read by this field. -/
theorem readEntry_of_mem {fields : List Field} (hkeys : (fields.map (·.key)).Nodup) {field : Field}
    (hfield : field ∈ fields) (s : Settings) (node : Toml.Node) :
    readEntry fields s (field.key, node) = field.read s node := by
  rw [readEntry]
  cases hfind : fields.find? fun other => other.key == field.key with
  | none => simpa using List.find?_eq_none.mp hfind field hfield
  | some found =>
    have hkey : found.key = field.key := by simpa using List.find?_some hfind
    rw [List.inj_on_of_nodup_map hkeys (List.mem_of_find?_eq_some hfind) hfield hkey]

/-- Values are read in the order of the keys of a section as the entries with these keys. -/
theorem readEntries_map_key {fields : List Field} (hkeys : (fields.map (·.key)).Nodup)
    {pairs : List (Field × Toml.Node)} (hpairs : ∀ pair ∈ pairs, pair.1 ∈ fields) (s : Settings) :
    (pairs.map (Prod.map Field.key id)).foldlM (readEntry fields) s =
      pairs.foldlM (fun s pair => pair.1.read s pair.2) s := by
  induction pairs generalizing s with
  | nil => rfl
  | cons pair pairs ih =>
    rw [List.forall_mem_cons] at hpairs
    rw [List.map_cons, List.foldlM_cons, List.foldlM_cons]
    exact congrArg₂ _ (readEntry_of_mem hkeys hpairs.1 s pair.2) (funext (ih hpairs.2))

/-- Reading what may stand as a section is reading its entries. -/
theorem readSection_eq_readEntries {fields : List Field} {node : Toml.Node}
    (hkeys : (fields.map (·.key)).Nodup) (hnode : node.IsSection) (s : Settings) :
    readSection fields s node =
      (sectionEntries (fields.map (·.key)) node).foldlM (readEntry fields) s := by
  cases node with
  | table origin entries => rfl
  | array items =>
    rw [sectionEntries, List.zip_map_left,
      readEntries_map_key hkeys fun pair hpair => (List.of_mem_zip hpair).1]
    rfl
  | dateTime => rfl
  | text | integer | float | boolean | tables => exact hnode.elim

/-- Nothing else is read as a section. -/
theorem readSection_of_not_isSection {fields : List Field} {node : Toml.Node}
    (hnode : ¬ node.IsSection) (s : Settings) :
    readSection fields s node = .error .malformed := by
  cases node with
  | table | array | dateTime => exact absurd trivial hnode
  | text | integer | float | boolean | tables => rfl

/-- Reading an entry of a section sets the setting of that key and leaves the others alone. -/
theorem get_of_readEntry {heading : Heading} {entry : String × Toml.Node}
    (h : readEntry heading.fields s entry = .ok t) (x : Setting) :
    if x.heading = heading ∧ entry.1 = x.key then x.read entry.2 = .ok (x.get t)
    else x.get t = x.get s := by
  obtain ⟨field, hfield, hkey, hread⟩ | ⟨hother, rfl⟩ := readEntry_cases h
  · obtain ⟨y, hy, rfl⟩ := List.mem_map.mp hfield
    replace hkey : y.key = entry.1 := hkey
    obtain ⟨value, hvalue, hput⟩ := bind_eq_ok_iff.mp hread
    rw [← Except.ok.inj hput]
    by_cases hsame : x = y
    · subst hsame
      rw [if_pos ⟨Heading.mem_settings_iff.mp hy, hkey.symm⟩, hvalue, Setting.get_put]
    · rw [if_neg fun hboth => hsame (Setting.key_injective (hboth.2.symm.trans hkey.symm)),
        Setting.get_put_of_ne hsame]
  · rw [if_neg]
    rintro ⟨hheading, hkey⟩
    exact hother _ (List.mem_map_of_mem (Heading.mem_settings_iff.mpr hheading)) hkey.symm

/-- Reading a section sets a setting to what stands under its key, if that section is its own and the
key is there, and otherwise leaves it alone. -/
theorem get_of_readSection {heading : Heading} {node : Toml.Node} (hnode : node.Distinct)
    (h : readSection heading.fields s node = .ok t) (x : Setting) :
    if x.heading = heading then
      match (sectionEntries heading.keys node).lookup x.key with
      | some written => x.read written = .ok (x.get t)
      | none => x.get t = x.get s
    else x.get t = x.get s := by
  have hentries := nodup_sectionEntries heading.nodup_keys hnode
  have hread : (sectionEntries heading.keys node).foldlM (readEntry heading.fields) s = .ok t := by
    by_cases hsection : node.IsSection
    · rw [← h, readSection_eq_readEntries heading.nodup_key_fields hsection, heading.map_key_fields]
    · rw [readSection_of_not_isSection hsection] at h
      contradiction
  split
  · next hheading =>
    refine of_readEntries x.key x.get (fun written _ value => x.read written = .ok value) hentries
      (fun entry _ s t hentry => ?_) hread
    simpa [hheading] using get_of_readEntry hentry x
  · next hheading =>
    have hkept := of_readEntries x.key x.get (fun _ before value => value = before) hentries
      (fun entry _ s t hentry => by simpa [hheading] using get_of_readEntry hentry x) hread
    split at hkept
    · exact hkept
    · exact hkept

end Settings

/-- What a settings file says of a setting, given the entries of the file: what stands under the key
of the setting in its section. -/
def Setting.written? (x : Setting) (entries : Toml.Entries) : Option Toml.Node := do
  let node ← entries.lookup x.heading.text
  (Settings.sectionEntries x.heading.keys node).lookup x.key

namespace Settings

/-- A setting of a file has the value that the file says, or the standard value if it says none. -/
theorem get_of_ofEntries {entries : Toml.Entries} {file : Settings}
    (hdistinct : Toml.Entries.Distinct entries) (h : ofEntries entries = .ok file) (x : Setting) :
    match x.written? entries with
    | some written => x.read written = .ok (x.get file)
    | none => x.get file = x.get standard := by
  obtain ⟨hnodup, hnodes⟩ := Toml.Entries.distinct_iff.mp hdistinct
  have hread := of_readEntries x.heading.text x.get
    (fun node before value =>
      match (sectionEntries x.heading.keys node).lookup x.key with
      | some written => x.read written = .ok value
      | none => value = before) hnodup (fun entry hentry s t hsection => ?_) h
  · rw [Setting.written?]
    cases hlookup : entries.lookup x.heading.text with
    | none =>
      rw [hlookup] at hread
      exact hread
    | some node =>
      rw [hlookup] at hread
      exact hread
  · obtain ⟨field, hfield, hkey, hsection⟩ | ⟨hother, rfl⟩ := readEntry_cases hsection
    · rw [Heading.sections_eq] at hfield
      obtain ⟨heading, -, rfl⟩ := List.mem_map.mp hfield
      replace hkey : heading.text = entry.1 := hkey
      have hget := get_of_readSection (hnodes entry hentry) hsection x
      by_cases hheading : x.heading = heading
      · rw [if_pos hheading] at hget
        rw [hheading, if_pos hkey.symm]
        exact hget
      · rw [if_neg hheading] at hget
        rwa [if_neg fun heq => hheading (Heading.text_injective (heq.symm.trans hkey.symm))]
    · rw [Heading.sections_eq] at hother
      rw [if_neg fun hkey => hother _ (List.mem_map_of_mem (Heading.mem_all x.heading)) hkey.symm]

end Settings

end AccessPattern
