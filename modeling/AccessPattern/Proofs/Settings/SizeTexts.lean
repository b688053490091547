import AccessPattern.Proofs.Settings.FileFaults
import AccessPattern.Proofs.Size
import AccessPattern.Proofs.Toml.Writing
import AccessPattern.Settings.Options

/-!
# Sizes in files and options

A settings file may have a text or a number in the place of the size and of each block size, an
option has a text. The same text gives the same size in both, or is refused by both, and a number
does what a text of that size does. The page size is otherwise: an option has a text for it, but a
file must have a number.
-/

namespace AccessPattern

variable {node : Toml.Node} {nodes : List Toml.Node} {s : String} {texts : List String}
  {document other : Toml.Document}

/-- What may stand in a settings file for the text of a size: the text itself, or the number of
bytes that it is read as. -/
inductive StandsFor : Toml.Node → String → Prop
  | text (s : String) : StandsFor (.text s) s
  | number {size : UInt64} {s : String} (hparse : Size.parse s = .ok size) :
    StandsFor (.integer size.toNat) s

/-- Every number stands for some text. -/
theorem standsFor_format (size : UInt64) : StandsFor (.integer size.toNat) (Size.format size) :=
  .number (Size.parse_format size)

namespace Settings

/-- A number of an unsigned word is read as that word. -/
theorem naturalValue_toNat (value : UInt64) : naturalValue (.integer value.toNat) = .ok value :=
  congrArg Except.ok UInt64.ofNat_toNat

/-- What stands for a text is a number of bytes or a text, and gives the size that the text is read
as. -/
theorem exists_sizeValue_of_standsFor (h : StandsFor node s) :
    ∃ value, sizeValue node = .ok value ∧ value.resolve = (Size.parse s).mapError .size := by
  cases h with
  | text => exact ⟨.text s, rfl, rfl⟩
  | @number size _ hparse =>
    refine ⟨.bytes size, ?_, ?_⟩
    · exact congrArg (Except.map SizeValue.bytes) (naturalValue_toNat size)
    · rw [hparse]
      rfl

/-- What stands for a text in the place of a size is read like it. -/
theorem size?_of_standsFor (h : StandsFor node s) :
    size? node = (Size.parse s).mapError .size := by
  obtain ⟨value, hvalue, hsize⟩ := exists_sizeValue_of_standsFor h
  rw [size?, hvalue, ← hsize]
  rfl

/-- What stands for texts in a list of sizes is read like them. -/
theorem sizes?_of_standsFor (h : List.Forall₂ StandsFor nodes texts) :
    sizes? (.array nodes) = (texts.mapM Size.parse).mapError .size := by
  have hvalues : ∃ values, nodes.mapM sizeValue = .ok values ∧
      values.mapM SizeValue.resolve = texts.mapM fun s => (Size.parse s).mapError .size := by
    induction h with
    | nil => exact ⟨[], rfl, rfl⟩
    | cons hnode _ ih =>
      obtain ⟨value, hvalue, hsize⟩ := exists_sizeValue_of_standsFor hnode
      obtain ⟨values, hvalues, hsizes⟩ := ih
      refine ⟨value :: values, ?_, ?_⟩
      · rw [List.mapM_cons, hvalue, hvalues]
        rfl
      · rw [List.mapM_cons, List.mapM_cons, hsize, hsizes]
  obtain ⟨values, hvalues, hsizes⟩ := hvalues
  rw [sizes?, hvalues, ← mapM_mapError, ← hsizes]
  rfl

/-- A negative number is no size. -/
theorem sizeValue_of_neg {n : Int} (hn : n < 0) : sizeValue (.integer n) = .error .malformed := by
  cases n with
  | ofNat n => exact absurd hn (by simp)
  | negSucc n => rfl

/-- No list with a negative number in it is read as sizes. -/
theorem sizes?_ne_ok_of_neg {n : Int} (hn : n < 0) (hmem : .integer n ∈ nodes)
    (sizes : List UInt64) : sizes? (.array nodes) ≠ .ok sizes := by
  intro h
  obtain ⟨values, hvalues, -⟩ := bind_eq_ok_iff.mp h
  have hnone := failure?_eq_none_iff.mpr ⟨values, hvalues⟩
  rw [failure?_mapM, List.findSome?_eq_none_iff] at hnone
  have hnumber := hnone _ hmem
  rw [sizeValue_of_neg hn] at hnumber
  contradiction

end Settings

namespace Options

/-- The option of the size alone changes the size alone. -/
theorem applyTo_size (s : String) (base : Settings) :
    applyTo { none with size := some s } base =
      ((Size.parse s).map fun size => { base with size := size }).mapError (⟨.size, ·⟩) := by
  rw [applyTo, sizeOver, readSize]
  cases Size.parse s with
  | error fault => rfl
  | ok size => rfl

/-- The option of the block sizes alone changes the block sizes alone. -/
theorem applyTo_blockSizes (htexts : texts ≠ []) (base : Settings) :
    applyTo { none with blockSizes := texts } base =
      ((texts.mapM Size.parse).map fun sizes => { base with blockSizes := sizes }).mapError
        (⟨.blockSize, ·⟩) := by
  have hsizes : blockSizesOver texts base.blockSizes =
      (texts.mapM Size.parse).mapError (⟨.blockSize, ·⟩) := by
    rw [blockSizesOver, if_neg htexts]
    exact mapM_mapError texts
  rw [applyTo, hsizes]
  cases texts.mapM Size.parse with
  | error fault => rfl
  | ok sizes => rfl

/-- The option of the page size alone changes the page size alone. -/
theorem applyTo_pageSize (s : String) (base : Settings) :
    applyTo { none with pageSize := some s } base =
      ((Size.parse s).map fun size => Setting.pageSize.put size base).mapError
        (⟨.pageSize, ·⟩) := by
  rw [applyTo, sizeOver, readSize]
  cases Size.parse s with
  | error fault => rfl
  | ok size => rfl

end Options

namespace Setting

/-- The headings and keys of settings may be written without quotes. -/
theorem isBareName (x : Setting) :
    Toml.IsBareName x.heading.text ∧ Toml.IsBareName x.key := by
  cases x <;> exact ⟨⟨by decide, rfl⟩, by decide, rfl⟩

/-- A file with the entry of one setting alone says nothing of the others. -/
theorem written?_single (x y : Setting) (origin : Toml.Origin) (node : Toml.Node) :
    y.written? [(x.heading.text, .table origin [(x.key, node)])] =
      if y = x then some node else none := by
  by_cases hheading : y.heading.text = x.heading.text
  · rw [written?, hheading, List.lookup_cons_self]
    change List.lookup y.key [(x.key, node)] = _
    by_cases hkey : y.key = x.key
    · rw [hkey, List.lookup_cons_self, if_pos (key_injective hkey)]
    · rw [List.lookup_cons, beq_false_of_ne hkey, if_neg fun heq => hkey (congrArg key heq)]
      rfl
  · have hne : y ≠ x := fun heq => hheading (congrArg (Heading.text ∘ heading) heq)
    rw [written?, List.lookup_cons, beq_false_of_ne hheading, if_neg hne]
    rfl

/-- Two files with the section of a setting alone say the same of all other settings if they do of
those of this section. -/
theorem othersSame_of_section {x : Setting} {node' : Toml.Node}
    (h : ∀ y, y ≠ x →
      y.written? [(x.heading.text, node)] = y.written? [(x.heading.text, node')]) :
    x.OthersSame [(x.heading.text, node)] [(x.heading.text, node')] where
  sections heading hheading := by
    have hne : heading.text ≠ x.heading.text := fun heq => hheading (Heading.text_injective heq)
    rw [List.lookup_cons, List.lookup_cons, beq_false_of_ne hne]
  keys := h

/-- A file with the entry of one setting alone gives this setting by its value. -/
theorem exists_isGivenBy (x : Setting) (written : List Char)
    (h : Toml.scanValue (Toml.nestingLimit - 1) (Toml.skipBlanks (written ++ ['\n'])) =
      some (node, ['\n'])) :
    ∃ document, x.IsGivenBy document node := by
  have hread := Toml.read?_entryText x.isBareName.1 x.isBareName.2 h
  refine ⟨⟨_, _, hread⟩, ?_, fun heading node hlookup => ?_, fun y hy value hvalue => ?_⟩
  · rw [written?_single, if_pos rfl]
  · rw [List.lookup_cons] at hlookup
    split at hlookup
    · exact Option.some.inj hlookup ▸ trivial
    · exact nomatch hlookup
  · rw [written?_single, if_neg hy] at hvalue
    exact nomatch hvalue

end Setting

/-- Every text may be given as the size in a settings file, and means there what it means as the
option of the size: both give the size that the text is read as, or refuse it for the same reason.
The same is true of lists of texts and the block sizes. Any of the texts in a file may be replaced
by the number that it is read as, which does not change what the file gives, and there is such a
text for every number; a negative number refuses the file. -/
theorem sizes_alike_in_files_and_options (base : Settings) :
    (∀ s : String,
      (∃ document, Setting.size.IsGivenBy document (.text s)) ∧
      (∀ document node, StandsFor node s → Setting.size.IsGivenBy document node →
        (Settings.ofText document.text).map Settings.size = (Size.parse s).mapError .size ∧
        ∀ other : Toml.Document, Setting.size.written? other.entries = some (.text s) →
          Setting.size.OthersSame other.entries document.entries →
          Settings.ofText other.text = Settings.ofText document.text) ∧
      Options.applyTo { Options.none with size := some s } base =
        ((Size.parse s).map fun size => { base with size := size }).mapError (⟨.size, ·⟩)) ∧
    (∀ texts : List String, texts ≠ [] →
      (∃ document, Setting.blockSizes.IsGivenBy document (.array (texts.map .text))) ∧
      (∀ document nodes, List.Forall₂ StandsFor nodes texts →
        Setting.blockSizes.IsGivenBy document (.array nodes) →
        (Settings.ofText document.text).map Settings.blockSizes =
          (texts.mapM Size.parse).mapError .size ∧
        ∀ other : Toml.Document,
          Setting.blockSizes.written? other.entries = some (.array (texts.map .text)) →
          Setting.blockSizes.OthersSame other.entries document.entries →
          Settings.ofText other.text = Settings.ofText document.text) ∧
      Options.applyTo { Options.none with blockSizes := texts } base =
        ((texts.mapM Size.parse).map fun sizes => { base with blockSizes := sizes }).mapError
          (⟨.blockSize, ·⟩)) ∧
    (∀ size : UInt64, ∃ s, StandsFor (.integer size.toNat) s) ∧
    ∀ (document : Toml.Document) (n : Int), n < 0 →
      Setting.size.written? document.entries = some (.integer n) ∨
        (∃ nodes, Setting.blockSizes.written? document.entries = some (.array nodes) ∧
          .integer n ∈ nodes) →
      ∃ fault, Settings.ofText document.text = .error fault := by
  refine ⟨fun s => ⟨?_, fun document node hnode hgiven => ?_, Options.applyTo_size s base⟩,
    fun texts htexts => ⟨?_, fun document nodes hnodes hgiven => ?_,
      Options.applyTo_blockSizes htexts base⟩, fun size => ⟨_, standsFor_format size⟩,
    fun document n hn => ?_⟩
  · have hquote := Toml.scanValue_quote (Toml.nestingLimit - 1) s (c := '\n') (by decide) []
    exact Setting.exists_isGivenBy .size (Toml.quote s) hquote
  · have hread := Settings.size?_of_standsFor hnode
    refine ⟨(Settings.map_get_ofText hgiven).trans hread, fun other hwritten hsame => ?_⟩
    exact Settings.ofText_congr hgiven hwritten hsame
      ((Settings.size?_of_standsFor (.text s)).trans hread.symm)
  · have hquote := Toml.scanValue_quoteList (Toml.nestingLimit - 2) texts ['\n']
    exact Setting.exists_isGivenBy .blockSizes (Toml.quoteList texts) hquote
  · have hread := Settings.sizes?_of_standsFor hnodes
    refine ⟨(Settings.map_get_ofText hgiven).trans hread, fun other hwritten hsame => ?_⟩
    have htexts : List.Forall₂ StandsFor (texts.map .text) texts :=
      List.forall₂_map_left_iff.mpr (List.forall₂_same.mpr fun s _ => StandsFor.text s)
    exact Settings.ofText_congr hgiven hwritten hsame
      ((Settings.sizes?_of_standsFor htexts).trans hread.symm)
  · rintro (hwritten | ⟨nodes, hwritten, hmem⟩)
    · refine Settings.exists_fault_of_written? hwritten fun size h => ?_
      change Settings.size? _ = _ at h
      rw [Settings.size?, Settings.sizeValue_of_neg hn] at h
      contradiction
    · exact Settings.exists_fault_of_written? hwritten (Settings.sizes?_ne_ok_of_neg hn hmem)

/-- A list with a text and a number gives what the texts of both sizes give, and a negative number
is refused. -/
theorem sizes_alike_in_files_and_options_mixture :
    let mixed : Toml.Document :=
      ⟨"[testset]\nsize = \"1M\"\nblock_sizes = [\"4K\", 8192]\n",
        [("testset", .table .header
          [("size", .text "1M"), ("block_sizes", .array [.text "4K", .integer 8192])])], rfl⟩
    let texts : Toml.Document :=
      ⟨"[testset]\nsize = \"1M\"\nblock_sizes = [\"4K\", \"8K\"]\n",
        [("testset", .table .header
          [("size", .text "1M"), ("block_sizes", .array [.text "4K", .text "8K"])])], rfl⟩
    (Settings.ofText mixed.text).map Settings.size = .ok 1048576 ∧
      (Settings.ofText mixed.text).map Settings.blockSizes = .ok [4096, 8192] ∧
      Settings.ofText texts.text = Settings.ofText mixed.text ∧
      ∃ fault, Settings.ofText "[testset]\nsize = -1\n" = .error fault := by
  intro mixed texts
  obtain ⟨hsize, hsizes, -, hnegative⟩ := sizes_alike_in_files_and_options Settings.standard
  have hfile : Settings.ofEntries mixed.entries =
      .ok { Settings.standard with size := 1048576, blockSizes := [4096, 8192] } := by
    decide +kernel
  have hfine (x : Setting) := Settings.othersFine_of_ofEntries mixed.distinct hfile x
  have hnumber : StandsFor (.integer 8192) "8K" := @StandsFor.number 8192 _ (by decide)
  have hsame : Setting.blockSizes.OthersSame texts.entries mixed.entries := by
    refine Setting.othersSame_of_section fun y hy => ?_
    cases y <;> first | rfl | contradiction
  obtain ⟨hblockSizes, halike⟩ := (hsizes ["4K", "8K"] (by decide)).2.1 mixed _
    (.cons (.text "4K") (.cons hnumber .nil)) ⟨rfl, hfine .blockSizes⟩
  refine ⟨?_, ?_, halike texts rfl hsame, ?_⟩
  · exact ((hsize "1M").2.1 mixed _ (.text "1M") ⟨rfl, hfine .size⟩).1
  · exact hblockSizes
  · exact hnegative ⟨_, [("testset", .table .header [("size", .integer (-1))])], rfl⟩ (-1)
      (by decide) (.inl rfl)

/-- A text may be given as the option of the page size, over any settings of a file, but a file with
a text for the page size is refused. A file with the number that a text is read as gives what the
option does over a file that is the same otherwise, such as the file without the key. -/
theorem page_size_text_only_in_options {rest : Settings}
    (hsame : Setting.pageSize.OthersSame document.entries other.entries)
    (hrest : Settings.ofText other.text = .ok rest) (s : String) :
    Options.applyTo { Options.none with pageSize := some s } rest =
      ((Size.parse s).map fun size =>
        { rest with geometry := { rest.geometry with pageSize := size } }).mapError
          (⟨.pageSize, ·⟩) ∧
    (Setting.pageSize.written? document.entries = some (.text s) →
      Settings.ofText document.text = .error .malformed) ∧
    ∀ n : UInt64, Setting.pageSize.written? document.entries = some (.integer n.toNat) →
      Settings.ofText document.text =
        .ok { rest with geometry := { rest.geometry with pageSize := n } } := by
  rw [Settings.ofText_document] at hrest ⊢
  have hfile {node : Toml.Node}
      (hwritten : Setting.pageSize.written? document.entries = some node) :=
    hsame.ofEntries_eq document.distinct other.distinct hrest hwritten
  refine ⟨Options.applyTo_pageSize s rest, fun hwritten => hfile hwritten, fun n hwritten => ?_⟩
  have hread : Setting.pageSize.read (.integer n.toNat) = .ok n := Settings.naturalValue_toNat n
  rw [hfile hwritten, hread]
  rfl

/-- Of two files that add a page size to a third, the one with a number gives what the option does
over the third, and the one with a text is refused. -/
theorem page_size_text_only_in_options_kibibytes :
    let plain : Toml.Document :=
      ⟨"[geometry]\nchannels = 8\n",
        [("geometry", .table .header [("channels", .integer 8)])], rfl⟩
    let texted : Toml.Document :=
      ⟨"[geometry]\npage_size = \"64K\"\nchannels = 8\n",
        [("geometry", .table .header [("page_size", .text "64K"), ("channels", .integer 8)])], rfl⟩
    let numbered : Toml.Document :=
      ⟨"[geometry]\npage_size = 65536\nchannels = 8\n",
        [("geometry", .table .header [("page_size", .integer 65536), ("channels", .integer 8)])],
        rfl⟩
    let file : Settings := { Settings.standard with geometry := ⟨32768, 8⟩ }
    Settings.ofText plain.text = .ok file ∧
      Options.applyTo { Options.none with pageSize := some "64K" } file =
        .ok { file with geometry := ⟨65536, 8⟩ } ∧
      Settings.ofText texted.text = .error .malformed ∧
      Settings.ofText numbered.text = .ok { file with geometry := ⟨65536, 8⟩ } := by
  intro plain texted numbered file
  have hfile : Settings.ofText plain.text = .ok file := by decide +kernel
  have hsame (node : Toml.Node) : Setting.pageSize.OthersSame
      [("geometry", .table .header [("page_size", node), ("channels", .integer 8)])]
      plain.entries := by
    refine Setting.othersSame_of_section fun y hy => ?_
    cases y <;> first | rfl | contradiction
  obtain ⟨hoption, hrefused, -⟩ :=
    @page_size_text_only_in_options texted plain file (hsame _) hfile "64K"
  obtain ⟨-, -, hnumber⟩ :=
    @page_size_text_only_in_options numbered plain file (hsame _) hfile "64K"
  have hparse : Size.parse "64K" = .ok 65536 := by decide
  rw [hparse] at hoption
  exact ⟨hfile, hoption, hrefused rfl, hnumber 65536 rfl⟩

/-- Not every file with the text of a size for its page size gives what the option of this text does
over the file without it. -/
theorem file_with_page_size_text_refused :
    ¬∀ (document plain : Toml.Document) (s : String) (n : UInt64) (file : Settings),
      Size.parse s = .ok n → Setting.pageSize.written? document.entries = some (.text s) →
      Setting.pageSize.written? plain.entries = none →
      Setting.pageSize.OthersSame document.entries plain.entries →
      Settings.ofText plain.text = .ok file →
      ∃ merged, Options.applyTo { Options.none with pageSize := some s } file = .ok merged ∧
        Settings.ofText document.text = .ok merged := by
  intro h
  have hsame : Setting.pageSize.OthersSame
      [("geometry", .table .header [("page_size", .text "64K")])]
      [("geometry", .table .header [])] := by
    refine Setting.othersSame_of_section fun y hy => ?_
    cases y <;> first | rfl | contradiction
  obtain ⟨merged, -, hmerged⟩ := h ⟨"[geometry]\npage_size = \"64K\"\n", _, rfl⟩
    ⟨"[geometry]\n", _, rfl⟩ "64K" 65536 Settings.standard (by decide) rfl rfl hsame
    (by decide +kernel)
  have hrefused : Settings.ofText "[geometry]\npage_size = \"64K\"\n" = .error .malformed := by
    decide +kernel
  rw [hrefused] at hmerged
  contradiction

end AccessPattern
