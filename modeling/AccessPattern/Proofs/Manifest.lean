import AccessPattern.Manifest
import AccessPattern.Proofs.Json.RoundTrip
import AccessPattern.Proofs.Timestamp.Validity

/-!
# Manifests read back

The file of a manifest reads as the same manifest. Each field comes back from its value, and each
member of the written object is found under its name, where it stands once.
-/

namespace AccessPattern.Manifest

/-- A written text is read back. -/
@[simp] theorem text?_text (text : String) : text? (.text text) = some text :=
  rfl

/-- A written number is read back. -/
@[simp] theorem word?_wordValue (n : UInt64) : word? (wordValue n) = some n := by
  have hlt : n.toNat < UInt64.size := n.toNat_lt
  rw [wordValue, word?, if_pos hlt, UInt64.ofNat_toNat]

/-- Written numbers are read back. -/
@[simp] theorem words?_map_wordValue (values : List UInt64) :
    words? (.array (values.map wordValue)) = some values := by
  rw [words?]
  induction values with
  | nil => rfl
  | cons n values ih => simp [ih]

/-- A written number is read back where there may be none. -/
@[simp] theorem optionalWord?_wordValue (n : UInt64) :
    optionalWord? (wordValue n) = some (some n) := by
  have hword : word? (.natural n.toNat) = some n := word?_wordValue n
  rw [wordValue, optionalWord?, hword]
  · rfl
  · simp

/-- A strategy is found under its name. -/
@[simp] theorem strategyNamed?_name (strategy : Strategy) :
    strategyNamed? strategy.name = some strategy := by
  have hall : ∀ strategy ∈ Strategy.all, strategyNamed? strategy.name = some strategy := by
    decide +kernel
  exact hall strategy strategy.mem_all

/-- The values of a manifest's fields give the manifest. -/
theorem ofFields?_values {m : Manifest} (h : m.generatedAt.IsValid) {seed : Json}
    (hseed : optionalWord? seed = some m.seed) :
    ofFields? (.text m.generatedAt.render) (.text m.strategy.name) (wordValue m.extent)
      (wordValue m.blockSize) (wordValue m.pageSize) (wordValue m.channels) seed
      (wordValue m.blockCount) (.array (m.channelBlocks.map wordValue)) (.text m.testset) =
      some m := by
  have htime : timestamp? (.text m.generatedAt.render) = some m.generatedAt := by
    simp [timestamp?, Timestamp.parse?_render h]
  have hstrategy : strategy? (.text m.strategy.name) = some m.strategy :=
    strategyNamed?_name m.strategy
  simp [ofFields?, htime, hstrategy, hseed]

/-- The object of a manifest gives the manifest. -/
theorem ofJson?_toJson {m : Manifest} (h : m.generatedAt.IsValid) : ofJson? m.toJson = some m := by
  cases hseed : m.seed with
  | none =>
    have hnull : optionalWord? .null = some m.seed := by
      rw [hseed]
      rfl
    have hfields := ofFields?_values h hnull
    simpa [toJson, ofJson?, hseed, seedMember, Json.valuesOf, single?, atMostOne?] using hfields
  | some n =>
    have hword : optionalWord? (wordValue n) = some m.seed := by
      rw [hseed]
      exact optionalWord?_wordValue n
    have hfields := ofFields?_values h hword
    simpa [toJson, ofJson?, hseed, seedMember, Json.valuesOf, single?, atMostOne?] using hfields

/-- Written numbers hold no missing text. -/
@[simp] theorem itemsWithTexts_map_wordValue (values : List UInt64) :
    Json.itemsWithTexts (values.map wordValue) = values.map wordValue := by
  induction values with
  | nil => rfl
  | cons n values ih =>
    rw [List.map_cons, Json.itemsWithTexts, ih]
    rfl

/-- The object of a manifest holds no missing text. -/
@[simp] theorem withTexts_toJson (m : Manifest) : m.toJson.withTexts = m.toJson := by
  cases hseed : m.seed with
  | none =>
    simp [toJson, hseed, seedMember, Json.withTexts, Json.membersWithTexts, wordValue, Json.text]
  | some n =>
    simp [toJson, hseed, seedMember, Json.withTexts, Json.membersWithTexts, wordValue, Json.text]

/-- A text of white space after a written manifest does not matter. -/
theorem parse?_append {m : Manifest} (h : m.generatedAt.IsValid) {text : String}
    (hdelimited : Json.Delimited text.toList) (hblank : Json.Scans text.toList []) :
    parse? (m.render ++ text) = some m := by
  have hread : Json.read? (m.render ++ text).toList = some m.toJson := by
    simp [render, Json.render, Json.read?_write m.toJson 0 hdelimited hblank]
  rw [parse?, hread]
  exact ofJson?_toJson h

/-- A written manifest reads as the manifest. -/
theorem parse?_render {m : Manifest} (h : m.generatedAt.IsValid) : parse? m.render = some m := by
  have hdelimited : Json.Delimited "".toList := by
    simp [Json.Delimited]
  have hread := parse?_append h hdelimited Json.Scans.nil
  rwa [String.append_empty] at hread

/-- The text of a manifest file reads as the manifest. -/
theorem parse?_fileText {m : Manifest} (h : m.generatedAt.IsValid) :
    parse? m.fileText = some m := by
  have hdelimited : Json.Delimited "\n".toList := by
    simp [Json.Delimited]
  exact parse?_append h hdelimited (Json.Scans.nil.blank rfl)

/-- The file of a manifest gives the manifest. -/
theorem ofFile_fileText {m : Manifest} (h : m.generatedAt.IsValid) (path : String) :
    ofFile path (.ok (Bytes.ofText m.fileText)) = .ok m := by
  simp [ofFile, parse?_fileText h]

/-- The time of a manifest that is read from its field values exists. -/
theorem isValid_of_ofFields? {generatedAt strategy extent blockSize pageSize channels seed blockCount
    channelBlocks testset : Json} {m : Manifest}
    (h : ofFields? generatedAt strategy extent blockSize pageSize channels seed blockCount
      channelBlocks testset = some m) : m.generatedAt.IsValid := by
  simp only [ofFields?, Option.bind_eq_bind, Option.bind_eq_some_iff] at h
  obtain ⟨time, htime, _, -, _, -, _, -, _, -, _, -, _, -, _, -, _, -, _, -, hm⟩ := h
  obtain rfl := Option.some.inj hm
  simp only [timestamp?, Option.bind_eq_bind, Option.bind_eq_some_iff] at htime
  obtain ⟨text, -, hparse⟩ := htime
  exact Timestamp.isValid_of_parse? hparse

/-- The time of a manifest that is read exists. -/
theorem isValid_of_parse? {text : String} {m : Manifest} (h : parse? text = some m) :
    m.generatedAt.IsValid := by
  simp only [parse?, Option.bind_eq_bind, Option.bind_eq_some_iff] at h
  obtain ⟨value, -, hvalue⟩ := h
  unfold ofJson? at hvalue
  split at hvalue
  · split at hvalue
    · contradiction
    · simp only [Option.bind_eq_bind, Option.bind_eq_some_iff] at hvalue
      obtain ⟨_, -, _, -, _, -, _, -, _, -, _, -, _, -, _, -, _, -, _, -, hfields⟩ := hvalue
      exact isValid_of_ofFields? hfields
  · exact isValid_of_ofFields? hvalue
  · contradiction

/-- Manifests survive being written and read. Every manifest that some text describes, and every
manifest that describes offsets at a time that exists, is read back from its text, with or without
the final newline of its file, and from the bytes of that file. -/
theorem rendered_manifest_reads_back {m : Manifest}
    (h : (∃ text, parse? text = some m) ∨
      ∃ plan seed offsets testset time, Timestamp.IsValid time ∧
        m = describe plan seed offsets testset time) :
    parse? m.render = some m ∧ parse? m.fileText = some m ∧
      ∀ path, ofFile path (.ok (Bytes.ofText m.fileText)) = .ok m := by
  have hvalid : m.generatedAt.IsValid := by
    rcases h with ⟨text, hparse⟩ | ⟨plan, seed, offsets, testset, time, htime, rfl⟩
    · exact isValid_of_parse? hparse
    · exact htime
  exact ⟨parse?_render hvalid, parse?_fileText hvalid, ofFile_fileText hvalid⟩

/-- A manifest with a leap second, the greatest numbers and a path full of escapes, described by a text
that spells all of them differently. -/
theorem rendered_manifest_reads_back_respelled :
    let text := r#"["2017-1-01 00:59:60.25+01:00", "random", 18446744073709551615, 1, 7, 3,
      18446744073709551615, 0, [0, 18446744073709551615], "a\u0001\"\/\\\ud83d\uDE00"]"#
    let m : Manifest := ⟨⟨⟨2016, 12, 31⟩, 23, 59, 60, 250000000⟩, .random, 18446744073709551615, 1, 7,
      3, some 18446744073709551615, 0, [0, 18446744073709551615], "a\x01\"/\\😀"⟩
    parse? text = some m ∧ parse? m.render = some m ∧ parse? m.fileText = some m := by
  intro text m
  have hparse : parse? text = some m := by decide +kernel
  obtain ⟨hrender, hfile, -⟩ := rendered_manifest_reads_back (.inl ⟨text, hparse⟩)
  exact ⟨hparse, hrender, hfile⟩

end AccessPattern.Manifest
