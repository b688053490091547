import AccessPattern.Proofs.Settings.Sources

/-!
# Which source a setting follows

An option takes the place of what a settings file says, and that of the standard value; the seed may
come from the environment in between. Each setting follows its own sources, whatever those of the
others are. Only sizes can go wrong, and only those that options give, so that a file which could be
read does not matter to it.
-/

namespace AccessPattern

namespace Setting

/-- The value of a setting that the environment gives: only the seed has one. -/
def environment? : (x : Setting) → Option String → Option x.Value
  | .seed, some text => (Text.word64? text.toList).map some
  | _, _ => none

/-- A value of a setting follows its sources: it is that of the option, or else that of the
environment, or else what the settings file says, or else the standard value. -/
def Follows (x : Setting) (o : Options) (environmentSeed : Option String) (entries : Toml.Entries)
    (value : x.Value) : Prop :=
  match x.given? o, x.environment? environmentSeed, x.written? entries with
  | some given, _, _ => given = .ok value
  | none, some found, _ => value = found
  | none, none, some written => x.read written = .ok value
  | none, none, none => value = x.get Settings.standard

/-- A value is the one that is given, or else the one in force. -/
def Overrides {α : Type} (given : Option (Except OverrideError α)) (inForce value : α) : Prop :=
  match given with
  | some given => given = .ok value
  | none => value = inForce

/-- Overriding again with the same value changes nothing. -/
theorem Overrides.again {α : Type} {given : Option (Except OverrideError α)}
    {inForce value later : α} (h : Overrides given inForce value)
    (hlater : Overrides given value later) : later = value := by
  cases given with
  | none => exact hlater
  | some given => exact Except.ok.inj (hlater.symm.trans h)

/-- A switch that overrides another is on if one of them is. -/
theorem Overrides.on_iff {on inForce value : Bool}
    (h : Overrides (if on then some (.ok true) else none) inForce value) :
    value ↔ on ∨ inForce := by
  cases on with
  | true => simp [← Except.ok.inj h]
  | false => simp [show value = inForce from h]

/-- A settings file turns something on. -/
def IsTurnedOn (x : Setting) (entries : Toml.Entries) : Prop :=
  ∃ written, x.written? entries = some written ∧ Settings.booleanValue written = .ok true

end Setting

variable {o given : Options} {base merged : Settings} {environmentSeed : Option String}

namespace Options

/-- A size over another is that of the option if it was given. -/
theorem overrides_sizeOver {option : SizeOption} {text : Option String} {inForce size : UInt64}
    (h : sizeOver option text inForce = .ok size) :
    Setting.Overrides (text.map (readSize option)) inForce size := by
  cases text with
  | none => exact (Except.ok.inj h).symm
  | some text => exact h

/-- Block sizes over others are those of the option if it was given. -/
theorem overrides_blockSizesOver {texts : List String} {inForce blockSizes : List UInt64}
    (h : blockSizesOver texts inForce = .ok blockSizes) :
    Setting.Overrides (if texts = [] then .none else some (texts.mapM (readSize .blockSize)))
      inForce blockSizes := by
  rw [blockSizesOver] at h
  split at h
  · next hnone =>
    rw [if_pos hnone]
    exact (Except.ok.inj h).symm
  · next hsome =>
    rw [if_neg hsome]
    exact h

/-- A value over another is the one that was given. -/
theorem overrides_getD {α : Type} (value : Option α) (inForce : α) :
    Setting.Overrides (value.map .ok) inForce (value.getD inForce) := by
  cases value with
  | none => rfl
  | some value => rfl

/-- A switch over another can only turn it on. -/
theorem overrides_or (on inForce : Bool) :
    Setting.Overrides (if on then some (.ok true) else .none) inForce (on || inForce) := by
  cases on with
  | true => rfl
  | false => rfl

/-- A setting has the value that its option gives, or else the one that it had. -/
theorem overrides_applyTo (h : o.applyTo base = .ok merged) (x : Setting) :
    Setting.Overrides (x.given? o) (x.get base) (x.get merged) := by
  obtain ⟨size, hsize, hsizes⟩ := bind_eq_ok_iff.mp h
  obtain ⟨blockSizes, hblockSizes, hpages⟩ := bind_eq_ok_iff.mp hsizes
  obtain ⟨pageSize, hpageSize, hmerged⟩ := bind_eq_ok_iff.mp hpages
  rw [← Except.ok.inj hmerged]
  cases x with
  | size => exact overrides_sizeOver hsize
  | blockSizes => exact overrides_blockSizesOver hblockSizes
  | pageSize => exact overrides_sizeOver hpageSize
  | pattern => exact overrides_getD o.pattern base.pattern
  | channels => exact overrides_getD o.channels base.geometry.channels
  | output => exact overrides_getD o.output base.output
  | manifest => exact overrides_or o.manifest base.manifest
  | verify => exact overrides_or o.verify base.verify
  | dryRun => exact overrides_or o.dryRun base.dryRun
  | seed =>
    change Setting.Overrides (o.seed.map _) base.seed (o.seed.or base.seed)
    cases o.seed with
    | none => rfl
    | some seed => rfl

/-- The texts of the sizes that options give, in the order in which they are read. -/
def sizeTexts (o : Options) : List (SizeOption × String) :=
  o.size.toList.map (SizeOption.size, ·) ++ (o.blockSizes.map (SizeOption.blockSize, ·) ++
    o.pageSize.toList.map (SizeOption.pageSize, ·))

/-- The error of the first of these texts that is no size. -/
def firstRejected? (o : Options) : Option OverrideError :=
  o.sizeTexts.findSome? fun (option, text) => (failure? (Size.parse text)).map (⟨option, ·⟩)

/-- A size over another is refused if the option was given and is no size. -/
theorem failure?_sizeOver (option : SizeOption) (text : Option String) (inForce : UInt64) :
    failure? (sizeOver option text inForce) =
      text.toList.findSome? fun text => (failure? (Size.parse text)).map (⟨option, ·⟩) := by
  cases text with
  | none => simp [sizeOver]
  | some text => simp [sizeOver, readSize]

/-- Block sizes over others are refused for the first of them that is no size. -/
theorem failure?_blockSizesOver (texts : List String) (inForce : List UInt64) :
    failure? (blockSizesOver texts inForce) =
      texts.findSome? fun text => (failure? (Size.parse text)).map (⟨.blockSize, ·⟩) := by
  rw [blockSizesOver]
  split
  · next hnone => rw [hnone]; rfl
  · simp [readSize]

/-- Options are refused for the first of their texts that is no size, whatever they are put over. -/
theorem failure?_applyTo (o : Options) (base : Settings) :
    failure? (o.applyTo base) = o.firstRejected? := by
  rw [firstRejected?, sizeTexts, List.findSome?_append, List.findSome?_append, List.findSome?_map,
    List.findSome?_map, List.findSome?_map]
  refine (failure?_bind fun size => ?_).trans
    (congrArg₂ Option.or (failure?_sizeOver .size o.size base.size) rfl)
  refine (failure?_bind fun blockSizes => ?_).trans
    (congrArg₂ Option.or (failure?_blockSizesOver o.blockSizes base.blockSizes) rfl)
  refine (failure?_bind fun pageSize => ?_).trans
    ((Option.or_none).trans (failure?_sizeOver .pageSize o.pageSize base.geometry.pageSize))
  rfl

/-- Putting the same options over the settings that they gave changes nothing. -/
theorem applyTo_again (h : o.applyTo base = .ok merged) : o.applyTo merged = .ok merged := by
  have haccepted : failure? (o.applyTo merged) = .none := by
    rw [failure?_applyTo, ← failure?_applyTo o base, h]
    rfl
  obtain ⟨again, hagain⟩ := failure?_eq_none_iff.mp haccepted
  have hsame : again = merged := Setting.ext fun x =>
    (overrides_applyTo h x).again (overrides_applyTo hagain x)
  rw [hagain, hsame]

end Options

/-- The environment only takes the place of a seed that is missing. -/
theorem Command.addSeed_ok (h : addSeed o environmentSeed = .ok given) :
    given = { o with
      seed := o.seed.or (environmentSeed.bind fun text => Text.word64? text.toList) } := by
  cases environmentSeed with
  | none =>
    rw [Option.bind_none, Option.or_none]
    exact (Except.ok.inj h).symm
  | some text =>
    rw [Option.bind_some]
    rw [addSeed] at h
    split at h
    · next hseed =>
      rw [Option.or_of_isSome hseed]
      exact (Except.ok.inj h).symm
    · next hseed =>
      obtain ⟨seed, hnumber, hpure⟩ := bind_eq_ok_iff.mp h
      rw [number] at hnumber
      split at hnumber
      · next n htext =>
        rw [htext, Option.not_isSome_iff_eq_none.mp hseed, Option.none_or,
          ← Except.ok.inj hpure, Except.ok.inj hnumber]
      · contradiction

/-- The environment is looked at after the words. -/
theorem Command.options_of_addSeed {words : List String} (hwords : options words none = .ok o)
    (hgiven : addSeed o environmentSeed = .ok given) :
    options words environmentSeed = .ok given := by
  obtain ⟨progress, hprogress, hend⟩ := bind_eq_ok_iff.mp hwords
  refine bind_eq_ok_iff.mpr ⟨progress, hprogress, ?_⟩
  split at hend
  · contradiction
  · obtain rfl := Except.ok.inj hend
    exact hgiven

/-- The environment gives a setting what no option gives. -/
theorem Setting.given?_addSeed (x : Setting) (h : Command.addSeed o environmentSeed = .ok given) :
    x.given? given = (x.given? o).or ((x.environment? environmentSeed).map .ok) := by
  rw [Command.addSeed_ok h]
  cases x with
  | seed =>
    rw [given?, given?, environment?.eq_def]
    cases o.seed with
    | none =>
      cases environmentSeed with
      | none => rfl
      | some text => simp [Function.comp_def]
    | some seed => rfl
  | _ => exact (Option.or_none).symm

/-- A setting follows its sources when options with the seed of the environment are put over what the
settings file says. -/
theorem Setting.follows_of_overrides {x : Setting} {entries : Toml.Entries}
    {inForce value : x.Value}
    (hgiven : Command.addSeed o environmentSeed = .ok given)
    (hvalue : Overrides (x.given? given) inForce value)
    (hwritten : match x.written? entries with
      | some written => x.read written = .ok inForce
      | none => inForce = x.get Settings.standard) :
    x.Follows o environmentSeed entries value := by
  rw [given?_addSeed x hgiven] at hvalue
  rw [Follows]
  cases hoption : x.given? o with
  | some given =>
    rw [hoption] at hvalue
    exact hvalue
  | none =>
    rw [hoption] at hvalue
    cases hfound : x.environment? environmentSeed with
    | some found =>
      rw [hfound] at hvalue
      exact (Except.ok.inj hvalue).symm
    | none =>
      rw [hfound] at hvalue
      rw [show value = inForce from hvalue]
      cases hentry : x.written? entries with
      | some written =>
        rw [hentry] at hwritten
        exact hwritten
      | none =>
        rw [hentry] at hwritten
        exact hwritten

/-- A setting that is off in the standard settings is on when the settings file turns it on. -/
theorem Setting.isTurnedOn_iff {x : Setting} {entries : Toml.Entries} {value : Bool}
    (h : match x.written? entries with
      | some written => Settings.booleanValue written = .ok value
      | none => value = false) : value ↔ x.IsTurnedOn entries := by
  rw [IsTurnedOn]
  cases hwritten : x.written? entries with
  | none =>
    rw [hwritten] at h
    simp [show value = false from h]
  | some written =>
    rw [hwritten] at h
    simp [show Settings.booleanValue written = .ok value from h]

/-- Options are put over what a settings file says setting by setting. Each setting of the outcome
follows its own sources, and the switches are on if the options or the file turn them on. There is no
outcome if and only if a text of the options that stands for a size is none; the first such text is
then reported, whatever the file says. Putting the same options over the outcome changes nothing. -/
theorem settings_follow_sources {text : String} {file : Settings}
    (hgiven : Command.addSeed o environmentSeed = .ok given)
    (hfile : Settings.ofText text = .ok file) :
    (∀ words, Command.options words none = .ok o →
      Command.options words environmentSeed = .ok given) ∧
    ∃ entries, Toml.read? text = some entries ∧
      (∀ merged, given.applyTo file = .ok merged →
        (∀ x : Setting, x.Follows o environmentSeed entries (x.get merged)) ∧
        (merged.manifest ↔ o.manifest ∨ Setting.manifest.IsTurnedOn entries) ∧
        (merged.verify ↔ o.verify ∨ Setting.verify.IsTurnedOn entries) ∧
        (merged.dryRun ↔ o.dryRun ∨ Setting.dryRun.IsTurnedOn entries) ∧
        given.applyTo merged = .ok merged) ∧
      ∀ error, given.applyTo file = .error error ↔ o.firstRejected? = some error := by
  refine ⟨fun words hwords => ?_, ?_⟩
  · exact Command.options_of_addSeed hwords hgiven
  rw [Settings.ofText] at hfile
  split at hfile
  · next entries hentries =>
    have hwritten := Settings.get_of_ofEntries (Toml.distinct_of_read? hentries) hfile
    have hoptions := Command.addSeed_ok hgiven
    refine ⟨entries, hentries, fun merged hmerged => ?_, fun error => ?_⟩
    · have hover := Options.overrides_applyTo hmerged
      refine ⟨fun x => Setting.follows_of_overrides hgiven (hover x) (hwritten x), ?_, ?_, ?_,
        Options.applyTo_again hmerged⟩
      · exact (hover .manifest).on_iff.trans
          (or_congr (by rw [hoptions]) (Setting.isTurnedOn_iff (hwritten .manifest)))
      · exact (hover .verify).on_iff.trans
          (or_congr (by rw [hoptions]) (Setting.isTurnedOn_iff (hwritten .verify)))
      · exact (hover .dryRun).on_iff.trans
          (or_congr (by rw [hoptions]) (Setting.isTurnedOn_iff (hwritten .dryRun)))
    · rw [← failure?_eq_some_iff, Options.failure?_applyTo, hoptions]
      rfl
  · contradiction

/-- The seed of the environment goes before that of a settings file, and the rest of the file counts
as before. -/
theorem settings_follow_sources_seed_of_environment :
    let o : Options := { Options.none with size := some "64K", manifest := true }
    let given : Options := { o with seed := some 7 }
    let text := "[testset]\nseed = 1\npattern = \"random\"\n\n[output]\nverify = true\n"
    let file : Settings :=
      ⟨4294967296, [4096], "random", some 1, Geometry.standard, "testset.txt", false, true, false⟩
    let merged : Settings := { file with size := 65536, seed := some 7, manifest := true }
    Command.options ["--size", "64K", "--manifest"] (some "7") = .ok given ∧
      Settings.ofText text = .ok file ∧ given.applyTo file = .ok merged ∧
      given.applyTo merged = .ok merged ∧ ∃ entries, Toml.read? text = some entries ∧
        ∀ x : Setting, x.Follows o (some "7") entries (x.get merged) := by
  intro o given text file merged
  have hgiven : Command.addSeed o (some "7") = .ok given := by decide +kernel
  have hfile : Settings.ofText text = .ok file := by decide +kernel
  have hmerged : given.applyTo file = .ok merged := by decide +kernel
  obtain ⟨hwords, entries, hentries, hmerge, -⟩ := settings_follow_sources hgiven hfile
  obtain ⟨hfollows, -, -, -, hagain⟩ := hmerge merged hmerged
  exact ⟨hwords _ (by decide +kernel), hfile, hmerged, hagain, entries, hentries, hfollows⟩

end AccessPattern
