import AccessPattern.Proofs.Run.Course

/-!
# Refused early or late

Before any file is read, options are refused for what is wrong with them by themselves: no channels,
a blank block size, an empty output path. This only tells sooner what would be found anyway, by
other means. A blank text is no size, so options with one cannot be put over any settings. Without
channels no block size has a plan, and there has to be a block size. And an empty path is no path
for an output file. So whatever is accepted after the early check would be accepted without it.
-/

namespace AccessPattern

variable {o : Options} {base merged s : Settings} {isDirectory : Bool} {plans : List BlockPlan}

/-- A text of white space is no size. -/
theorem Size.parse_of_isBlankText {text : String} (h : Options.isBlankText text = true) :
    Size.parse text = .error (.notANumber text) := by
  rw [Size.parse, List.isEmpty_iff.mp h]
  rfl

namespace Options

/-- Options that can be put over settings have no blank block size. -/
theorem not_any_isBlankText_of_applyTo (hmerged : o.applyTo base = .ok merged) :
    ¬o.blockSizes.any isBlankText := by
  intro hany
  obtain ⟨text, hmem, hblank⟩ := List.any_eq_true.mp hany
  have hread : o.firstRejected? = .none := by
    rw [← failure?_applyTo o base, hmerged]
    rfl
  have htext : (SizeOption.blockSize, text) ∈ o.sizeTexts :=
    List.mem_append_right _ (List.mem_append_left _ (List.mem_map_of_mem hmem))
  have hsize := List.findSome?_eq_none_iff.mp hread _ htext
  simp [Size.parse_of_isBlankText hblank, failure?] at hsize

/-- So they are not refused for one. -/
theorem fault?_ne_blank_of_applyTo (hmerged : o.applyTo base = .ok merged) :
    o.fault? ≠ some .blankBlockSize := by
  rw [fault?, if_neg (not_any_isBlankText_of_applyTo hmerged)]
  split
  · simp
  · split
    · simp
    · simp

end Options

namespace Settings

/-- Valid settings have channels, since each block size has a plan and there is a block size. -/
theorem channels_ne_zero_of_validate (h : s.validate isDirectory = .ok plans) :
    s.geometry.channels ≠ 0 := by
  obtain ⟨⟨hnonempty, -⟩, -, hplans⟩ := validate_eq_ok_iff.mp h
  obtain ⟨strategy, hstrategy, -⟩ := plans_eq_ok_iff.mp hplans
  cases plans with
  | nil => exact absurd (map_blockSize_of_plans hplans).symm hnonempty
  | cons plan later =>
    have hrequest := toPlanRequest_of_mem_plans hstrategy hplans List.mem_cons_self
    have hgeometry : plan.geometry = s.geometry := congrArg PlanRequest.geometry hrequest
    rw [← hgeometry]
    exact plan.channels_ne_zero

end Settings

/-- Options that give valid settings have no fault of their own. -/
theorem Options.fault?_eq_none_of_validate (hmerged : o.applyTo base = .ok merged)
    (hvalid : merged.validate isDirectory = .ok plans) : o.fault? = .none := by
  have hchannels : o.channels ≠ some 0 := by
    intro hzero
    have hgiven := overrides_applyTo hmerged .channels
    rw [Setting.given?, hzero] at hgiven
    exact Settings.channels_ne_zero_of_validate hvalid (Except.ok.inj hgiven).symm
  have houtput : o.output ≠ some "" := by
    intro hempty
    have hgiven := overrides_applyTo hmerged .output
    rw [Setting.given?, hempty] at hgiven
    exact (Settings.validate_eq_ok_iff.mp hvalid).2.1.1 (Except.ok.inj hgiven).symm
  rw [fault?, if_neg hchannels, if_neg (not_any_isBlankText_of_applyTo hmerged), if_neg houtput]

/-- The early check refuses nothing that would be accepted later. Options that it refuses cannot be
put over settings, whatever these are, or the settings that this gives are not valid, whichever
paths are those of directories; with a blank block size it is always the former. So the preparations
of a run come to the same settings and plans as they would without the early check. -/
theorem early_check_refuses_nothing_valid (o : Options) :
    (∀ fault, o.fault? = some fault → ∀ (base : Settings) (isDirectory : String → Bool),
      (∃ error, o.applyTo base = .error error) ∨
      fault ≠ .blankBlockSize ∧ ∃ merged, o.applyTo base = .ok merged ∧
        ∃ later, merged.validate (isDirectory merged.output) = .error later) ∧
    ∀ (given : Surroundings) (fs : FileSystem) (s : Settings) (plans : List BlockPlan),
      ((Run.prepare given.host o).run.run fs).1 = .ok (s, plans) ↔
        ((Run.loadSettings given.host o).run.run fs).1 = .ok s ∧
          s.validate (fs.isDirectory s.output) = .ok plans := by
  constructor
  · intro fault hfault base isDirectory
    cases hmerged : o.applyTo base with
    | error error => exact .inl ⟨error, rfl⟩
    | ok merged =>
      refine .inr ⟨fun hblank => ?_, merged, rfl, ?_⟩
      · exact Options.fault?_ne_blank_of_applyTo hmerged (hblank ▸ hfault)
      · cases hvalid : merged.validate (isDirectory merged.output) with
        | error later => exact ⟨later, rfl⟩
        | ok plans =>
          rw [Options.fault?_eq_none_of_validate hmerged hvalid] at hfault
          contradiction
  · intro given fs s plans
    rw [Run.prepare_eq_ok_iff]
    refine ⟨And.right, fun h => ⟨?_, h⟩⟩
    obtain ⟨hload, hvalid⟩ := h
    rw [Run.loadSettings_run] at hload
    obtain ⟨base, -, hmerged⟩ := bind_eq_ok_iff.mp hload
    exact Options.fault?_eq_none_of_validate (mapError_eq_ok_iff.mp hmerged) hvalid

/-- A blank block size cannot be put over the standard settings, though the empty output path beside
it could. Options without channels can, but the settings that this gives are not valid. -/
theorem early_check_refuses_nothing_valid_two_faults :
    (∃ error, Options.applyTo { Options.none with blockSizes := ["4K", " \t"], output := some "" }
      Settings.standard = .error error) ∧
    ∃ merged, Options.applyTo { Options.none with channels := some 0, output := some "" }
      Settings.standard = .ok merged ∧
        ∃ later, merged.validate (FileSystem.scratch.isDirectory merged.output) = .error later := by
  obtain ⟨hblank, -⟩ := early_check_refuses_nothing_valid
    { Options.none with blockSizes := ["4K", " \t"], output := some "" }
  obtain ⟨hchannels, -⟩ := early_check_refuses_nothing_valid
    { Options.none with channels := some 0, output := some "" }
  have hsizes := hblank .blankBlockSize (by decide) Settings.standard FileSystem.scratch.isDirectory
  have hsettings := hchannels .noChannels (by decide) Settings.standard
    FileSystem.scratch.isDirectory
  constructor
  · exact hsizes.resolve_right fun h => h.1 rfl
  · exact (hsettings.resolve_left fun ⟨_, h⟩ => nomatch h).2

end AccessPattern
