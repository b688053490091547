import AccessPattern.Proofs.Files.Neighbours
import AccessPattern.Proofs.Size
import AccessPattern.Settings.Basic

/-!
# Output paths of a run

All testsets and manifests of a run go to one directory, under different last names: labels differ
because sizes are rendered differently, and no testset is named like a manifest because no label
has a dot. So whatever can be written at these paths goes to different locations.
-/

namespace AccessPattern

namespace Size

/-- A rendered size has no slash. -/
theorem slash_notMem_format (size : UInt64) : '/' ∉ (format size).toList := by
  intro hmem
  rcases mem_format hmem with hdigit | ⟨unit, hunit⟩
  · exact absurd hdigit (by decide)
  · cases unit <;> exact absurd hunit (by decide)

/-- A rendered size has no dot. -/
theorem dot_notMem_format (size : UInt64) : '.' ∉ (format size).toList := by
  intro hmem
  rcases mem_format hmem with hdigit | ⟨unit, hunit⟩
  · exact absurd hdigit (by decide)
  · cases unit <;> exact absurd hunit (by decide)

end Size

namespace Settings

variable {s : Settings}

/-- The testsets of all block sizes have last names in one directory; they are different, none is
that of a manifest, and none leads upwards if there are several. -/
structure LastNames (s : Settings) (directory : List Char) (name : UInt64 → List Char) :
    Prop where
  endsIn : ∀ b ∈ s.blockSizes, Path.EndsIn (s.testsetPath b) directory (name b)
  injective : ∀ b ∈ s.blockSizes, ∀ c ∈ s.blockSizes, name b = name c → b = c
  ne_manifest : ∀ b ∈ s.blockSizes, ∀ c ∈ s.blockSizes, name b ≠ name c ++ ".json".toList
  ne_parent : ∀ b ∈ s.blockSizes, ∀ c ∈ s.blockSizes, b ≠ c → name b ≠ ['.', '.']

/-- A single testset has the last name of the output path. -/
theorem lastNames_single {directory name : List Char} (hlength : s.blockSizes.length ≤ 1)
    (h : Path.EndsIn s.output directory name) : LastNames s directory fun _ => name := by
  have hsame : ∀ b ∈ s.blockSizes, ∀ c ∈ s.blockSizes, b = c := by
    cases hsizes : s.blockSizes with
    | nil => simp
    | cons first later =>
      rw [hsizes, List.length_cons] at hlength
      obtain rfl := List.length_eq_zero_iff.mp (Nat.le_zero.mp (Nat.le_of_succ_le_succ hlength))
      simp
  refine ⟨fun b _ => ?_, fun b hb c hc _ => hsame b hb c hc, fun _ _ _ _ heq => ?_, ?_⟩
  · rwa [testsetPath, if_pos hlength]
  · have := congrArg List.length heq
    simp at this
  · exact fun b hb c hc hne => absurd (hsame b hb c hc) hne

/-- Several testsets have the last name of the output path with labels in it. -/
theorem lastNames_several {directory before after : List Char}
    (hlength : ¬s.blockSizes.length ≤ 1)
    (h : Path.LabelPlace s.output.toList directory before after) :
    LastNames s directory fun b => before ++ (Size.format b).toList ++ after := by
  refine ⟨fun b _ => ?_, fun b _ c _ heq => ?_, fun b _ c _ => ?_, fun b _ c _ _ => ?_⟩
  · rw [testsetPath, if_neg hlength]
    exact h.endsIn (Size.slash_notMem_format b)
  · rw [List.append_cancel_right_eq, List.append_cancel_left_eq] at heq
    exact Size.format_injective (String.toList_inj.mp heq)
  · exact h.name_ne_manifest (Size.dot_notMem_format b) (Size.dot_notMem_format c)
  · exact h.name_ne_parent

/-- The testsets always have such last names. -/
theorem exists_lastNames (s : Settings) : ∃ directory name, LastNames s directory name := by
  by_cases hlength : s.blockSizes.length ≤ 1
  · obtain ⟨directory, name, h⟩ := Path.exists_endsIn s.output
    exact ⟨directory, _, lastNames_single hlength h⟩
  · obtain ⟨directory, before, after, h⟩ := Path.exists_labelPlace s.output.toList
    exact ⟨directory, _, lastNames_several hlength h⟩

/-- The path of one of the two output files for a block size: the manifest or the testset. -/
def outputPath (s : Settings) (blockSize : UInt64) (isManifest : Bool) : String :=
  if isManifest then s.manifestPath blockSize else s.testsetPath blockSize

/-- The last name of an output file, given that of the testset. -/
def outputName (name : UInt64 → List Char) (blockSize : UInt64) (isManifest : Bool) :
    List Char :=
  if isManifest then name blockSize ++ ".json".toList else name blockSize

namespace LastNames

variable {directory : List Char} {name : UInt64 → List Char} (h : LastNames s directory name)
include h

/-- Both output files for a block size stand in the directory. -/
theorem endsIn_outputPath {b : UInt64} (hb : b ∈ s.blockSizes) (isManifest : Bool) :
    Path.EndsIn (s.outputPath b isManifest) directory (outputName name b isManifest) := by
  cases isManifest with
  | false => exact h.endsIn b hb
  | true => exact (h.endsIn b hb).manifest

/-- Different output files have different last names. -/
theorem outputName_injective {b c : UInt64} (hb : b ∈ s.blockSizes) (hc : c ∈ s.blockSizes)
    {first second : Bool} (heq : outputName name b first = outputName name c second) :
    b = c ∧ first = second := by
  cases first with
  | false =>
    cases second with
    | false => exact ⟨h.injective b hb c hc heq, rfl⟩
    | true => exact absurd heq (h.ne_manifest b hb c hc)
  | true =>
    cases second with
    | false => exact absurd heq.symm (h.ne_manifest c hc b hb)
    | true => exact ⟨h.injective b hb c hc (List.append_cancel_right heq), rfl⟩

/-- Of two different output files one has a last name that does not lead upwards. -/
theorem outputName_ne_parent {b c : UInt64} (hb : b ∈ s.blockSizes) (hc : c ∈ s.blockSizes)
    {first second : Bool} (hne : outputName name b first ≠ outputName name c second) :
    outputName name b first ≠ ['.', '.'] ∨ outputName name c second ≠ ['.', '.'] := by
  have hmanifest (d : UInt64) : outputName name d true ≠ ['.', '.'] := by
    intro heq
    have hmem : 'j' ∈ name d ++ ".json".toList := List.mem_append_right _ (by decide)
    rw [show name d ++ ".json".toList = ['.', '.'] from heq] at hmem
    exact absurd hmem (by decide)
  cases first with
  | true => exact .inl (hmanifest b)
  | false =>
    cases second with
    | true => exact .inr (hmanifest c)
    | false => exact .inl (h.ne_parent b hb c hc fun heq => hne (by rw [heq]))

end LastNames

/-- Different output files are written at different locations. -/
theorem outputPath_location_ne {fs : FileSystem} {b c : UInt64} (hb : b ∈ s.blockSizes)
    (hc : c ∈ s.blockSizes) {first second : Bool} (hne : ¬(b = c ∧ first = second))
    {location place : Location} (hlocation : fs.locateFile (s.outputPath b first) = .ok location)
    (hplace : fs.locateFile (s.outputPath c second) = .ok place) : location ≠ place := by
  obtain ⟨directory, name, h⟩ := s.exists_lastNames
  have hnames : outputName name b first ≠ outputName name c second :=
    fun heq => hne (h.outputName_injective hb hc heq)
  have hfirst := h.endsIn_outputPath hb first
  have hsecond := h.endsIn_outputPath hc second
  rcases h.outputName_ne_parent hb hc hnames with hproper | hproper
  · exact (FileSystem.location_ne_of_name_ne hsecond hfirst hnames.symm hproper hplace
      hlocation).symm
  · exact FileSystem.location_ne_of_name_ne hfirst hsecond hnames hproper hlocation hplace

end Settings

end AccessPattern
