import AccessPattern.Proofs.Settings.OutputPaths
import AccessPattern.Proofs.Settings.Validity

/-!
# Different paths for all output files

No two output files of a run share a path, however the output path is written: with or without an
extension, with several dots, hidden, ending in slashes or without a file name at all. Paths are
compared by the names they go through, so that writing `a//b` or `./a/b` for `a/b` makes no
difference, and by the files that they lead to in a file system. All output paths have one directory
part; what tells them apart is the last name, which can name nothing for a single testset only.
-/

namespace AccessPattern

namespace Path

/-- The names that a path goes through: its parts but for those that name nothing. -/
def names (path : String) : List (List Char) :=
  (splitSlashes [] path.toList).filter fun part => !isIdle part

/-- A part with something else than dots in it names something. -/
theorem isIdle_eq_false_of_mem {part : List Char} {c : Char} (h : c ∈ part) (hdot : c ≠ '.') :
    isIdle part = false := by
  rw [isIdle, Bool.or_eq_false_iff, beq_eq_false_iff_ne, beq_eq_false_iff_ne]
  refine ⟨List.ne_nil_of_mem h, fun heq => hdot ?_⟩
  rwa [heq, List.mem_singleton] at h

/-- A path goes through the names of its directory part and then its last name, if it is one. -/
theorem EndsIn.names_eq {path : String} {directory name : List Char}
    (h : EndsIn path directory name) :
    names path = ((splitSlashes [] directory).dropLast.filter fun part => !isIdle part) ++
      if isIdle name then [] else [name] := by
  rw [names, h.splitSlashes_eq, List.filter_append]
  cases hname : isIdle name <;> simp [hname]

/-- Paths with one directory part and different last names go through different names. -/
theorem names_ne_of_name_ne {path other : String} {directory name otherName : List Char}
    (hpath : EndsIn path directory name) (hother : EndsIn other directory otherName)
    (hne : name ≠ otherName) (hproper : isIdle otherName = false) : names path ≠ names other := by
  intro heq
  rw [hpath.names_eq, hother.names_eq, List.append_cancel_left_eq, hproper] at heq
  split at heq
  · contradiction
  · exact hne (List.singleton_inj.mp heq)

end Path

namespace Settings

variable {s : Settings}

/-- The paths of all output files: for each block size the testset and its manifest. -/
def outputPaths (s : Settings) : List String :=
  s.blockSizes.flatMap fun blockSize => [s.testsetPath blockSize, s.manifestPath blockSize]

/-- Where there are several testsets their last names name something. -/
theorem exists_lastNames_not_idle (s : Settings) :
    ∃ directory name, LastNames s directory name ∧
      ∀ b ∈ s.blockSizes, ∀ c ∈ s.blockSizes, b ≠ c → Path.isIdle (name b) = false := by
  by_cases hlength : s.blockSizes.length ≤ 1
  · obtain ⟨directory, name, hends⟩ := Path.exists_endsIn s.output
    have h := lastNames_single hlength hends
    exact ⟨directory, _, h, fun b hb c hc hne => absurd (h.injective b hb c hc rfl) hne⟩
  · obtain ⟨directory, before, after, h⟩ := Path.exists_labelPlace s.output.toList
    refine ⟨directory, _, lastNames_several hlength h, fun b _ c _ _ => ?_⟩
    have hunderscore : '_' ∈ before ++ (Size.format b).toList ++ after :=
      List.mem_append_left _ (List.mem_append_left _ h.underscore_mem)
    exact Path.isIdle_eq_false_of_mem hunderscore (by decide)

/-- Different output files go through different names. Names of directories do not matter to this,
since one of the two files is a manifest or there are several testsets. -/
theorem names_outputPath_ne {b c : UInt64} (hb : b ∈ s.blockSizes) (hc : c ∈ s.blockSizes)
    {first second : Bool} (hne : ¬(b = c ∧ first = second)) :
    Path.names (s.outputPath b first) ≠ Path.names (s.outputPath c second) := by
  obtain ⟨directory, name, h, hproper⟩ := s.exists_lastNames_not_idle
  have hnames : outputName name b first ≠ outputName name c second :=
    fun heq => hne (h.outputName_injective hb hc heq)
  have hmanifest (d : UInt64) : Path.isIdle (outputName name d true) = false := by
    have hletter : 'j' ∈ name d ++ ".json".toList := List.mem_append_right _ (by decide)
    exact Path.isIdle_eq_false_of_mem hletter (by decide)
  have hfirst := h.endsIn_outputPath hb first
  have hsecond := h.endsIn_outputPath hc second
  cases second with
  | true => exact Path.names_ne_of_name_ne hfirst hsecond hnames (hmanifest c)
  | false =>
    cases first with
    | true => exact (Path.names_ne_of_name_ne hsecond hfirst hnames.symm (hmanifest b)).symm
    | false =>
      have hdifferent : c ≠ b := fun heq => hne ⟨heq.symm, rfl⟩
      exact Path.names_ne_of_name_ne hfirst hsecond hnames (hproper c hc b hb hdifferent)

/-- What tells different output files apart holds between all output paths. -/
theorem pairwise_outputPaths {R : String → String → Prop} (hnodup : s.blockSizes.Nodup)
    (h : ∀ b ∈ s.blockSizes, ∀ c ∈ s.blockSizes, ∀ first second, ¬(b = c ∧ first = second) →
      R (s.outputPath b first) (s.outputPath c second)) :
    s.outputPaths.Pairwise R := by
  refine List.pairwise_flatMap.mpr ⟨fun b hb => ?_, ?_⟩
  · exact List.pairwise_pair.mpr (h b hb b hb false true (by simp))
  · refine hnodup.imp_of_mem fun {b c} hb hc hne => ?_
    have hall (first second : Bool) : R (s.outputPath b first) (s.outputPath c second) :=
      h b hb c hc first second fun heq => hne heq.1
    simp only [List.mem_pair]
    rintro path (rfl | rfl) other (rfl | rfl)
    · exact hall false false
    · exact hall false true
    · exact hall true false
    · exact hall true true

/-- Where nothing is wrong with the list of block sizes, all output paths of a run are different,
two for each block size, whatever text the output path is. They go through different names, and
there is no file system in which two of them lead to one file. -/
theorem outputPaths_distinct (h : blockSizesFault? s.blockSizes = none) :
    s.outputPaths.length = 2 * s.blockSizes.length ∧ s.outputPaths.Nodup ∧
      (s.outputPaths.map Path.names).Nodup ∧
      ∀ fs : FileSystem, s.outputPaths.Pairwise fun path other => ∀ location,
        fs.locateFile path = .ok location → fs.locateFile other ≠ .ok location := by
  obtain ⟨-, hnodup⟩ := blockSizesFault?_eq_none_iff.mp h
  have hnames : (s.outputPaths.map Path.names).Nodup :=
    List.pairwise_map.mpr <| pairwise_outputPaths hnodup fun _ hb _ hc _ _ hne =>
      names_outputPath_ne hb hc hne
  refine ⟨?_, hnames.of_map, hnames, fun fs => ?_⟩
  · simp [outputPaths, Nat.mul_comm]
  · exact pairwise_outputPaths hnodup fun _ hb _ hc _ _ hne _ hlocation hother =>
      outputPath_location_ne hb hc hne hlocation hother rfl

/-- Even where the output path has no file name, the testsets and manifests of two block sizes have
four different paths. -/
theorem outputPaths_distinct_parent :
    blockSizesFault? [8192, 4097] = none ∧
      (Settings.outputPaths { standard with blockSizes := [8192, 4097], output := ".." }).Nodup := by
  have hsizes : blockSizesFault? [8192, 4097] = none := by decide
  obtain ⟨-, hnodup, -⟩ := outputPaths_distinct
    (s := { standard with blockSizes := [8192, 4097], output := ".." }) hsizes
  exact ⟨hsizes, hnodup⟩

end Settings

end AccessPattern
