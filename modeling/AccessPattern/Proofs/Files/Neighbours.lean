import AccessPattern.Proofs.Files.PathNames
import AccessPattern.Proofs.Files.Writing

/-!
# Files in one directory

Two paths with the same directory part and different last names lead to different locations when
files can be written at both. The last name `..` leads upwards, and then to no place where a
proper name leads from the same directory.
-/

namespace AccessPattern.FileSystem

variable {fs : FileSystem} {path : String} {directory name : List Char} {location : Location}

/-- The directory that a directory part leads to. -/
def directoryOf (fs : FileSystem) (directory : List Char) : Except FileFault Location :=
  fs.follow (if directory.head? = some '/' then [] else fs.workingDirectory)
    ((Path.splitSlashes [] directory).dropLast.map String.ofList)

/-- A path is opened at its start, with its parts. -/
theorem eq_of_opening_eq_ok {start : Location} {parts : List String}
    (h : fs.opening path = .ok (start, parts)) :
    start = (if path.toList.head? = some '/' then [] else fs.workingDirectory) ∧
      parts = (Path.splitSlashes [] path.toList).map String.ofList := by
  unfold opening at h
  dsimp only at h
  split at h
  · contradiction
  · split at h
    · contradiction
    · split at h
      · contradiction
      · obtain ⟨rfl, rfl⟩ := Prod.mk.inj (Except.ok.inj h)
        exact ⟨rfl, rfl⟩

/-- A path that can be opened leads to its directory and from there where its last name does. -/
theorem locate_eq_of_endsIn (hends : Path.EndsIn path directory name) {start : Location}
    {parts : List String} (hopening : fs.opening path = .ok (start, parts)) :
    fs.locate path =
      (fs.directoryOf directory >>= fun here => fs.step here (String.ofList name)) := by
  obtain ⟨hstart, hparts⟩ := eq_of_opening_eq_ok hopening
  rw [hends.splitSlashes_eq, List.map_append, List.map_singleton] at hparts
  simp only [hends.head?_eq_slash_iff] at hstart
  rw [locate, hopening, directoryOf, ← hstart]
  change fs.follow start parts = _
  rw [hparts, follow, List.foldlM_append]
  simp only [List.foldlM_cons, List.foldlM_nil, bind_pure]
  rfl

/-- A file is located by a step from the directory of its path. -/
theorem step_of_locateFile (hends : Path.EndsIn path directory name)
    (h : fs.locateFile path = .ok location) :
    ∃ here, fs.directoryOf directory = .ok here ∧
      fs.step here (String.ofList name) = .ok location := by
  obtain ⟨start, parts, hopening, -⟩ := locateFile_eq_ok_iff.mp h
  rw [← bind_eq_ok_iff, ← locate_eq_of_endsIn hends hopening]
  exact locate_of_locateFile h

/-- A file is located from the directory of its path by the last name. -/
theorem location_of_endsIn (hends : Path.EndsIn path directory name)
    (h : fs.locateFile path = .ok location) :
    ∃ here, fs.directoryOf directory = .ok here ∧
      (location = here ++ [String.ofList name] ∨ name = ['.', '.'] ∧ location = here.dropLast) := by
  obtain ⟨here, hhere, hstep⟩ := step_of_locateFile hends h
  refine ⟨here, hhere, ?_⟩
  obtain ⟨hdirectory, hlocation⟩ := step_eq_ok_iff.mp hstep
  obtain ⟨-, -, -, -, -, hentry⟩ := locateFile_eq_ok_iff.mp h
  split at hlocation
  · exact absurd (hlocation ▸ hdirectory) hentry
  · split at hlocation
    · next hparent =>
      refine .inr ⟨?_, hlocation⟩
      rw [← String.toList_ofList (l := name), hparent]
      rfl
    · exact .inl hlocation.2

/-- Different last names in one directory lead to different locations. -/
theorem location_ne_of_name_ne {other : String} {otherName : List Char} {place : Location}
    (hends : Path.EndsIn path directory name) (hother : Path.EndsIn other directory otherName)
    (hne : name ≠ otherName) (hproper : otherName ≠ ['.', '.'])
    (hpath : fs.locateFile path = .ok location) (hplace : fs.locateFile other = .ok place) :
    location ≠ place := by
  obtain ⟨here, hhere, hlocation⟩ := location_of_endsIn hends hpath
  obtain ⟨there, hthere, hcase⟩ := location_of_endsIn hother hplace
  obtain rfl : here = there := Except.ok.inj (hhere.symm.trans hthere)
  obtain rfl : place = here ++ [String.ofList otherName] :=
    hcase.resolve_right fun hparent => hproper hparent.1
  rcases hlocation with rfl | ⟨-, rfl⟩
  · intro heq
    have hlast := List.append_cancel_left heq
    exact hne (String.ofList_injective (List.singleton_inj.mp hlast))
  · intro heq
    have hlength := congrArg List.length heq
    rw [List.length_dropLast, List.length_append, List.length_singleton] at hlength
    omega

end AccessPattern.FileSystem
