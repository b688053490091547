import AccessPattern.Proofs.Files.Neighbours
import AccessPattern.Proofs.Files.Storing

/-!
# Files beside others

Where a path leads, and what goes wrong on the way, is not changed by files that are stored beside
it. A file that can be written shows that all directories on the way to it are there, and after them
the last name decides. Where nothing is stored nothing changes anyway.
-/

namespace AccessPattern.FileSystem

/-- Why no file can be written at a path, if none can. -/
def writeFault? (fs : FileSystem) (path : String) : Option FileFault :=
  match fs.locateFile path with
  | .ok _ => none
  | .error fault => some fault

/-- What is found at the end of a path, if it leads anywhere: an entry, or nothing yet. -/
def found (fs : FileSystem) (path : String) : Except FileFault (Option Entry) :=
  (fs.locate path).map fs.at?

/-- Files are stored in a directory: each at a path with that directory part. -/
def Beside (fs : FileSystem) (directory : List Char) (files : List (Location × Bytes)) : Prop :=
  ∀ file ∈ files, ∃ path name, Path.EndsIn path directory name ∧ Writable fs path file.1

variable {fs other : FileSystem} {path : String} {directory name : List Char} {location : Location}
  {files : List (Location × Bytes)}

/-- A file can be written where there is no fault. -/
theorem writeFault?_eq_none_iff :
    fs.writeFault? path = none ↔ ∃ location, fs.locateFile path = .ok location := by
  rw [writeFault?]
  cases fs.locateFile path with
  | ok location => simp
  | error fault => simp

/-- There is a fault where a file cannot be located for writing. -/
theorem writeFault?_eq_some_iff {fault : FileFault} :
    fs.writeFault? path = some fault ↔ fs.locateFile path = .error fault := by
  rw [writeFault?]
  cases fs.locateFile path with
  | ok location => simp
  | error fault => simp

/-- Nothing is written where there is a fault. -/
theorem write_of_fault {fault : FileFault} (h : fs.locateFile path = .error fault)
    (bytes : Bytes) : fs.write path bytes = .error fault := by
  rw [write, h]
  rfl

/-- A file can be written where there is neither a fault nor a device. -/
theorem Plain.writable_of_no_fault (hplain : fs.Plain path) (h : fs.writeFault? path = none) :
    ∃ location, Writable fs path location := by
  obtain ⟨location, hlocate⟩ := writeFault?_eq_none_iff.mp h
  obtain ⟨hnull, hfull⟩ := hplain location (locate_of_locateFile hlocate)
  exact ⟨location, hlocate, hnull, hfull⟩

/-- Where a file can be written, its directory is there. -/
theorem directoryOf_of_locateFile (hends : Path.EndsIn path directory name)
    (h : fs.locateFile path = .ok location) :
    ∃ here, fs.directoryOf directory = .ok here ∧ fs.at? here = some .directory := by
  obtain ⟨here, hhere, hstep⟩ := step_of_locateFile hends h
  exact ⟨here, hhere, (step_eq_ok_iff.mp hstep).1⟩

/-- A path that does not end in a slash is located like any, and then must not lead to a
directory. -/
theorem locateFile_eq_of_endsIn (hends : Path.EndsIn path directory name) (hname : name ≠ []) :
    fs.locateFile path = (fs.locate path >>= fun location =>
      if fs.at? location = some .directory then throw .isDirectory else pure location) := by
  rw [locateFile, locate]
  cases hopening : fs.opening path with
  | error fault => rfl
  | ok opened =>
    obtain ⟨start, parts⟩ := opened
    obtain ⟨-, hparts⟩ := eq_of_opening_eq_ok hopening
    have hslash : parts.getLast? ≠ some "" := by
      rw [hparts, hends.splitSlashes_eq, List.map_append, List.map_singleton, List.getLast?_concat]
      intro heq
      exact hname (String.ofList_injective (Option.some.inj heq))
    change (if parts.getLast? = some "" then _ else _) = _
    rw [if_neg hslash]
    rfl

namespace SameDirectories

variable (h : SameDirectories fs other)
include h

/-- Where a path leads from a directory that is there depends on the directories only, and so does
what goes wrong. -/
theorem locate_eq (hends : Path.EndsIn path directory name) {here : Location}
    (hhere : fs.directoryOf directory = .ok here) (hdirectory : fs.at? here = some .directory) :
    other.locate path = fs.locate path := by
  have hsame : other.opening path = fs.opening path := by
    rw [opening, opening, h.workingDirectory]
  cases hopening : fs.opening path with
  | error fault => rw [locate, locate, hsame, hopening]; rfl
  | ok opened =>
    have hother : other.directoryOf directory = .ok here := by
      rw [directoryOf, ← h.workingDirectory]
      exact h.follow hhere
    rw [locate_eq_of_endsIn hends (hsame.trans hopening), locate_eq_of_endsIn hends hopening, hhere,
      hother]
    change other.step here (String.ofList name) = fs.step here (String.ofList name)
    rw [FileSystem.step, FileSystem.step, hdirectory, (h.directory here).mp hdirectory]

/-- A path that leads to the same place is as good for a file as it was. -/
theorem locateFile_eq (hends : Path.EndsIn path directory name) (hname : name ≠ [])
    (hlocate : other.locate path = fs.locate path) :
    other.locateFile path = fs.locateFile path := by
  rw [locateFile_eq_of_endsIn hends hname, locateFile_eq_of_endsIn hends hname, hlocate]
  refine congrArg _ (funext fun location => ?_)
  simp only [h.directory location]

end SameDirectories

/-- A path at which no file can be written leads to a directory, if it leads anywhere. Where it
ends in a slash its last part is empty and leads from a directory to itself. -/
theorem at?_eq_directory_of_fault {fault : FileFault} (hlocate : fs.locate path = .ok location)
    (hfault : fs.locateFile path = .error fault) : fs.at? location = some .directory := by
  rw [locate] at hlocate
  rw [locateFile] at hfault
  obtain ⟨⟨start, parts⟩, hopening, hfollow⟩ := bind_eq_ok_iff.mp hlocate
  rw [hopening] at hfault
  change fs.follow start parts = .ok location at hfollow
  change (if parts.getLast? = some "" then _ else _) = _ at hfault
  split at hfault
  · next hslash =>
    obtain ⟨before, rfl⟩ := List.getLast?_eq_some_iff.mp hslash
    rw [follow, List.foldlM_append, bind_eq_ok_iff] at hfollow
    obtain ⟨here, -, hlast⟩ := hfollow
    simp only [List.foldlM_cons, List.foldlM_nil, bind_pure] at hlast
    obtain ⟨hdirectory, hlocation⟩ := step_eq_ok_iff.mp hlast
    rw [if_pos (.inl rfl)] at hlocation
    exact hlocation ▸ hdirectory
  · rw [hfollow] at hfault
    by_contra hentry
    change (if fs.at? location = some .directory then _ else _) = _ at hfault
    rw [if_neg hentry] at hfault
    contradiction

namespace Beside

variable (h : fs.Beside directory files)
include h

/-- Files in a directory can be written. -/
theorem writableFiles : fs.WritableFiles files := by
  intro file hfile
  obtain ⟨path, -, -, hwritable⟩ := h file hfile
  exact ⟨path, hwritable⟩

/-- Files stored beside a path do not change where it leads. -/
theorem locate_store (hends : Path.EndsIn path directory name) :
    (fs.store files).locate path = fs.locate path := by
  cases files with
  | nil => rfl
  | cons file later =>
    obtain ⟨written, writtenName, hwritten, hwritable⟩ := h file List.mem_cons_self
    obtain ⟨here, hhere, hdirectory⟩ := directoryOf_of_locateFile hwritten hwritable.locateFile
    exact h.writableFiles.sameDirectories.locate_eq hends hhere hdirectory

/-- Files stored beside a path do not change whether a file can be written there. -/
theorem locateFile_store (hends : Path.EndsIn path directory name) (hname : name ≠ []) :
    (fs.store files).locateFile path = fs.locateFile path :=
  h.writableFiles.sameDirectories.locateFile_eq hends hname (h.locate_store hends)

/-- Files stored beside a path, but not there, do not change what is found there. -/
theorem found_store_of_notMem (hends : Path.EndsIn path directory name)
    (hnot : ∀ location, fs.locateFile path = .ok location → location ∉ files.map Prod.fst) :
    (fs.store files).found path = fs.found path := by
  rw [found, found, h.locate_store hends]
  cases hlocate : fs.locate path with
  | error fault => rfl
  | ok location =>
    refine congrArg Except.ok ?_
    cases hfile : fs.locateFile path with
    | error fault =>
      have hdirectory := at?_eq_directory_of_fault hlocate hfile
      rw [hdirectory, (h.writableFiles.sameDirectories.directory location).mp hdirectory]
    | ok place =>
      obtain rfl : place = location :=
        Except.ok.inj ((locate_of_locateFile hfile).symm.trans hlocate)
      exact at?_store_of_notMem h.writableFiles.root_notMem (hnot place hfile)

end Beside

/-- A file is found with what it holds. -/
theorem Holds.found_eq {bytes : Bytes} (h : fs.Holds path bytes) :
    fs.found path = .ok (some (.file bytes)) := by
  obtain ⟨location, hlocate, hentry⟩ := h
  rw [found, hlocate, ← hentry]
  rfl

end AccessPattern.FileSystem
