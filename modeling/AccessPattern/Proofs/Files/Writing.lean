import AccessPattern.Files.System
import AccessPattern.Proofs.Except

/-!
# Writing a file

A path leads to the same location as long as the directories are the same, and writing a file
makes or removes no directory. So a path that can be written to can still be written to, at the
same location, after other files were written.

Devices are kept out: bytes written there are not found there.
-/

namespace AccessPattern.FileSystem

/-- Two file systems whose directories, the working directory among them, are the same. -/
structure SameDirectories (fs other : FileSystem) : Prop where
  workingDirectory : fs.workingDirectory = other.workingDirectory
  directory : ∀ location, fs.at? location = some .directory ↔ other.at? location = some .directory

/-- Having the same directories goes both ways. -/
theorem SameDirectories.symm {fs other : FileSystem} (h : SameDirectories fs other) :
    SameDirectories other fs :=
  ⟨h.workingDirectory.symm, fun location => (h.directory location).symm⟩

/-- Having the same directories is passed on. -/
theorem SameDirectories.trans {fs other third : FileSystem} (h : SameDirectories fs other)
    (hother : SameDirectories other third) : SameDirectories fs third :=
  ⟨h.workingDirectory.trans hother.workingDirectory,
    fun location => (h.directory location).trans (hother.directory location)⟩

/-- A part of a path can be followed from directories only. -/
theorem step_eq_ok_iff {fs : FileSystem} {here location : Location} {part : String} :
    fs.step here part = .ok location ↔ fs.at? here = some .directory ∧
      (if part = "" ∨ part = "." then location = here
        else if part = ".." then location = here.dropLast
        else part.utf8ByteSize ≤ longestName ∧ location = here ++ [part]) := by
  unfold step
  cases hentry : fs.at? here with
  | none => simp
  | some entry =>
    cases entry with
    | directory =>
      simp only [true_and]
      split
      · exact ⟨fun h => (Except.ok.inj h).symm, fun h => h ▸ rfl⟩
      · split
        · exact ⟨fun h => (Except.ok.inj h).symm, fun h => h ▸ rfl⟩
        · split
          · next hlong => simp [Nat.not_le_of_lt hlong]
          · next hshort =>
            simp only [Except.ok.injEq, Nat.le_of_not_lt hshort, true_and]
            exact eq_comm
    | file bytes => simp
    | nullDevice => simp
    | fullDevice => simp

/-- Where a part leads depends on the directories only. -/
theorem SameDirectories.step {fs other : FileSystem} (h : SameDirectories fs other)
    {here location : Location} {part : String} (hstep : fs.step here part = .ok location) :
    other.step here part = .ok location := by
  rw [step_eq_ok_iff] at hstep ⊢
  exact ⟨(h.directory here).mp hstep.1, hstep.2⟩

/-- Where parts lead depends on the directories only. -/
theorem SameDirectories.follow {fs other : FileSystem} (h : SameDirectories fs other)
    {here location : Location} {parts : List String}
    (hfollow : fs.follow here parts = .ok location) :
    other.follow here parts = .ok location := by
  induction parts generalizing here with
  | nil => exact hfollow
  | cons part parts ih =>
    rw [FileSystem.follow, List.foldlM_cons] at hfollow ⊢
    cases hstep : fs.step here part with
    | error fault => rw [hstep] at hfollow; contradiction
    | ok next =>
      rw [hstep] at hfollow
      rw [h.step hstep]
      exact ih hfollow

/-- A file can be located for writing when its path does not end in a slash and does not lead to
a directory. -/
theorem locateFile_eq_ok_iff {fs : FileSystem} {path : String} {location : Location} :
    fs.locateFile path = .ok location ↔
      ∃ start parts, fs.opening path = .ok (start, parts) ∧ parts.getLast? ≠ some "" ∧
        fs.follow start parts = .ok location ∧ fs.at? location ≠ some .directory := by
  unfold locateFile
  rw [bind_eq_ok_iff]
  constructor
  · rintro ⟨⟨start, parts⟩, hopening, hlocate⟩
    refine ⟨start, parts, hopening, ?_⟩
    dsimp only at hlocate
    split at hlocate
    · obtain ⟨_, -, hthrow⟩ := bind_eq_ok_iff.mp hlocate
      contradiction
    · next hslash =>
      obtain ⟨found, hfollow, hfile⟩ := bind_eq_ok_iff.mp hlocate
      split at hfile
      · contradiction
      · next hentry =>
        cases hfile
        exact ⟨hslash, hfollow, hentry⟩
  · rintro ⟨start, parts, hopening, hslash, hfollow, hentry⟩
    refine ⟨(start, parts), hopening, ?_⟩
    dsimp only
    rw [if_neg hslash, bind_eq_ok_iff]
    exact ⟨location, hfollow, if_neg hentry⟩

/-- A file to be written is located where readers look for it. -/
theorem locate_of_locateFile {fs : FileSystem} {path : String} {location : Location}
    (h : fs.locateFile path = .ok location) : fs.locate path = .ok location := by
  obtain ⟨start, parts, hopening, -, hfollow, -⟩ := locateFile_eq_ok_iff.mp h
  rw [locate, hopening]
  exact hfollow

/-- Which files can be written, and where, depends on the directories only. -/
theorem SameDirectories.locateFile {fs other : FileSystem} (h : SameDirectories fs other)
    {path : String} {location : Location} (hlocate : fs.locateFile path = .ok location) :
    other.locateFile path = .ok location := by
  rw [locateFile_eq_ok_iff] at hlocate ⊢
  obtain ⟨start, parts, hopening, hslash, hfollow, hentry⟩ := hlocate
  refine ⟨start, parts, ?_, hslash, h.follow hfollow, fun hother => ?_⟩
  · rw [← hopening, opening, opening, h.workingDirectory]
  · exact hentry ((h.directory location).mpr hother)

/-- A file can be written at a path and is then found at a location: the path leads there, and
there is no directory and no device. -/
structure Writable (fs : FileSystem) (path : String) (location : Location) : Prop where
  locateFile : fs.locateFile path = .ok location
  not_nullDevice : fs.at? location ≠ some .nullDevice
  not_fullDevice : fs.at? location ≠ some .fullDevice

namespace Writable

variable {fs : FileSystem} {path : String} {location : Location} (h : Writable fs path location)
include h

/-- What is at the location of a file to be written is no directory. -/
theorem not_directory : fs.at? location ≠ some .directory := by
  obtain ⟨_, _, -, -, -, hentry⟩ := locateFile_eq_ok_iff.mp h.locateFile
  exact hentry

/-- A file to be written is not at the root. -/
theorem location_ne_nil : location ≠ [] := by
  rintro rfl
  exact h.not_directory rfl

/-- Writing puts the file at the location. -/
theorem write (bytes : Bytes) : fs.write path bytes = .ok (fs.put location (.file bytes)) := by
  rw [FileSystem.write, h.locateFile]
  have hnull := h.not_nullDevice
  have hfull := h.not_fullDevice
  simp only [bind, Except.bind]
  rfl

/-- Writing makes or removes no directory. -/
theorem sameDirectories_put (bytes : Bytes) :
    SameDirectories fs (fs.put location (.file bytes)) := by
  refine ⟨rfl, fun other => ?_⟩
  rw [at?_put fs h.location_ne_nil]
  split
  · next heq => simpa [heq] using h.not_directory
  · rfl

/-- The path can be written to after the same file or another was written. -/
theorem of_put {written : String} {place : Location} (hwritten : Writable fs written place)
    (bytes : Bytes) : Writable (fs.put place (.file bytes)) path location := by
  refine ⟨(hwritten.sameDirectories_put bytes).locateFile h.locateFile, ?_, ?_⟩
  all_goals rw [at?_put fs hwritten.location_ne_nil]
  · split
    · simp
    · exact h.not_nullDevice
  · split
    · simp
    · exact h.not_fullDevice

/-- What was written is read back. -/
theorem read_put (bytes : Bytes) : (fs.put location (.file bytes)).read path = .ok bytes := by
  rw [read, locate_of_locateFile (h.of_put h bytes).locateFile]
  simp only [bind, Except.bind, at?_put fs h.location_ne_nil, if_true]
  rfl

end Writable

/-- There is no device at the end of a path: if it leads anywhere, then to a file, a directory or
a place where there is nothing yet. -/
def Plain (fs : FileSystem) (path : String) : Prop :=
  ∀ location, fs.locate path = .ok location →
    fs.at? location ≠ some .nullDevice ∧ fs.at? location ≠ some .fullDevice

/-- Where there is no device at all, there is none at the end of any path. -/
theorem plain_of_entries {fs : FileSystem}
    (h : ∀ entry ∈ fs.entries, entry.2 ≠ .nullDevice ∧ entry.2 ≠ .fullDevice) (path : String) :
    fs.Plain path := by
  intro location _
  rw [FileSystem.at?]
  split
  · simp
  · have hentry {device : Entry} (hfound : fs.entries.lookup location = some device) :
        (location, device) ∈ fs.entries := by
      obtain ⟨before, after, hentries, -⟩ := List.lookup_eq_some_iff.mp hfound
      rw [hentries]
      exact List.mem_append_right _ List.mem_cons_self
    exact ⟨fun hnull => (h _ (hentry hnull)).1 rfl, fun hfull => (h _ (hentry hfull)).2 rfl⟩

/-- Writing succeeds only where the path can be written to, devices apart. That can be told from
any file system with the same directories. -/
theorem Plain.writable {fs current next : FileSystem} {path : String} {bytes : Bytes}
    (hplain : fs.Plain path) (hsame : SameDirectories fs current)
    (h : current.write path bytes = .ok next) : ∃ location, Writable fs path location := by
  obtain ⟨location, hcurrent, -⟩ := bind_eq_ok_iff.mp h
  have hlocate := hsame.symm.locateFile hcurrent
  obtain ⟨hnull, hfull⟩ := hplain location (locate_of_locateFile hlocate)
  exact ⟨location, hlocate, hnull, hfull⟩

end AccessPattern.FileSystem
