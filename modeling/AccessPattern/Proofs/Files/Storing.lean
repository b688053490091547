import AccessPattern.Proofs.Files.Writing
import Mathlib.Data.List.Nodup
import Mathlib.Data.List.Perm.Basic

/-!
# Several files

What files written one after the other leave behind: each is found with its bytes and everything
else is as before, and their order does not matter when no two of them are at one location.

`store` puts files at locations. `place` finds the locations for files that are to be written at
paths; these are known before the first of the files is written.
-/

namespace AccessPattern.FileSystem

/-- The file system after files were put at locations, in order. -/
def store (fs : FileSystem) (files : List (Location × Bytes)) : FileSystem :=
  files.foldl (fun fs file => fs.put file.1 (.file file.2)) fs

/-- Without files the file system stays as it is. -/
@[simp] theorem store_nil (fs : FileSystem) : fs.store [] = fs :=
  rfl

/-- The first file is put, and the others into the file system that this leaves. -/
@[simp] theorem store_cons (fs : FileSystem) (file : Location × Bytes)
    (files : List (Location × Bytes)) :
    fs.store (file :: files) = (fs.put file.1 (.file file.2)).store files :=
  rfl

/-- Files after others are put into the file system that these leave. -/
@[simp] theorem store_append (fs : FileSystem) (files others : List (Location × Bytes)) :
    fs.store (files ++ others) = (fs.store files).store others :=
  List.foldl_append

/-- Each of the files is at a location that some path can be written to. -/
def WritableFiles (fs : FileSystem) (files : List (Location × Bytes)) : Prop :=
  ∀ file ∈ files, ∃ path, Writable fs path file.1

/-- Nothing has to be written if there are no files. -/
@[simp] theorem writableFiles_nil {fs : FileSystem} : fs.WritableFiles [] :=
  List.forall_mem_nil _

/-- The first file can be written, and then the others still can. -/
theorem WritableFiles.of_cons {fs : FileSystem} {file : Location × Bytes}
    {files : List (Location × Bytes)} (hfiles : fs.WritableFiles (file :: files)) :
    (∃ path, Writable fs path file.1) ∧ (fs.put file.1 (.file file.2)).WritableFiles files := by
  obtain ⟨written, hwritten⟩ := hfiles file List.mem_cons_self
  refine ⟨⟨written, hwritten⟩, fun other hother => ?_⟩
  obtain ⟨path, hpath⟩ := hfiles other (List.mem_cons_of_mem _ hother)
  exact ⟨path, hpath.of_put hwritten file.2⟩

/-- A path can be written to after other files were stored. -/
theorem Writable.of_store {fs : FileSystem} {path : String} {location : Location}
    {files : List (Location × Bytes)} (h : Writable fs path location)
    (hfiles : fs.WritableFiles files) : Writable (fs.store files) path location := by
  induction files generalizing fs with
  | nil => exact h
  | cons file files ih =>
    obtain ⟨⟨written, hwritten⟩, hrest⟩ := hfiles.of_cons
    exact ih (h.of_put hwritten file.2) hrest

/-- Storing files makes or removes no directory. -/
theorem WritableFiles.sameDirectories {fs : FileSystem} {files : List (Location × Bytes)}
    (hfiles : fs.WritableFiles files) : SameDirectories fs (fs.store files) := by
  induction files generalizing fs with
  | nil => exact ⟨rfl, fun _ => Iff.rfl⟩
  | cons file files ih =>
    obtain ⟨⟨written, hwritten⟩, hrest⟩ := hfiles.of_cons
    exact (hwritten.sameDirectories_put file.2).trans (ih hrest)

/-- No file is stored at the root. -/
theorem WritableFiles.root_notMem {fs : FileSystem} {files : List (Location × Bytes)}
    (hfiles : fs.WritableFiles files) : [] ∉ files.map Prod.fst := by
  intro hroot
  obtain ⟨file, hfile, hnil⟩ := List.mem_map.mp hroot
  obtain ⟨path, hpath⟩ := hfiles file hfile
  exact hpath.location_ne_nil hnil

/-- Where no file was put everything is as before. -/
theorem at?_store_of_notMem {fs : FileSystem} {files : List (Location × Bytes)}
    (hroot : [] ∉ files.map Prod.fst) {location : Location}
    (h : location ∉ files.map Prod.fst) : (fs.store files).at? location = fs.at? location := by
  induction files generalizing fs with
  | nil => rfl
  | cons file files ih =>
    rw [List.map_cons, List.mem_cons, not_or] at hroot h
    simp [ih hroot.2 h.2, at?_put fs (Ne.symm hroot.1), h.1]

/-- Each file is found at its location when no two have the same. -/
theorem at?_store_of_mem {fs : FileSystem} {files : List (Location × Bytes)}
    (hroot : [] ∉ files.map Prod.fst) (hnodup : (files.map Prod.fst).Nodup)
    {location : Location} {bytes : Bytes} (h : (location, bytes) ∈ files) :
    (fs.store files).at? location = some (.file bytes) := by
  induction files generalizing fs with
  | nil => simp at h
  | cons file files ih =>
    rw [List.map_cons, List.mem_cons, not_or] at hroot
    rw [List.map_cons, List.nodup_cons] at hnodup
    rw [store_cons]
    rcases List.mem_cons.mp h with rfl | h
    · simp [at?_store_of_notMem hroot.2 hnodup.1, at?_put fs (Ne.symm hroot.1)]
    · exact ih hroot.2 hnodup.2 h

/-- The order in which files are put at different locations does not matter. -/
theorem at?_store_perm {fs : FileSystem} {files others : List (Location × Bytes)}
    (hroot : [] ∉ files.map Prod.fst) (hnodup : (files.map Prod.fst).Nodup)
    (hperm : files.Perm others) (location : Location) :
    (fs.store others).at? location = (fs.store files).at? location := by
  have hlocations := hperm.map Prod.fst
  have hrootOthers : [] ∉ others.map Prod.fst := fun hmem => hroot (hlocations.mem_iff.mpr hmem)
  have hnodupOthers := hlocations.nodup_iff.mp hnodup
  by_cases hmem : location ∈ files.map Prod.fst
  · obtain ⟨⟨location, bytes⟩, hfile, rfl⟩ := List.mem_map.mp hmem
    rw [at?_store_of_mem hroot hnodup hfile,
      at?_store_of_mem hrootOthers hnodupOthers (hperm.mem_iff.mp hfile)]
  · rw [at?_store_of_notMem hroot hmem,
      at?_store_of_notMem hrootOthers fun h => hmem (hlocations.mem_iff.mpr h)]

/-- Files that can be written, and then others that can. -/
theorem WritableFiles.append {fs : FileSystem} {files others : List (Location × Bytes)}
    (hfiles : fs.WritableFiles files) (hothers : fs.WritableFiles others) :
    fs.WritableFiles (files ++ others) :=
  List.forall_mem_append.mpr ⟨hfiles, hothers⟩

/-- Files that can be written, and then one more that can. -/
theorem WritableFiles.concat {fs : FileSystem} {files : List (Location × Bytes)}
    (hfiles : fs.WritableFiles files) {path : String} {location : Location}
    (h : Writable fs path location) (bytes : Bytes) :
    fs.WritableFiles (files ++ [(location, bytes)]) :=
  hfiles.append fun _ hfile => ⟨path, List.mem_singleton.mp hfile ▸ h⟩

/-- A file written after others is one more of the stored files. -/
theorem Writable.write_store {fs : FileSystem} {path : String} {location : Location}
    (h : Writable fs path location) {files : List (Location × Bytes)}
    (hfiles : fs.WritableFiles files) (bytes : Bytes) :
    (fs.store files).write path bytes = .ok (fs.store (files ++ [(location, bytes)])) := by
  simp [(h.of_store hfiles).write]

/-- A file written after others is read back. -/
theorem Writable.read_store_concat {fs : FileSystem} {path : String} {location : Location}
    (h : Writable fs path location) {files : List (Location × Bytes)}
    (hfiles : fs.WritableFiles files) (bytes : Bytes) :
    (fs.store (files ++ [(location, bytes)])).read path = .ok bytes := by
  simpa using (h.of_store hfiles).read_put bytes

/-- A write that succeeds after other files were stored stores one more. -/
theorem Plain.store_of_write {fs next : FileSystem} {path : String} {bytes : Bytes}
    (hplain : fs.Plain path) {files : List (Location × Bytes)} (hfiles : fs.WritableFiles files)
    (h : (fs.store files).write path bytes = .ok next) :
    ∃ location, Writable fs path location ∧ next = fs.store (files ++ [(location, bytes)]) := by
  obtain ⟨location, hwritable⟩ := hplain.writable hfiles.sameDirectories h
  rw [hwritable.write_store hfiles] at h
  exact ⟨location, hwritable, (Except.ok.inj h).symm⟩

/-- There is a file with these bytes at the end of a path. -/
def Holds (fs : FileSystem) (path : String) (bytes : Bytes) : Prop :=
  ∃ location, fs.locate path = .ok location ∧ fs.at? location = some (.file bytes)

/-- What a file holds is read from it. -/
theorem Holds.read {fs : FileSystem} {path : String} {bytes : Bytes} (h : fs.Holds path bytes) :
    fs.read path = .ok bytes := by
  obtain ⟨location, hlocate, hentry⟩ := h
  simp [FileSystem.read, hlocate, hentry]
  rfl

/-- The files to be written at paths, with their locations instead of the paths. -/
def place (fs : FileSystem) (targets : List (String × Bytes)) : List (Location × Bytes) :=
  targets.filterMap fun target =>
    (fs.locateFile target.1).toOption.map fun location => (location, target.2)

/-- All of the files can be written. -/
def Accepts (fs : FileSystem) (targets : List (String × Bytes)) : Prop :=
  ∀ target ∈ targets, ∃ location, Writable fs target.1 location

/-- No two of the files would be at one location. -/
def Apart (fs : FileSystem) (targets : List (String × Bytes)) : Prop :=
  targets.Pairwise fun target other => ∀ location place,
    fs.locateFile target.1 = .ok location → fs.locateFile other.1 = .ok place → location ≠ place

/-- Where no files are to be written, none are placed. -/
@[simp] theorem place_nil (fs : FileSystem) : fs.place [] = [] :=
  rfl

/-- A file that can be written is placed where its path leads. -/
theorem place_cons {fs : FileSystem} {path : String} {location : Location}
    (h : Writable fs path location) (bytes : Bytes) (targets : List (String × Bytes)) :
    fs.place ((path, bytes) :: targets) = (location, bytes) :: fs.place targets := by
  rw [place, List.filterMap_cons, h.locateFile]
  rfl

/-- Files are placed part by part. -/
@[simp] theorem place_append (fs : FileSystem) (targets others : List (String × Bytes)) :
    fs.place (targets ++ others) = fs.place targets ++ fs.place others :=
  List.filterMap_append

/-- A file is placed where the path of a file to be written leads. -/
theorem mem_place_iff {fs : FileSystem} {targets : List (String × Bytes)}
    {file : Location × Bytes} :
    file ∈ fs.place targets ↔
      ∃ path, (path, file.2) ∈ targets ∧ fs.locateFile path = .ok file.1 := by
  rw [place, List.mem_filterMap]
  constructor
  · rintro ⟨⟨path, bytes⟩, hmem, hfile⟩
    cases hlocate : fs.locateFile path with
    | error fault => rw [hlocate] at hfile; contradiction
    | ok location =>
      rw [hlocate] at hfile
      obtain rfl := Option.some.inj hfile
      exact ⟨path, hmem, hlocate⟩
  · rintro ⟨path, hmem, hlocate⟩
    exact ⟨_, hmem, by rw [hlocate]; rfl⟩

/-- Files whose paths lead to different locations are placed at different locations. -/
theorem Apart.nodup_place {fs : FileSystem} {targets : List (String × Bytes)}
    (h : fs.Apart targets) : ((fs.place targets).map Prod.fst).Nodup := by
  rw [List.nodup_iff_pairwise_ne, List.pairwise_map, place, List.pairwise_filterMap]
  refine h.imp fun {target other} hne => ?_
  intro file hfile otherFile hother
  cases htarget : fs.locateFile target.1 with
  | error fault => rw [htarget] at hfile; contradiction
  | ok location =>
    cases hplace : fs.locateFile other.1 with
    | error fault => rw [hplace] at hother; contradiction
    | ok place =>
      rw [htarget] at hfile
      rw [hplace] at hother
      obtain rfl := Option.some.inj hfile
      obtain rfl := Option.some.inj hother
      exact hne location place htarget hplace

namespace Accepts

variable {fs : FileSystem} {targets : List (String × Bytes)} (h : fs.Accepts targets)
include h

/-- The files that can be written are placed where they can. -/
theorem writableFiles_place : fs.WritableFiles (fs.place targets) := by
  intro file hfile
  obtain ⟨path, hmem, hlocate⟩ := mem_place_iff.mp hfile
  obtain ⟨location, hwritable⟩ := h _ hmem
  obtain rfl : location = file.1 := Except.ok.inj (hwritable.locateFile.symm.trans hlocate)
  exact ⟨path, hwritable⟩

/-- All files are found as they were to be written. -/
theorem holds_store (hapart : fs.Apart targets) {target : String × Bytes}
    (htarget : target ∈ targets) :
    (fs.store (fs.place targets)).Holds target.1 target.2 := by
  obtain ⟨location, hwritable⟩ := h target htarget
  have hfiles := h.writableFiles_place
  have hmem : (location, target.2) ∈ fs.place targets :=
    mem_place_iff.mpr ⟨target.1, htarget, hwritable.locateFile⟩
  exact ⟨location, locate_of_locateFile (hwritable.of_store hfiles).locateFile,
    at?_store_of_mem hfiles.root_notMem hapart.nodup_place hmem⟩

/-- Where no file is to be written everything is as before. -/
theorem at?_store_place {location : Location}
    (hlocation : ∀ target ∈ targets, fs.locateFile target.1 ≠ .ok location) :
    (fs.store (fs.place targets)).at? location = fs.at? location := by
  refine at?_store_of_notMem h.writableFiles_place.root_notMem fun hmem => ?_
  obtain ⟨file, hfile, rfl⟩ := List.mem_map.mp hmem
  obtain ⟨path, htarget, hlocate⟩ := mem_place_iff.mp hfile
  exact hlocation _ htarget hlocate

/-- The order in which files are written does not matter. -/
theorem at?_store_place_perm (hapart : fs.Apart targets) {others : List (String × Bytes)}
    (hperm : targets.Perm others) (location : Location) :
    (fs.store (fs.place others)).at? location = (fs.store (fs.place targets)).at? location :=
  at?_store_perm h.writableFiles_place.root_notMem hapart.nodup_place
    (hperm.filterMap _) location

end Accepts

end AccessPattern.FileSystem
