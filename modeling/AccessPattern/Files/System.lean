import AccessPattern.Files.Fault
import AccessPattern.Path

/-!
# File systems

A file system says what there is at each location: a file, a directory or a device. Paths are
followed part by part from the root or from the working directory; each part on the way has to be
a directory. There are no links, and space is unlimited except on the device that is always full.

`write` changes what is at one location and nothing else, as `at?_put` says, and a failing
operation changes nothing at all. `makeDirectories` prepares the file system that a run starts from
and `listing` shows the one that it leaves; the run itself uses neither.
-/

namespace AccessPattern

/-- The names on the way from the root. -/
abbrev Location := List String

/-- What there is at a location. -/
inductive Entry where
  | file (bytes : Bytes)
  | directory
  /-- The device that takes all bytes and gives none. -/
  | nullDevice
  /-- The device that takes no bytes and never stops giving some. -/
  | fullDevice
deriving DecidableEq, Repr

/-- Files, directories and devices, and the directory where relative paths start. -/
structure FileSystem where
  entries : List (Location × Entry)
  workingDirectory : Location
deriving DecidableEq, Repr

namespace FileSystem

/-- What there is at a location; at the root there is always a directory. -/
def at? (fs : FileSystem) (location : Location) : Option Entry :=
  if location = [] then some .directory else fs.entries.lookup location

/-- The file system with something else at a location. -/
def put (fs : FileSystem) (location : Location) (entry : Entry) : FileSystem :=
  { fs with
    entries := (location, entry) :: fs.entries.filter fun old => old.1 ≠ location }

/-- The longest name in bytes that a directory can hold. -/
def longestName : Nat := 255

/-- The number of bytes from which on a path is too long. -/
def pathLimit : Nat := 4096

/-- The location that a part of a path leads to from a location, which has to be a directory. -/
def step (fs : FileSystem) (here : Location) (part : String) : Except FileFault Location :=
  match fs.at? here with
  | none => .error .notFound
  | some .directory =>
    if part = "" ∨ part = "." then .ok here
    else if part = ".." then .ok here.dropLast
    else if longestName < part.utf8ByteSize then .error .nameTooLong
    else .ok (here ++ [part])
  | some _ => .error .notDirectory

/-- The location that the parts of a path lead to. -/
def follow (fs : FileSystem) (here : Location) (parts : List String) :
    Except FileFault Location :=
  parts.foldlM fs.step here

/-- The location at which a path starts, and its parts. -/
def opening (fs : FileSystem) (path : String) : Except FileFault (Location × List String) :=
  let chars := path.toList
  if '\x00' ∈ chars then .error .nulInPath
  else if chars = [] then .error .notFound
  else if pathLimit ≤ path.utf8ByteSize then .error .nameTooLong
  else
    let start := if chars.head? = some '/' then [] else fs.workingDirectory
    .ok (start, (Path.splitSlashes [] chars).map String.ofList)

/-- The location that a path leads to. -/
def locate (fs : FileSystem) (path : String) : Except FileFault Location := do
  let (start, parts) ← fs.opening path
  fs.follow start parts

/-- Whether there is a directory at the end of a path. -/
def isDirectory (fs : FileSystem) (path : String) : Bool :=
  match fs.locate path with
  | .ok location => fs.at? location == some .directory
  | .error _ => false

/-- The location of a file to be written. A path that ends in a slash can only mean a
directory. -/
def locateFile (fs : FileSystem) (path : String) : Except FileFault Location := do
  let (start, parts) ← fs.opening path
  if parts.getLast? = some "" then
    let named := (parts.reverse.dropWhile (· = "")).reverse
    let _ ← fs.follow start (named.dropLast ++ ["."])
    throw .isDirectory
  else
    let location ← fs.follow start parts
    if fs.at? location = some .directory then throw .isDirectory else pure location

/-- The bytes that can be read from an entry. -/
def contents? : Option Entry → Except FileFault Bytes
  | none => .error .notFound
  | some (.file bytes) => .ok bytes
  | some .directory => .error .isDirectory
  | some .nullDevice => .ok []
  | some .fullDevice => .error .outOfMemory

/-- Read the file at a path. -/
def read (fs : FileSystem) (path : String) : Except FileFault Bytes := do
  contents? (fs.at? (← fs.locate path))

/-- Write a file, in the place of one that may be at the path. -/
def write (fs : FileSystem) (path : String) (bytes : Bytes) : Except FileFault FileSystem := do
  let location ← fs.locateFile path
  match fs.at? location with
  | some .nullDevice => pure fs
  | some .fullDevice => if bytes = [] then pure fs else throw .noSpace
  | _ => pure (fs.put location (.file bytes))

/-- Make a directory at one more part of a path, unless there is something. -/
def makeStep (made : FileSystem × Location) (part : String) :
    Except FileFault (FileSystem × Location) := do
  let (fs, here) := made
  let next ← fs.step here part
  if (fs.at? next).isNone then pure (fs.put next .directory, next) else pure (fs, next)

/-- Make the directory at a path and all that are missing on the way. -/
def makeDirectories (fs : FileSystem) (path : String) : Except FileFault FileSystem := do
  let (start, parts) ← fs.opening path
  let (fs, last) ← parts.foldlM makeStep (fs, start)
  if fs.at? last = some .directory then pure fs else throw .alreadyExists

/-- The entries below the working directory, with their paths from there. The path of a directory
ends in a slash. -/
def listing (fs : FileSystem) : List (String × Entry) :=
  let below := fs.entries.filter fun (location, _) =>
    fs.workingDirectory.isPrefixOf location && location != fs.workingDirectory
  below.map fun (location, entry) =>
    let path := String.intercalate "/" (location.drop fs.workingDirectory.length)
    (if entry = .directory then path ++ "/" else path, entry)

/-- The usual directories and devices, and an empty working directory. -/
def scratch : FileSystem where
  entries :=
    ["bin", "boot", "dev", "etc", "home", "lib", "media", "mnt", "opt", "proc", "root", "run",
      "sbin", "srv", "sys", "tmp", "usr", "var"].map (fun name => ([name], .directory)) ++
    [(["dev", "null"], .nullDevice), (["dev", "full"], .fullDevice),
      (["tmp", "scratch"], .directory)]
  workingDirectory := ["tmp", "scratch"]

/-- What is looked up in a list after all pairs with a key were dropped from it. -/
theorem lookup_filter_ne (entries : List (Location × Entry)) (location other : Location) :
    (entries.filter fun old => old.1 ≠ location).lookup other =
      if other = location then none else entries.lookup other := by
  induction entries with
  | nil => simp
  | cons head tail ih =>
    obtain ⟨name, entry⟩ := head
    by_cases hn : name = location
    · subst hn
      rw [List.filter_cons_of_neg (by simp), ih]
      split
      · rfl
      · rename_i h
        rw [List.lookup_cons, beq_false_of_ne h]
    · rw [List.filter_cons_of_pos (by simpa using hn), List.lookup_cons, List.lookup_cons, ih]
      by_cases ho : other = name
      · subst ho
        simp [hn]
      · rw [beq_false_of_ne ho]

/-- A change at a location other than the root is seen there and nowhere else. -/
theorem at?_put (fs : FileSystem) {location : Location} (h : location ≠ []) (entry : Entry)
    (other : Location) :
    (fs.put location entry).at? other = if other = location then some entry else fs.at? other := by
  unfold at? put
  by_cases ho : other = location
  · subst ho
    simp [h]
  · rw [if_neg ho, List.lookup_cons, beq_false_of_ne ho]
    simp only [lookup_filter_ne, if_neg ho]

end FileSystem

end AccessPattern
