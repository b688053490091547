/-!
# Path texts

Paths are handled as texts. A path is split at its slashes; the last part, after any trailing
slashes and `.` parts, is its file name unless it is `..`. The file name splits at its last dot
into stem and extension, except that a leading dot belongs to the stem.

`suffixed` puts a label between stem and extension, which gives each block size its own file.
-/

namespace AccessPattern.Path

/-- Split a text at every slash; the parts are one more than the slashes. -/
def splitSlashes (current : List Char) : List Char → List (List Char)
  | [] => [current.reverse]
  | '/' :: rest => current.reverse :: splitSlashes [] rest
  | c :: rest => splitSlashes (c :: current) rest

/-- The opening of a path that never counts as a part of it: the root, or a leading `.`. -/
def splitOpening : List Char → List Char × List Char
  | '/' :: rest => (['/'], rest)
  | ['.'] => (['.'], [])
  | '.' :: '/' :: rest => (['.'], '/' :: rest)
  | path => ([], path)

/-- Whether a part names nothing: two slashes in a row, or a `.`. -/
def isIdle (part : List Char) : Bool :=
  part == [] || part == ['.']

/-- A path without its file name, and that file name if it has one. -/
def splitFileName (path : List Char) : List Char × Option (List Char) :=
  let (opening, body) := splitOpening path
  match (splitSlashes [] body).reverse.dropWhile isIdle with
  | [] => (path, none)
  | name :: before =>
    if name = ['.', '.'] then (path, none)
    else (opening ++ ['/'].intercalate (before.dropWhile isIdle).reverse, some name)

/-- Split a file name at its last dot, unless the dot opens the name. -/
def splitExtension (name : List Char) : List Char × Option (List Char) :=
  let extension := (name.reverse.takeWhile (· ≠ '.')).reverse
  match (name.reverse.dropWhile (· ≠ '.')).reverse.dropLast with
  | [] => (name, none)
  | stem => (stem, some extension)

/-- A directory path extended by a name. -/
def join (directory name : List Char) : List Char :=
  match directory.getLast? with
  | none => name
  | some '/' => directory ++ name
  | some _ => directory ++ '/' :: name

/-- A path whose file name has the label after its stem. -/
def suffixedChars (path label : List Char) : List Char :=
  match splitFileName path with
  | (directory, some name) =>
    match splitExtension name with
    | (stem, some extension) => join directory (stem ++ '_' :: label ++ '.' :: extension)
    | (stem, none) => join directory (stem ++ '_' :: label)
  | (directory, none) => join directory ('_' :: label)

/-- A path whose file name has the label after its stem. -/
def suffixed (path label : String) : String :=
  String.ofList (suffixedChars path.toList label.toList)

/-- The path of the manifest that describes the testset at a path. -/
def manifest (testset : String) : String :=
  testset ++ ".json"

end AccessPattern.Path
