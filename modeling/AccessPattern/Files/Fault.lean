/-!
# Faults of files

The reasons for which a file cannot be opened, written or read as text, with the wording and the
number under which the operating system reports them.
-/

namespace AccessPattern

/-- Why an operation on a file failed. -/
inductive FileFault where
  /-- There is nothing at the path, or the path is empty. -/
  | notFound
  /-- A part of the path that should be a directory is something else. -/
  | notDirectory
  /-- There is a directory at the path. -/
  | isDirectory
  /-- There is something at the path where a new directory should be. -/
  | alreadyExists
  /-- The path, or one name in it, is too long. -/
  | nameTooLong
  /-- The device takes no further bytes. -/
  | noSpace
  /-- The device never stops giving bytes. -/
  | outOfMemory
  /-- The path holds a NUL character. -/
  | nulInPath
  /-- The bytes are not the UTF-8 form of a text. -/
  | notText
  /-- Any other reason, in the words of the operating system. -/
  | other (words : String)
deriving DecidableEq, Repr

/-- The wording of a file fault. -/
def FileFault.message : FileFault → String
  | .notFound => "No such file or directory (os error 2)"
  | .notDirectory => "Not a directory (os error 20)"
  | .isDirectory => "Is a directory (os error 21)"
  | .alreadyExists => "File exists (os error 17)"
  | .nameTooLong => "File name too long (os error 36)"
  | .noSpace => "No space left on device (os error 28)"
  | .outOfMemory => "Cannot allocate memory (os error 12)"
  | .nulInPath => "file name contained an unexpected NUL byte"
  | .notText => "stream did not contain valid UTF-8"
  | .other words => words

/-- The contents of a file. -/
abbrev Bytes := List UInt8

namespace Bytes

/-- The UTF-8 form of a text. -/
def ofText (text : String) : Bytes :=
  text.toUTF8.data.toList

/-- The text whose UTF-8 form the bytes are. -/
def toText? (bytes : Bytes) : Option String :=
  String.fromUTF8? ⟨bytes.toArray⟩

/-- A text is read back from its UTF-8 form. -/
@[simp] theorem toText?_ofText (text : String) : toText? (ofText text) = some text := by
  simpa [toText?, ofText, String.fromUTF8?, String.fromUTF8] using text.isValidUTF8

end Bytes

end AccessPattern
