/-!
# Files

What the tester needs of a file system: what stands at a path, the path of the directory that
holds a file, and the path of a file as seen from a directory.
-/

namespace LoadProbe

/-- What is found where something exists. -/
inductive Content where
  /-- A file that reads as a text. -/
  | text (s : String)
  /-- Something that cannot be read as a text, and why. -/
  | unreadable (reason : String)
deriving DecidableEq, Repr

namespace Content

/-- A directory exists and does not read as a text. -/
def directory : Content := .unreadable "Is a directory (os error 21)"

/-- What the bytes of a file read as. -/
def ofBytes (bytes : ByteArray) : Content :=
  match String.fromUTF8? bytes with
  | some s => .text s
  | none => .unreadable "stream did not contain valid UTF-8"

end Content

/-- A file system: what stands at a path, `none` where nothing exists. -/
abbrev Files := String → Option Content

/-- The text that can be read at a path. -/
def Files.text? (files : Files) (path : String) : Option String :=
  match files path with
  | some (.text s) => some s
  | _ => none

namespace Path

def isAbsolute (path : String) : Bool :=
  path.toList.head? == some '/'

/-- A path that has been turned around, without the separators and the segments `.` at its end. -/
def trimReversed : List Char → List Char
  | '/' :: rest => trimReversed rest
  | ['.'] => ['.']
  | '.' :: '/' :: rest => trimReversed ('/' :: rest)
  | rest => rest

/-- The directory that the last segment of a path lies in: empty for a single segment. -/
def parent (path : String) : String :=
  let last := trimReversed path.toList.reverse
  let directory := trimReversed (last.dropWhile (· != '/'))
  if directory.isEmpty && isAbsolute path then "/" else String.ofList directory.reverse

/-- A path as seen from a directory. -/
def within (directory path : String) : String :=
  if isAbsolute path || directory.isEmpty then path
  else if directory.toList.getLast? == some '/' then directory ++ path
  else directory ++ "/" ++ path

end Path

end LoadProbe
