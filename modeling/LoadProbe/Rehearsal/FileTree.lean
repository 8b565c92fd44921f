import LoadProbe.Files

/-!
# A file tree in memory

The files and directories below one root, for rehearsals. Paths are followed segment by segment
from the working directory: `.` and an empty segment stay where they are, `..` goes up, and every
segment but the last has to be a directory, the last one too if a separator follows it. Above the
root there are directories and nothing that has a name.
-/

namespace LoadProbe.Rehearsal

/-- The segments of a path. -/
def segments (path : String) : List String :=
  (path.toList.splitOn '/').map String.ofList

structure FileTree where
  /-- The absolute path of the root. -/
  root : String
  /-- The working directory, from the root on. -/
  working : List String
  files : List (List String × Content)
  directories : List (List String)

/-- A path and the paths of all that it lies in. -/
def pathsTo (path : List String) : List (List String) :=
  (List.range (path.length + 1)).map path.take

/-- A place that a path leads to. -/
inductive Place where
  /-- So many segments below the root, the last one first. -/
  | inside (path : List String)
  /-- A directory that is not below the root. -/
  | outside

namespace FileTree

/-- A tree of empty directories down to the working directory. -/
def empty (root : String) (working : List String) : FileTree :=
  ⟨root, working, [], pathsTo working⟩

/-- The tree with a directory, and all that it lies in. -/
def withDirectory (t : FileTree) (path : List String) : FileTree :=
  { t with directories := pathsTo path ++ t.directories }

/-- The tree with a file, and all that it lies in. -/
def withFile (t : FileTree) (path : List String) (content : Content) : FileTree :=
  { t.withDirectory path.dropLast with files := (path, content) :: t.files }

/-- A place is a directory. -/
def isDirectory (t : FileTree) : Place → Bool
  | .inside path => path.isEmpty || t.directories.contains path.reverse
  | .outside => true

/-- What stands at a place. -/
def at? (t : FileTree) (place : Place) : Option Content :=
  if t.isDirectory place then some .directory
  else
    match place with
    | .inside path => t.files.lookup path.reverse
    | .outside => none

/-- The place that a segment leads to from a directory. -/
def next? (segment : String) : Place → Option Place
  | .inside path =>
    if segment = "" || segment = "." then some (.inside path)
    else if segment = ".." then
      match path with
      | [] => some .outside
      | _ :: up => some (.inside up)
    else some (.inside (segment :: path))
  | .outside =>
    if segment = "" || segment = "." || segment = ".." then some .outside else none

/-- The place that segments lead to. -/
def walk? (t : FileTree) : Place → List String → Option Place
  | place, [] => some place
  | place, segment :: rest =>
    if t.isDirectory place then (next? segment place).bind fun p => t.walk? p rest else none

/-- The tree as a file system. -/
def toFiles (t : FileTree) : Files := fun path =>
  let below := (t.root ++ "/").toList
  let start : Place × String :=
    if below.isPrefixOf path.toList then (.inside [], String.ofList (path.toList.drop below.length))
    else if Path.isAbsolute path then (.outside, path)
    else (.inside t.working.reverse, path)
  if path.isEmpty then none else (t.walk? start.1 (segments start.2)).bind t.at?

end FileTree

end LoadProbe.Rehearsal
