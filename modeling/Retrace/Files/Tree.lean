import Retrace.Files.Basic

/-!
# Files in memory

A tree of files is a list of entries, each with the names that lead to it from
the top. Directories are there if they were made or if something lies in them.
Paths are followed one part at a time: every part but the last has to lead to a
directory, and going up from the top stays at the top.
-/

namespace Retrace

/-- What a path can lead to. -/
inductive FileEntry where
  | file (contents : String)
  | directory
deriving DecidableEq

/-- A tree of files, and the directory that paths start from. -/
structure FileTree where
  here : List String
  entries : List (List String × FileEntry)
deriving DecidableEq

namespace FileTree

/-- A tree in which there is only the directory that paths start from. -/
def empty (here : List String) : FileTree := ⟨here, [(here, .directory)]⟩

/-- What some names lead to from the top. -/
def entry? (t : FileTree) (names : List String) : Option FileEntry :=
  match t.entries.lookup names with
  | some entry => some entry
  | none => if t.entries.any fun e => names.isPrefixOf e.1 then some .directory else none

/-- Follows the parts of a path from a directory. The last one may lead to
nothing. -/
def follow (t : FileTree) : List String → List String → Except FileFault (List String)
  | position, [] => .ok position
  | position, part :: rest =>
    match t.entry? position with
    | none => .error .missing
    | some (.file _) => .error .notDirectory
    | some .directory =>
      if part = "" ∨ part = "." then follow t position rest
      else if part = ".." then follow t position.dropLast rest
      else follow t (position ++ [part]) rest

/-- The names that a path leads to. -/
def resolve (t : FileTree) (path : String) : Except FileFault (List String) :=
  if path.isEmpty then .error .missing
  else t.follow (if path.startsWith "/" then [] else t.here) (Path.parts path)

/-- What a path leads to, with the names that lead to it. -/
def locate (t : FileTree) (path : String) : Except FileFault (List String × FileEntry) :=
  match t.resolve path with
  | .error fault => .error fault
  | .ok names =>
    match t.entry? names with
    | none => .error .missing
    | some entry => .ok (names, entry)

/-- The contents of a file. -/
def read (t : FileTree) (path : String) : Except FileFault String :=
  match t.locate path with
  | .error fault => .error fault
  | .ok (_, .directory) => .error .isDirectory
  | .ok (_, .file contents) => .ok contents

/-- The tree with another entry at some names. -/
def put (t : FileTree) (names : List String) (entry : FileEntry) : FileTree :=
  { t with entries := (names, entry) :: t.entries.filter fun e => e.1 ≠ names }

/-- Replaces the contents of a file. -/
def write (t : FileTree) (path contents : String) : Except FileFault FileTree :=
  match t.resolve path with
  | .error fault => .error fault
  | .ok names =>
    if t.entry? names = some .directory then .error .isDirectory
    else .ok (t.put names (.file contents))

/-- There is something at the path. -/
def isPresent (t : FileTree) (path : String) : Bool := (t.locate path).isOk

/-- There is a file at the path. -/
def isFile (t : FileTree) (path : String) : Bool := (t.read path).isOk

/-- The full path of some names. -/
def pathOf (names : List String) : String := "/" ++ String.intercalate "/" names

/-- The full path of what is at a path, and of every directory it lies in, the
nearest first. -/
def ancestors (t : FileTree) (path : String) : Except FileFault (List String) :=
  (t.locate path).map fun (names, _) =>
    ((List.range (names.length + 1)).map fun n => pathOf (names.take n)).reverse

/-- Adds an entry at a path under the directory that paths start from. A path that
ends in a slash is a directory. -/
def add (t : FileTree) (path contents : String) : FileTree :=
  let names := t.here ++ (Path.parts path).filter (· ≠ "")
  t.put names (if path.endsWith "/" then .directory else .file contents)

/-- The operations on a tree of files. -/
def files : Files (StateM FileTree) where
  read path := return (← get).read path
  write path contents := do
    match (← get).write path contents with
    | .error fault => return .error fault
    | .ok t =>
      set t
      return .ok ()
  isPresent path := return (← get).isPresent path
  isFile path := return (← get).isFile path
  ancestors path := return (← get).ancestors path

end FileTree

end Retrace
