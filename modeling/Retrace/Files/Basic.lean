import Retrace.Fault

/-!
# Files

What the program asks of the place where its files are kept. The operations are
values of a structure over any monad, so the same program runs on the files of
the machine and on a tree of files in memory (`Retrace.Files.Tree`).
-/

namespace Retrace

/-- The operations on files. Paths are taken as they are written. -/
structure Files (m : Type → Type) where
  /-- The contents of a file. -/
  read : String → m (Except FileFault String)
  /-- Replaces the contents of a file, which need not be there yet. -/
  write : String → String → m (Except FileFault Unit)
  /-- There is a file or directory at the path. -/
  isPresent : String → m Bool
  /-- There is a file at the path. -/
  isFile : String → m Bool
  /-- The full path of what is at the path, and of every directory it lies in, the
  nearest first. -/
  ancestors : String → m (Except FileFault (List String))

namespace Path

/-- The parts of a path between its slashes. -/
def parts (path : String) : List String := (path.splitOn "/")

/-- The path of an entry of a directory. -/
def join (directory name : String) : String :=
  if directory.endsWith "/" then directory ++ name else directory ++ "/" ++ name

/-- The last name of a path. Slashes at the end and steps on the spot are passed
over; a path that ends by going up has none. -/
def fileName? (path : String) : Option String :=
  match ((parts path).filter fun part => part ≠ "" && part ≠ ".").getLast? with
  | some ".." => none
  | name => name

/-- What follows the last point of a name, unless the name starts with it. -/
def nameExtension? (name : String) : Option String :=
  match name.splitOn "." with
  | [] => none
  | [_] => none
  | ["", _] => none
  | _ :: rest => rest.getLast?

/-- What follows the last point of the last name of a path. -/
def extension? (path : String) : Option String := (fileName? path).bind nameExtension?

end Path

end Retrace
