import Retrace.Config.Format

/-!
# Finding configurations

A configuration is looked for in the directory to start from and then in every
directory above it. In each of them the names are tried in a fixed order, and
the first file counts. A configuration can also be asked for by its path, and
then nothing else is looked for.
-/

namespace Retrace.Config

variable {m : Type → Type} [Monad m]

/-- The names of configuration files, the most important first. -/
def fileNames : List String :=
  [".morphmaprc.json", ".morphmaprc.toml", "morphmap.yaml", "morphmap.yml", "morphmap.json"]

/-- The first of some paths at which there is a file. -/
def firstFile? (files : Files m) : List String → m (Option String)
  | [] => return none
  | path :: rest => do
    if ← files.isFile path then return some path else firstFile? files rest

/-- The paths to try, given the directories to look in. -/
def candidates (directories : List String) : List String :=
  directories.flatMap fun directory => fileNames.map (Path.join directory)

/-- Looks for a configuration file from a path on upwards. -/
def discover (files : Files m) (start : String) : m (Except Fault (Option String)) := do
  match ← files.ancestors start with
  | .error fault => return .error (.config (.invalidPath fault))
  | .ok directories => return .ok (← firstFile? files (candidates directories))

/-- Reads the configuration file at a path. -/
def loadFile (files : Files m) (path : String) : m (Except Fault Config) := do
  match ← files.read path with
  | .error fault => return .error (.file path fault)
  | .ok text => return ofFile path text

/-- The configuration that was asked for, or the one that is found from a path on
upwards, if there is any. -/
def load (files : Files m) (custom : Option String) (start : String) :
    m (Except Fault (Option Config)) := do
  match custom with
  | some path =>
    if ← files.isPresent path then return (← loadFile files path).map some
    else return .error (.config (.notFound path))
  | none =>
    match ← discover files start with
    | .error fault => return .error fault
    | .ok none => return .ok none
    | .ok (some path) => return (← loadFile files path).map some

end Retrace.Config
