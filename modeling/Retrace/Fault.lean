import Retrace.Fixture

/-!
# Faults

Everything that can go wrong before an alignment starts: trees, fixtures, links,
configurations and files. Each fault belongs to a kind, and the kind says whether
it makes sense to go on with other inputs.
-/

namespace Retrace

/-- Why a file could not be used. -/
inductive FileFault where
  | missing
  | notDirectory
  | isDirectory
  | other (wording : String)
deriving DecidableEq

/-- The wording of the fault of a file. -/
def FileFault.message : FileFault → String
  | .missing => "No such file or directory (os error 2)"
  | .notDirectory => "Not a directory (os error 20)"
  | .isDirectory => "Is a directory (os error 21)"
  | .other wording => wording

/-- What can be wrong with a configuration. -/
inductive ConfigFault where
  | notFound (path : String)
  | unsupportedExtension (path : String)
  | malformed (path : String)
  | invalidPath (fault : FileFault)
deriving DecidableEq

/-- The wording of the fault of a configuration. -/
def ConfigFault.message : ConfigFault → String
  | .notFound path => "Config file not found: " ++ path
  | .unsupportedExtension path =>
    path ++ ": unsupported file extension (expected .json, .toml, .yaml or .yml)"
  | .malformed path => path ++ ": not a configuration"
  | .invalidPath fault => "Invalid path: " ++ fault.message

/-- A fault. -/
inductive Fault where
  | tree (fault : TreeFault)
  | fixture (fault : FixtureFault)
  | document
  | provenance (fault : ProvenanceFault)
  | config (fault : ConfigFault)
  | file (path : String) (fault : FileFault)
deriving DecidableEq

/-- The kinds of faults. -/
inductive FaultKind where
  | tree
  | fixture
  | provenance
  | config
  | file
deriving DecidableEq

namespace Fault

/-- The kind of a fault. -/
def kind : Fault → FaultKind
  | .tree _ => .tree
  | .fixture (.tree ..) => .tree
  | .fixture (.provenance _) => .provenance
  | .document => .fixture
  | .provenance _ => .provenance
  | .config _ => .config
  | .file .. => .file

/-- It makes sense to go on with other inputs. -/
def isRecoverable (f : Fault) : Bool := f.kind = .provenance || f.kind = .fixture

/-- The wording of a fault. -/
def message : Fault → String
  | .tree fault => "Invalid tree: " ++ fault.message
  | .fixture (.tree side fault) =>
    "Invalid tree: " ++ side.name ++ " tree: Invalid tree: " ++ fault.message
  | .fixture (.provenance fault) => "Provenance error: " ++ fault.message
  | .document => "Fixture error: invalid fixture document"
  | .provenance fault => "Provenance error: " ++ fault.message
  | .config fault => "Configuration error: " ++ fault.message
  | .file path fault => "IO error for path '" ++ path ++ "': " ++ fault.message

end Fault

end Retrace
