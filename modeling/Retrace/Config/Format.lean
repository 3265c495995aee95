import Retrace.Config.Basic
import Retrace.Files.Basic
import Retrace.Json.Writer
import Retrace.Toml.Reader
import Retrace.Toml.Writer
import Retrace.Yaml.Reader

/-!
# Formats of configurations

A configuration can be written in three formats. The extension of a file tells
which one it is in.
-/

namespace Retrace

/-- The formats that configurations are written in. -/
inductive ConfigFormat where
  | json
  | toml
  | yaml
deriving DecidableEq

namespace ConfigFormat

/-- The format of a file. -/
def ofPath? (path : String) : Option ConfigFormat :=
  match Path.extension? path with
  | some "json" => some .json
  | some "toml" => some .toml
  | some "yaml" => some .yaml
  | some "yml" => some .yaml
  | _ => none

/-- Reads the value that a text stands for. -/
def value? : ConfigFormat → String → Option Json
  | .json, text => Json.parse? text
  | .toml, text => Toml.parse? text
  | .yaml, text => Yaml.parse? text

end ConfigFormat

namespace Config

/-- Reads a configuration in a given format. -/
def parse? (format : ConfigFormat) (text : String) : Option Config :=
  (format.value? text).bind ofJson?

/-- Reads the contents of a configuration file. -/
def ofFile (path text : String) : Except Fault Config :=
  match ConfigFormat.ofPath? path with
  | none => .error (.config (.unsupportedExtension path))
  | some format =>
    match parse? format text with
    | none => .error (.config (.malformed path))
    | some config => .ok config

end Config

end Retrace
