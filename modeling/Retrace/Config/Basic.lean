import Retrace.Json.Value
import Retrace.Options

/-!
# Configurations

What a configuration says, everything in it being optional, and the options that
come of it once the gaps are filled with the defaults.
-/

namespace Retrace

namespace Level

/-- The written form of a level. -/
def toJson (l : Level) : Json := .str l.name

/-- Reads a level. -/
def ofJson? (value : Json) : Option Level := value.asOneOf? all name

end Level

/-- The levels of the diagnostics. -/
structure LevelConfig where
  unsupportedPairing : Option Level
  ambiguousStructure : Option Level
deriving DecidableEq

namespace LevelConfig

/-- The written form of the levels. -/
def toJson (c : LevelConfig) : Json :=
  .obj [("unsupportedPairing", .orNull Level.toJson c.unsupportedPairing),
    ("ambiguousStructure", .orNull Level.toJson c.ambiguousStructure)]

/-- Reads the levels. -/
def ofJson? (value : Json) : Option LevelConfig := do
  let fields ← value.asFields?
  return ⟨← Json.optional? fields "unsupportedPairing" Level.ofJson?,
    ← Json.optional? fields "ambiguousStructure" Level.ofJson?⟩

end LevelConfig

/-- The settings of an alignment. -/
structure AlignConfig where
  identityLeaves : Option Bool
  parentheses : Option Bool
  diagnostics : Option LevelConfig
deriving DecidableEq

namespace AlignConfig

/-- The written form of the settings. -/
def toJson (c : AlignConfig) : Json :=
  .obj [("identityLeaves", .orNull .bool c.identityLeaves),
    ("parentheses", .orNull .bool c.parentheses),
    ("diagnostics", .orNull LevelConfig.toJson c.diagnostics)]

/-- Reads the settings. -/
def ofJson? (value : Json) : Option AlignConfig := do
  let fields ← value.asFields?
  return ⟨← Json.optional? fields "identityLeaves" Json.asBool?,
    ← Json.optional? fields "parentheses" Json.asBool?,
    ← Json.optional? fields "diagnostics" LevelConfig.ofJson?⟩

/-- The settings with every gap filled. -/
def options (c : AlignConfig) : Options :=
  { identityLeaves := c.identityLeaves.getD Options.default.identityLeaves
    parentheses := c.parentheses.getD Options.default.parentheses
    unsupportedPairing :=
      (c.diagnostics.bind (·.unsupportedPairing)).getD Options.default.unsupportedPairing
    ambiguousStructure :=
      (c.diagnostics.bind (·.ambiguousStructure)).getD Options.default.ambiguousStructure }

end AlignConfig

/-- A configuration. -/
structure Config where
  /-- Where the schema of the file can be found; of no further use. -/
  schema : Option String
  align : Option AlignConfig
deriving DecidableEq

namespace Config

/-- A configuration that says nothing. -/
def empty : Config := ⟨none, none⟩

/-- The written form of a configuration. -/
def toJson (c : Config) : Json :=
  .obj (Json.fieldIfSome "$schema" .str c.schema ++
    Json.fieldIfSome "align" AlignConfig.toJson c.align)

/-- Reads a configuration. -/
def ofJson? (value : Json) : Option Config := do
  let fields ← value.asFields?
  return ⟨← Json.optional? fields "$schema" Json.asString?,
    ← Json.optional? fields "align" AlignConfig.ofJson?⟩

/-- The options that a configuration asks for. -/
def options (c : Config) : Options :=
  match c.align with
  | some align => align.options
  | none => Options.default

/-- The configuration to start from: every default spelled out. -/
def starter : Config :=
  let defaults := Options.default
  { schema := none
    align := some
      { identityLeaves := some defaults.identityLeaves
        parentheses := some defaults.parentheses
        diagnostics := some
          { unsupportedPairing := some defaults.unsupportedPairing
            ambiguousStructure := some defaults.ambiguousStructure } } }

end Config

/-- The written form of options. -/
def Options.toJson (o : Options) : Json :=
  .obj [("identityLeaves", .bool o.identityLeaves), ("parentheses", .bool o.parentheses),
    ("unsupportedPairing", o.unsupportedPairing.toJson),
    ("ambiguousStructure", o.ambiguousStructure.toJson)]

end Retrace
