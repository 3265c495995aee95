import Retrace.Json.Value
import Retrace.Options

/-!
# The schema of configurations

The description of configuration files that editors can check them against. It may name
the schema that it keeps to itself; which one this is lies with the generator of schemas.
-/

namespace Retrace.Config

/-- A field with a description in front of what else is said about it. -/
def described (text : String) (more : List (String × Json)) : Json :=
  .obj (("description", .str text) :: more)

/-- A value of a simple type that may be null. -/
def simpleOrNull (type text : String) : Json :=
  described text [("type", .arr [.str type, .str "null"])]

/-- A value that is described elsewhere and may be null. -/
def referenceOrNull (target text : String) : Json :=
  described text
    [("anyOf", .arr [.obj [("$ref", .str ("#/$defs/" ++ target))], .obj [("type", .str "null")]])]

/-- An object with some fields. -/
def record (text : String) (fields : List (String × Json)) : Json :=
  described text [("type", .str "object"), ("properties", .obj fields)]

/-- What a level does. -/
def levelText : Level → String
  | .off => "Suppress the diagnostic"
  | .info => "Informational message"
  | .warn => "Warning"
  | .error => "Error (makes the CLI exit non-zero)"

/-- The descriptions that others refer to. -/
def definitions : List (String × Json) :=
  [("AlignConfiguration",
      record "Alignment engine settings"
        [("identityLeaves",
            simpleOrNull "boolean"
              "Anchor every character of same-kind leaves whose text is identical"),
          ("parentheses",
            simpleOrNull "boolean" "Anchor wrapping parentheses when both nodes carry them"),
          ("diagnostics",
            referenceOrNull "DiagnosticsConfiguration"
              "Severity of surfaced alignment diagnostics")]),
    ("DiagnosticsConfiguration",
      record "Per-diagnostic severity overrides"
        [("unsupportedPairing",
            referenceOrNull "RuleSeverity"
              "Predecessor/output kind combination without a rule"),
          ("ambiguousStructure",
            referenceOrNull "RuleSeverity"
              "Structure the engine declines to align, such as array holes")]),
    ("RuleSeverity",
      described "Rule severity levels"
        [("oneOf",
            .list
              (fun level =>
                described (levelText level) [("type", .str "string"), ("const", .str level.name)])
              Level.all)])]

/-- The schema of configurations, given the address of its own schema. -/
def schemaDocument (metaSchema : Option String) : Json :=
  .obj (Json.fieldIfSome "$schema" .str metaSchema ++
    [("title", .str "MorphConfig"),
      ("description", .str "Top-level configuration file"),
      ("type", .str "object"),
      ("properties",
        .obj [("$schema", simpleOrNull "string" "JSON Schema reference, ignored by the loader"),
          ("align", referenceOrNull "AlignConfiguration" "Alignment engine settings")]),
      ("$defs", .obj definitions)])

end Retrace.Config
