import Retrace.Cli.Command
import Retrace.Document.Alignment
import Retrace.Fixture
import Retrace.Json.Writer
import Retrace.Range.Depth
import Retrace.Text.Quoted

/-!
# Reports

The texts in which alignments and queries are shown: for people, with ranges
indented by their depth; in short, one line for each range; and as documents.
-/

namespace Retrace.Cli

/-- A text made of lines. -/
def ofLines (lines : List String) : String := String.join (lines.map (· ++ "\n"))

/-- Two blanks for each level. -/
def indent (level : Nat) : String := Json.indentation level

/-- Some spans, or a hyphen for none. -/
def spansText (spans : List Span) : String :=
  if spans.isEmpty then "-" else String.intercalate ", " (spans.map Span.text)

/-- One side of a substitution. -/
def sideText : Option Char → String
  | some c => quotedChar c
  | none => "∅"

/-- An anchor. -/
def anchorText (a : Anchor) : String :=
  let ends := toString a.source ++ "→" ++ toString a.output
  match a.substitution with
  | some s => ends ++ " " ++ sideText s.sourceChar ++ "→" ++ sideText s.outputChar
  | none => ends

/-- The kind and the two spans of a range. -/
def rangeText (r : Range) : String :=
  r.outputKind.name ++ " " ++ r.output.text ++ " ← " ++ r.source.text

/-- The number of characters of a range that are shown. -/
def previewLength : Nat := 24

/-- The start of the output text of a range. -/
def preview (output : Text) (r : Range) : String :=
  quotedText (((output.slice? r.output).getD []).take previewLength)

/-- The lines of a range at a depth. -/
def rangeLines (output : Text) (r : Range) (depth : Nat) : List String :=
  (indent (depth + 1) ++ rangeText r ++ "  " ++ preview output r) ::
    if r.anchors.isEmpty then []
    else [indent (depth + 2) ++ String.intercalate " " (r.anchors.map anchorText)]

/-- The line of a synthesized node. -/
def synthesizedLine (n : SynthesizedNode) : String :=
  let steps :=
    if n.steps.isEmpty then "-" else String.intercalate ", " (n.steps.map (·.transformer))
  "  " ++ n.kind.name ++ " " ++ n.output.text ++ " by " ++ steps

/-- A heading with the number of items under it. -/
def heading (title : String) (count : Nat) : String := title ++ " (" ++ toString count ++ ")"

/-- A part of a report that is left out if it has no items. -/
def partIfAny (title : String) (lines : List String) : List String :=
  if lines.isEmpty then [] else "" :: heading title lines.length :: lines

/-- The lines of the classes. -/
def classLines (c : Classes) : List String :=
  ["", "Characters", "  carried:     " ++ spansText c.carried,
    "  substituted: " ++ spansText c.substituted, "  inserted:    " ++ spansText c.inserted,
    "  removed:     " ++ spansText c.removed]

/-- The lines of the diagnostics. -/
def diagnosticLines (diagnostics : List Diagnostic) : List String :=
  if diagnostics.isEmpty then ["", "✅ No diagnostics"]
  else partIfAny "Diagnostics" (diagnostics.map fun d => "  " ++ d.display)

/-- An alignment for people. -/
def alignmentLines (output : Text) (a : Alignment) : List String :=
  let ranges := a.ranges.ranges
  heading "Ranges" ranges.length ::
    ((ranges.zip (depths ranges)).flatMap fun (r, depth) => rangeLines output r depth) ++
    partIfAny "Synthesized" (a.synthesized.map synthesizedLine) ++
    classLines a.classes ++ diagnosticLines a.diagnostics

/-- An alignment in short. -/
def compactLines (a : Alignment) : List String :=
  (a.ranges.ranges.map fun r =>
    r.outputKind.name ++ " " ++ r.output.text ++ " " ++ r.source.text ++ " " ++
      toString r.anchors.length) ++
    a.diagnostics.map Diagnostic.display

/-- The report of an alignment. -/
def alignmentReport (format : ReportFormat) (f : Fixture) (a : Alignment) : String :=
  match format with
  | .human => ofLines (alignmentLines (.ofString f.output) a)
  | .json => ofLines [a.toJson.pretty]
  | .compact => ofLines (compactLines a)

/-- What is known of an offset. -/
structure QueryResult where
  side : Side
  offset : Nat
  ranges : List Range
  counterpart : Option Nat
  byteClass : Option CharClass

/-- Looks up an offset in an alignment. -/
def QueryResult.of (a : Alignment) (side : Side) (offset : Nat) : QueryResult where
  side := side
  offset := offset
  ranges := a.ranges.containing side offset
  counterpart := a.ranges.counterpart? side offset
  byteClass :=
    match side with
    | .output => a.classes.outputClass? offset
    | .source => if a.classes.isRemoved offset then some .removed else none

/-- The written form of what is known of an offset. -/
def QueryResult.toJson (q : QueryResult) : Json :=
  .obj [("side", q.side.toJson), ("offset", .nat q.offset),
    ("counterpart", .orNull .nat q.counterpart),
    ("class", .orNull (fun c => .str c.name) q.byteClass),
    ("ranges", .list Range.toJson q.ranges)]

/-- A query for people. -/
def queryLines (q : QueryResult) : List String :=
  let counterpart :=
    match q.counterpart with
    | some offset => q.side.other.name ++ " offset " ++ toString offset
    | none => "none"
  ["Query " ++ q.side.name ++ " offset " ++ toString q.offset, "  counterpart: " ++ counterpart] ++
    (q.byteClass.map fun c => "  class: " ++ c.name).toList ++
    (if q.ranges.isEmpty then ["  no range holds this offset"] else []) ++
    q.ranges.mapIdx fun depth r => indent (depth + 1) ++ rangeText r

/-- The report of a query. -/
def queryReport (format : ReportFormat) (q : QueryResult) : String :=
  match format with
  | .human => ofLines (queryLines q)
  | .json => ofLines [q.toJson.pretty]
  | .compact => ofLines [toString q.offset ++ " " ++ (q.counterpart.map toString).getD "-"]

/-- The settings in effect. -/
def optionsReport (fromFile : Bool) (o : Options) : String :=
  let flagText (value : Bool) : String := if value then "true" else "false"
  ofLines (["Configuration:"] ++
    (if fromFile then [] else ["  (no configuration file found, using defaults)"]) ++
    ["  identityLeaves:     " ++ flagText o.identityLeaves,
      "  parentheses:        " ++ flagText o.parentheses,
      "  unsupportedPairing: " ++ o.unsupportedPairing.name,
      "  ambiguousStructure: " ++ o.ambiguousStructure.name])

end Retrace.Cli
