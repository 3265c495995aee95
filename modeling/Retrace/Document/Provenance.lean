import Retrace.Document.Syntax
import Retrace.Provenance.Table

/-!
# Links in documents

The written form of links and tables. A table is an object whose keys are the
numbers of the output nodes in plain decimal notation. What is not known is left
out.
-/

namespace Retrace

namespace Predecessor

/-- The written form of a predecessor. -/
def toJson (p : Predecessor) : Json :=
  .obj ([("kind", p.kind.toJson), ("span", p.span.toJson)] ++
    Json.fieldIfSome "node" NodeId.toJson p.node)

/-- Reads a predecessor. -/
def ofJson? (value : Json) : Option Predecessor := do
  let fields ← value.asFields?
  let kind ← Json.required? fields "kind" Kind.ofJson?
  let span ← Json.required? fields "span" Span.ofJson?
  return ⟨kind, span, ← Json.maybeNode? fields "node"⟩

end Predecessor

namespace Step

/-- The written form of a step. -/
def toJson (s : Step) : Json :=
  .obj (("transformer", .str s.transformer) :: Json.fieldIfSome "location" .str s.location)

/-- Reads a step. -/
def ofJson? (value : Json) : Option Step := do
  let fields ← value.asFields?
  return ⟨← Json.text? fields "transformer", ← Json.optional? fields "location" Json.asString?⟩

/-- The field of some steps, which is left out if there are none. -/
def fieldOf (steps : List Step) : List (String × Json) :=
  if steps.isEmpty then [] else [("steps", .list toJson steps)]

/-- Reads the steps of an object. -/
def listOf? (fields : List (String × Json)) : Option (List Step) :=
  Json.defaulted? fields "steps" [] (Json.asList? ofJson?)

end Step

/-- Reads the predecessors of an object. -/
def Predecessor.listOf? (fields : List (String × Json)) : Option (List Predecessor) :=
  Json.defaulted? fields "predecessors" [] (Json.asList? ofJson?)

namespace Link

/-- The written form of a link. -/
def toJson (l : Link) : Json :=
  .obj (("predecessors", .list Predecessor.toJson l.predecessors) :: Step.fieldOf l.steps)

/-- Reads a link. -/
def ofJson? (value : Json) : Option Link := do
  let fields ← value.asFields?
  return ⟨← Predecessor.listOf? fields, ← Step.listOf? fields⟩

end Link

/-- The value of a digit. -/
def digitOf? (c : Char) : Option Nat := if c.isDigit then some (c.toNat - '0'.toNat) else none

/-- Reads a number in plain decimal notation: digits only, and no zero in front of
others. -/
def plainDecimal? (text : String) : Option Nat := do
  let digits ← text.toList.mapM digitOf?
  match digits with
  | [] => none
  | [d] => some d
  | 0 :: _ => none
  | _ => some (digits.foldl (fun n d => n * 10 + d) 0)

namespace Table

/-- Reads the key of an entry. -/
def keyOf? (text : String) : Option NodeId := do
  let n ← plainDecimal? text
  if n < offsetBound then some ⟨n⟩ else none

/-- The written form of a table. -/
def toJson (t : Table) : Json :=
  .obj (t.entries.map fun e => (toString e.1.index, e.2.toJson))

/-- Reads an entry of a table. -/
def entryOf? (field : String × Json) : Option (NodeId × Link) := do
  return (← keyOf? field.1, ← Link.ofJson? field.2)

/-- Reads a table. -/
def ofJson? (value : Json) : Option Table := do
  let fields ← value.asFields?
  return ofList (← fields.mapM entryOf?)

end Table

end Retrace
