import Retrace.Rule.Function
import Retrace.Rule.Leaf
import Retrace.Text.Blank

/-!
# Changes of shape

A few transformations change the kind of a node in a way that leaves part of its
text in place: quotes come and go, markup becomes calls, an arrow becomes a
function. Every other pair of different kinds is reported as unsupported.
-/

namespace Retrace.Rule

/-- An attribute that became a property: its equals sign turns into a colon. -/
def attributeToProperty (p : Pairing) (s : JsxAttribute) (o : ObjectProperty) : List Anchor :=
  match s.value.bind fun value => p.source.between? s.name value "=",
    p.output.between? o.key o.value ":" with
  | some equals, some colon => p.character equals colon
  | _, _ => []

/-- A name that became a quoted string. -/
def nameToString (p : Pairing) : List Anchor :=
  p.run p.source.start (p.output.start + 1) p.source.node.span.length

/-- A name of markup that became a name. -/
def nameToName (p : Pairing) : List Anchor :=
  p.run p.source.start p.output.start p.source.node.span.length

/-- Text of markup that became a quoted string, without the blanks around it. -/
def textToString (p : Pairing) : List Anchor :=
  match p.source.slice? with
  | some piece =>
    if (trim piece).isEmpty then []
    else
      p.run (p.source.start + byteSize (leadingBlanks piece)) (p.output.start + 1)
        (byteSize (trim piece))
  | none => []

/-- A quoted string that became a name: the opening quote leads to the first
character, which it does not replace. -/
def unquote (p : Pairing) : List Anchor :=
  match (p.source.charAt? p.source.start).filter isQuote with
  | some quote =>
    .substitute p.source.start p.output.start (some quote) none ::
      p.run (p.source.start + 1) p.output.start p.output.node.span.length
  | none => []

/-- A template without expressions that became a quoted string. -/
def requote (p : Pairing) : List Anchor :=
  let sourceClose := p.source.stop - 1
  let outputClose := p.output.stop - 1
  if p.source.start < sourceClose ∧ p.output.start < outputClose then
    delimited p (p.source.start, sourceClose) (p.output.start, outputClose)
  else []

/-- The outcome for a pair of kinds that no rule relates. -/
def unsupported : Outcome := ⟨[], [.unsupported]⟩

/-- The outcome for two constructs of different kinds. -/
def reshape (p : Pairing) (source output : Construct) : Outcome :=
  match source, output with
  | ⟨.jsxAttribute, s⟩, ⟨.objectProperty, o⟩ => .ofAnchors (attributeToProperty p s o)
  | ⟨.jsxIdentifier, _⟩, ⟨.stringLiteral, _⟩ => .ofAnchors (nameToString p)
  | ⟨.jsxIdentifier, _⟩, ⟨.identifier, _⟩ => .ofAnchors (nameToName p)
  | ⟨.jsxText, _⟩, ⟨.stringLiteral, _⟩ => .ofAnchors (textToString p)
  | ⟨.stringLiteral, _⟩, ⟨.identifier, _⟩ => .ofAnchors (unquote p)
  | ⟨.templateLiteral, s⟩, ⟨.stringLiteral, _⟩ =>
    if s.expressions.isEmpty then .ofAnchors (requote p) else unsupported
  | ⟨.arrowFunctionExpression, s⟩, ⟨.functionExpression, o⟩ =>
    .ofAnchors (arrowToFunction p s o)
  | _, _ => unsupported

end Retrace.Rule
