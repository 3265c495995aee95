import Retrace.Json.Value
import Retrace.Syntax.Tree

/-!
# Trees in documents

The written form of nodes and trees. A span is a pair of offsets. A node is an
object with its span, the name of its kind under `type`, and the fields of its
payload; it is marked as parenthesized only if it is.

When a node is read, fields that its kind does not know are passed over, lists
and flags that are missing are empty or unset, and a node that may be missing
can be left out or null. The kind can also be given by its number. As the kind may
follow the other fields, a node is read as a whole, and every field of it has to be
readable.
-/

namespace Retrace

namespace Json

/-- An offset or the number of a node. -/
def asOffset? (value : Json) : Option Nat := value.asNatBelow? offsetBound

end Json

namespace Span

/-- The written form of a span. -/
def toJson (s : Span) : Json := .arr [.nat s.start, .nat s.stop]

/-- Reads a span; its ends have to be in order. -/
def ofJson? : Json → Option Span
  | .arr [start, stop] => do between? (← start.asOffset?) (← stop.asOffset?)
  | _ => none

end Span

namespace NodeId

/-- The written form of a reference to a node. -/
def toJson (id : NodeId) : Json := .nat id.index

/-- Reads a reference to a node. -/
def ofJson? (value : Json) : Option NodeId := value.asOffset?.map mk

end NodeId

namespace Kind

/-- The written form of a kind. -/
def toJson (kind : Kind) : Json := .str kind.name

/-- Reads a kind by its name. -/
def ofJson? (value : Json) : Option Kind := value.asName?.bind ofName?

/-- Reads a kind by its name within an object that is read as a whole. -/
def ofInnerJson? (value : Json) : Option Kind := value.asInnerName?.bind ofName?

/-- Reads the kind of a node, by its name or its number. -/
def ofTag? : Json → Option Kind
  | .str name => ofName? name
  | .int n => if 0 ≤ n then ofIndex? n.toNat else none
  | _ => none

end Kind

namespace MethodKind

/-- Every kind of method. -/
def all : List MethodKind := [.method, .get, .set]

/-- The name of a kind of method. -/
def name : MethodKind → String
  | .method => "method"
  | .get => "get"
  | .set => "set"

/-- The written form of a kind of method. -/
def toJson (kind : MethodKind) : Json := .str kind.name

/-- Reads a kind of method. -/
def ofJson? (value : Json) : Option MethodKind := do
  let written ← value.asInnerName?
  all.find? fun kind => kind.name == written

end MethodKind

/-- The written form of the value of a field. -/
def FieldValue.toJson : FieldValue → Json
  | .node id => id.toJson
  | .optional id => .orNull NodeId.toJson id
  | .list ids => .list NodeId.toJson ids
  | .sparse ids => .list (.orNull NodeId.toJson) ids
  | .flag value => .bool value
  | .text value => .str value
  | .numeral value => .real value
  | .method value => value.toJson

/-- The written form of a field. -/
def Field.toJson (f : Field) : String × Json := (f.name, f.value.toJson)

namespace Json

/-- A reference to a node. -/
def node? (fields : List (String × Json)) (name : String) : Option NodeId :=
  required? fields name NodeId.ofJson?

/-- A reference to a node that may be missing. -/
def maybeNode? (fields : List (String × Json)) (name : String) : Option (Option NodeId) :=
  optional? fields name NodeId.ofJson?

/-- References to nodes. -/
def nodes? (fields : List (String × Json)) (name : String) : Option (List NodeId) :=
  defaulted? fields name [] (asList? NodeId.ofJson?)

/-- A reference to a node, or null for a hole. -/
def holeOrNode? : Json → Option (Option NodeId)
  | .null => some none
  | value => (NodeId.ofJson? value).map some

/-- References to nodes, with holes. -/
def sparse? (fields : List (String × Json)) (name : String) : Option (List (Option NodeId)) :=
  defaulted? fields name [] (asList? holeOrNode?)

/-- A flag. -/
def flag? (fields : List (String × Json)) (name : String) : Option Bool :=
  defaulted? fields name false asBool?

/-- A string. -/
def text? (fields : List (String × Json)) (name : String) : Option String :=
  required? fields name asString?

end Json

open Json in
/-- Reads the payload of a node of a given kind. -/
def Payload.ofFields? (fields : List (String × Json)) : (kind : Kind) → Option (Payload kind)
  | .program => do return ⟨← nodes? fields "body"⟩
  | .expressionStatement => do return ⟨← node? fields "expression"⟩
  | .blockStatement => do return ⟨← nodes? fields "body"⟩
  | .emptyStatement => some ()
  | .debuggerStatement => some ()
  | .ifStatement => do
    return ⟨← node? fields "test", ← node? fields "consequent", ← maybeNode? fields "alternate"⟩
  | .forStatement => do
    return ⟨← maybeNode? fields "init", ← maybeNode? fields "test",
      ← maybeNode? fields "update", ← node? fields "body"⟩
  | .forInStatement => do
    return ⟨← node? fields "left", ← node? fields "right", ← node? fields "body"⟩
  | .forOfStatement => do
    return ⟨← node? fields "left", ← node? fields "right", ← node? fields "body",
      ← flag? fields "await"⟩
  | .whileStatement => do return ⟨← node? fields "test", ← node? fields "body"⟩
  | .doWhileStatement => do return ⟨← node? fields "test", ← node? fields "body"⟩
  | .withStatement => do return ⟨← node? fields "object", ← node? fields "body"⟩
  | .breakStatement => do return ⟨← maybeNode? fields "label"⟩
  | .continueStatement => do return ⟨← maybeNode? fields "label"⟩
  | .returnStatement => do return ⟨← maybeNode? fields "argument"⟩
  | .throwStatement => do return ⟨← maybeNode? fields "argument"⟩
  | .switchStatement => do return ⟨← node? fields "discriminant", ← nodes? fields "cases"⟩
  | .switchCase => do return ⟨← maybeNode? fields "test", ← nodes? fields "consequent"⟩
  | .tryStatement => do
    return ⟨← node? fields "block", ← maybeNode? fields "handler",
      ← maybeNode? fields "finalizer"⟩
  | .catchClause => do return ⟨← maybeNode? fields "param", ← node? fields "body"⟩
  | .labeledStatement => do return ⟨← node? fields "label", ← node? fields "body"⟩
  | .variableDeclaration => do
    return ⟨← text? fields "kind", ← nodes? fields "declarations"⟩
  | .variableDeclarator => do return ⟨← node? fields "id", ← maybeNode? fields "init"⟩
  | .functionDeclaration => do
    return ⟨← maybeNode? fields "id", ← nodes? fields "params", ← node? fields "body",
      ← flag? fields "async", ← flag? fields "generator"⟩
  | .functionExpression => do
    return ⟨← maybeNode? fields "id", ← nodes? fields "params", ← node? fields "body",
      ← flag? fields "async", ← flag? fields "generator"⟩
  | .arrowFunctionExpression => do
    return ⟨← nodes? fields "params", ← node? fields "body", ← flag? fields "async"⟩
  | .importDeclaration => do return ⟨← nodes? fields "specifiers", ← node? fields "source"⟩
  | .importSpecifier => do return ⟨← node? fields "imported", ← node? fields "local"⟩
  | .importDefaultSpecifier => do return ⟨← node? fields "local"⟩
  | .importNamespaceSpecifier => do return ⟨← node? fields "local"⟩
  | .identifier => do return ⟨← text? fields "name"⟩
  | .numericLiteral => do return ⟨← required? fields "value" asNumeral?⟩
  | .bigIntLiteral => do return ⟨← text? fields "value"⟩
  | .stringLiteral => do return ⟨← text? fields "value"⟩
  | .booleanLiteral => do return ⟨← required? fields "value" asBool?⟩
  | .nullLiteral => some ()
  | .regExpLiteral => do
    return ⟨← text? fields "pattern", ← defaulted? fields "flags" "" asString?⟩
  | .templateLiteral => do return ⟨← nodes? fields "quasis", ← nodes? fields "expressions"⟩
  | .templateElement => do return ⟨← text? fields "raw", ← flag? fields "tail"⟩
  | .taggedTemplateExpression => do return ⟨← node? fields "tag", ← node? fields "quasi"⟩
  | .thisExpression => some ()
  | .super => some ()
  | .arrayExpression => do return ⟨← sparse? fields "elements"⟩
  | .arrayPattern => do return ⟨← sparse? fields "elements"⟩
  | .objectExpression => do return ⟨← nodes? fields "properties"⟩
  | .objectPattern => do return ⟨← nodes? fields "properties"⟩
  | .objectProperty => do
    return ⟨← node? fields "key", ← node? fields "value", ← flag? fields "computed",
      ← flag? fields "shorthand"⟩
  | .objectMethod => do
    return ⟨← defaulted? fields "kind" .method MethodKind.ofJson?, ← node? fields "key",
      ← nodes? fields "params", ← node? fields "body", ← flag? fields "computed",
      ← flag? fields "async", ← flag? fields "generator"⟩
  | .spreadElement => do return ⟨← node? fields "argument"⟩
  | .restElement => do return ⟨← node? fields "argument"⟩
  | .assignmentPattern => do return ⟨← node? fields "left", ← node? fields "right"⟩
  | .unaryExpression => do return ⟨← text? fields "operator", ← node? fields "argument"⟩
  | .updateExpression => do
    return ⟨← text? fields "operator", ← node? fields "argument", ← flag? fields "prefix"⟩
  | .binaryExpression => do
    return ⟨← text? fields "operator", ← node? fields "left", ← node? fields "right"⟩
  | .logicalExpression => do
    return ⟨← text? fields "operator", ← node? fields "left", ← node? fields "right"⟩
  | .assignmentExpression => do
    return ⟨← text? fields "operator", ← node? fields "left", ← node? fields "right"⟩
  | .conditionalExpression => do
    return ⟨← node? fields "test", ← node? fields "consequent", ← node? fields "alternate"⟩
  | .callExpression => do
    return ⟨← node? fields "callee", ← nodes? fields "arguments", ← flag? fields "optional"⟩
  | .optionalCallExpression => do
    return ⟨← node? fields "callee", ← nodes? fields "arguments", ← flag? fields "optional"⟩
  | .newExpression => do
    return ⟨← node? fields "callee", ← nodes? fields "arguments", ← flag? fields "optional"⟩
  | .memberExpression => do
    return ⟨← node? fields "object", ← node? fields "property", ← flag? fields "computed",
      ← flag? fields "optional"⟩
  | .optionalMemberExpression => do
    return ⟨← node? fields "object", ← node? fields "property", ← flag? fields "computed",
      ← flag? fields "optional"⟩
  | .sequenceExpression => do return ⟨← nodes? fields "expressions"⟩
  | .yieldExpression => do return ⟨← maybeNode? fields "argument", ← flag? fields "delegate"⟩
  | .awaitExpression => do return ⟨← node? fields "argument"⟩
  | .doExpression => do return ⟨← node? fields "body"⟩
  | .bindExpression => do return ⟨← maybeNode? fields "object", ← node? fields "callee"⟩
  | .metaProperty => do return ⟨← node? fields "meta", ← node? fields "property"⟩
  | .jsxElement => do
    return ⟨← node? fields "name", ← nodes? fields "attributes", ← nodes? fields "children",
      ← flag? fields "selfClosing"⟩
  | .jsxAttribute => do return ⟨← node? fields "name", ← maybeNode? fields "value"⟩
  | .jsxIdentifier => do return ⟨← text? fields "name"⟩
  | .jsxText => do return ⟨← text? fields "value"⟩
  | .jsxExpressionContainer => do return ⟨← node? fields "expression"⟩

namespace Construct

/-- The written form of a construct, as the fields of an object. -/
def toFields (c : Construct) : List (String × Json) :=
  ("type", c.kind.toJson) :: c.writtenFields.map Field.toJson

/-- Reads a construct from the fields of an object, given how to read its kind. -/
def ofFields? (tag : Json → Option Kind) (fields : List (String × Json)) : Option Construct := do
  let kind ← Json.required? fields "type" tag
  return ⟨kind, ← Payload.ofFields? fields kind⟩

/-- Reads a construct that stands by itself, whose kind is given by its name. -/
def ofJson? (value : Json) : Option Construct := do
  ofFields? (fun tag => tag.asString?.bind Kind.ofName?) (← value.asWholeFields?)

end Construct

namespace Node

/-- The written form of a node. -/
def toJson (n : Node) : Json :=
  .obj (("span", n.span.toJson) ::
    (if n.parenthesized then [("parenthesized", .bool true)] else []) ++ n.construct.toFields)

/-- Reads a node. -/
def ofJson? (value : Json) : Option Node := do
  let fields ← value.asWholeFields?
  let span ← Json.required? fields "span" Span.ofJson?
  let parenthesized ← Json.flag? fields "parenthesized"
  return ⟨span, parenthesized, ← Construct.ofFields? Kind.ofTag? fields⟩

end Node

namespace Tree

/-- The written form of a tree. -/
def toJson (t : Tree) : Json :=
  .obj [("root", t.root.toJson), ("nodes", .list Node.toJson t.nodes.toList)]

/-- Reads a tree. -/
def ofJson? (value : Json) : Option Tree := do
  let fields ← value.asFields?
  let root ← Json.node? fields "root"
  let nodes ← Json.required? fields "nodes" (Json.asList? Node.ofJson?)
  return ⟨root, nodes.toArray⟩

end Tree

end Retrace
