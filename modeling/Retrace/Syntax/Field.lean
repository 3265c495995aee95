import Retrace.Syntax.Payload

/-!
# Fields of a payload

Every payload is a list of named fields (`Payload.fields`), in the order in
which the nodes they refer to stand in the text. Whatever treats all kinds alike
works on this list: the nodes referred to, and the written form of a node.

The children of a construct (`Construct.children`) are the nodes its fields
refer to, with two provisos: the pieces and the expressions of a template
alternate, and a node that serves as both halves of a property or of an import
is listed once. The written form of a construct has its fields in the same order
(`Construct.writtenFields`), but for the loop that tests at its end: it is written
like the one that tests first.
-/

namespace Retrace

/-- The value of a field. -/
inductive FieldValue where
  | node (id : NodeId)
  | optional (id : Option NodeId)
  | list (ids : List NodeId)
  | sparse (ids : List (Option NodeId))
  | flag (value : Bool)
  | text (value : String)
  | numeral (value : Numeral)
  | method (value : MethodKind)

namespace FieldValue

/-- The nodes that a field refers to, holes left out. -/
def references : FieldValue → List NodeId
  | .node id => [id]
  | .optional id => id.toList
  | .list ids => ids
  | .sparse ids => ids.filterMap (fun id => id)
  | _ => []

end FieldValue

/-- A named field of a payload. -/
structure Field where
  name : String
  value : FieldValue

namespace Payload

/-- The fields of a payload. -/
def fields : (kind : Kind) → Payload kind → List Field
  | .program, p => [⟨"body", .list p.body⟩]
  | .expressionStatement, p => [⟨"expression", .node p.expression⟩]
  | .blockStatement, p => [⟨"body", .list p.body⟩]
  | .emptyStatement, _ => []
  | .debuggerStatement, _ => []
  | .ifStatement, p =>
    [⟨"test", .node p.test⟩, ⟨"consequent", .node p.consequent⟩,
      ⟨"alternate", .optional p.alternate⟩]
  | .forStatement, p =>
    [⟨"init", .optional p.init⟩, ⟨"test", .optional p.test⟩, ⟨"update", .optional p.update⟩,
      ⟨"body", .node p.body⟩]
  | .forInStatement, p =>
    [⟨"left", .node p.left⟩, ⟨"right", .node p.right⟩, ⟨"body", .node p.body⟩]
  | .forOfStatement, p =>
    [⟨"left", .node p.left⟩, ⟨"right", .node p.right⟩, ⟨"body", .node p.body⟩,
      ⟨"await", .flag p.isAwait⟩]
  | .whileStatement, p => [⟨"test", .node p.test⟩, ⟨"body", .node p.body⟩]
  | .doWhileStatement, p => [⟨"body", .node p.body⟩, ⟨"test", .node p.test⟩]
  | .withStatement, p => [⟨"object", .node p.object⟩, ⟨"body", .node p.body⟩]
  | .breakStatement, p => [⟨"label", .optional p.label⟩]
  | .continueStatement, p => [⟨"label", .optional p.label⟩]
  | .returnStatement, p => [⟨"argument", .optional p.argument⟩]
  | .throwStatement, p => [⟨"argument", .optional p.argument⟩]
  | .switchStatement, p =>
    [⟨"discriminant", .node p.discriminant⟩, ⟨"cases", .list p.cases⟩]
  | .switchCase, p => [⟨"test", .optional p.test⟩, ⟨"consequent", .list p.consequent⟩]
  | .tryStatement, p =>
    [⟨"block", .node p.block⟩, ⟨"handler", .optional p.handler⟩,
      ⟨"finalizer", .optional p.finalizer⟩]
  | .catchClause, p => [⟨"param", .optional p.param⟩, ⟨"body", .node p.body⟩]
  | .labeledStatement, p => [⟨"label", .node p.label⟩, ⟨"body", .node p.body⟩]
  | .variableDeclaration, p =>
    [⟨"kind", .text p.keyword⟩, ⟨"declarations", .list p.declarations⟩]
  | .variableDeclarator, p => [⟨"id", .node p.id⟩, ⟨"init", .optional p.init⟩]
  | .functionDeclaration, p =>
    [⟨"id", .optional p.id⟩, ⟨"params", .list p.params⟩, ⟨"body", .node p.body⟩,
      ⟨"async", .flag p.isAsync⟩, ⟨"generator", .flag p.isGenerator⟩]
  | .functionExpression, p =>
    [⟨"id", .optional p.id⟩, ⟨"params", .list p.params⟩, ⟨"body", .node p.body⟩,
      ⟨"async", .flag p.isAsync⟩, ⟨"generator", .flag p.isGenerator⟩]
  | .arrowFunctionExpression, p =>
    [⟨"params", .list p.params⟩, ⟨"body", .node p.body⟩, ⟨"async", .flag p.isAsync⟩]
  | .importDeclaration, p =>
    [⟨"specifiers", .list p.specifiers⟩, ⟨"source", .node p.source⟩]
  | .importSpecifier, p => [⟨"imported", .node p.imported⟩, ⟨"local", .node p.localName⟩]
  | .importDefaultSpecifier, p => [⟨"local", .node p.localName⟩]
  | .importNamespaceSpecifier, p => [⟨"local", .node p.localName⟩]
  | .identifier, p => [⟨"name", .text p.name⟩]
  | .numericLiteral, p => [⟨"value", .numeral p.value⟩]
  | .bigIntLiteral, p => [⟨"value", .text p.value⟩]
  | .stringLiteral, p => [⟨"value", .text p.value⟩]
  | .booleanLiteral, p => [⟨"value", .flag p.value⟩]
  | .nullLiteral, _ => []
  | .regExpLiteral, p => [⟨"pattern", .text p.pattern⟩, ⟨"flags", .text p.flags⟩]
  | .templateLiteral, p =>
    [⟨"quasis", .list p.quasis⟩, ⟨"expressions", .list p.expressions⟩]
  | .templateElement, p => [⟨"raw", .text p.raw⟩, ⟨"tail", .flag p.tail⟩]
  | .taggedTemplateExpression, p => [⟨"tag", .node p.tag⟩, ⟨"quasi", .node p.quasi⟩]
  | .thisExpression, _ => []
  | .super, _ => []
  | .arrayExpression, p => [⟨"elements", .sparse p.elements⟩]
  | .arrayPattern, p => [⟨"elements", .sparse p.elements⟩]
  | .objectExpression, p => [⟨"properties", .list p.properties⟩]
  | .objectPattern, p => [⟨"properties", .list p.properties⟩]
  | .objectProperty, p =>
    [⟨"key", .node p.key⟩, ⟨"value", .node p.value⟩, ⟨"computed", .flag p.computed⟩,
      ⟨"shorthand", .flag p.shorthand⟩]
  | .objectMethod, p =>
    [⟨"kind", .method p.kind⟩, ⟨"key", .node p.key⟩, ⟨"params", .list p.params⟩,
      ⟨"body", .node p.body⟩, ⟨"computed", .flag p.computed⟩, ⟨"async", .flag p.isAsync⟩,
      ⟨"generator", .flag p.isGenerator⟩]
  | .spreadElement, p => [⟨"argument", .node p.argument⟩]
  | .restElement, p => [⟨"argument", .node p.argument⟩]
  | .assignmentPattern, p => [⟨"left", .node p.left⟩, ⟨"right", .node p.right⟩]
  | .unaryExpression, p => [⟨"operator", .text p.operator⟩, ⟨"argument", .node p.argument⟩]
  | .updateExpression, p =>
    [⟨"operator", .text p.operator⟩, ⟨"argument", .node p.argument⟩, ⟨"prefix", .flag p.before⟩]
  | .binaryExpression, p =>
    [⟨"operator", .text p.operator⟩, ⟨"left", .node p.left⟩, ⟨"right", .node p.right⟩]
  | .logicalExpression, p =>
    [⟨"operator", .text p.operator⟩, ⟨"left", .node p.left⟩, ⟨"right", .node p.right⟩]
  | .assignmentExpression, p =>
    [⟨"operator", .text p.operator⟩, ⟨"left", .node p.left⟩, ⟨"right", .node p.right⟩]
  | .conditionalExpression, p =>
    [⟨"test", .node p.test⟩, ⟨"consequent", .node p.consequent⟩, ⟨"alternate", .node p.alternate⟩]
  | .callExpression, p =>
    [⟨"callee", .node p.callee⟩, ⟨"arguments", .list p.arguments⟩,
      ⟨"optional", .flag p.isOptional⟩]
  | .optionalCallExpression, p =>
    [⟨"callee", .node p.callee⟩, ⟨"arguments", .list p.arguments⟩,
      ⟨"optional", .flag p.isOptional⟩]
  | .newExpression, p =>
    [⟨"callee", .node p.callee⟩, ⟨"arguments", .list p.arguments⟩,
      ⟨"optional", .flag p.isOptional⟩]
  | .memberExpression, p =>
    [⟨"object", .node p.object⟩, ⟨"property", .node p.property⟩, ⟨"computed", .flag p.computed⟩,
      ⟨"optional", .flag p.isOptional⟩]
  | .optionalMemberExpression, p =>
    [⟨"object", .node p.object⟩, ⟨"property", .node p.property⟩, ⟨"computed", .flag p.computed⟩,
      ⟨"optional", .flag p.isOptional⟩]
  | .sequenceExpression, p => [⟨"expressions", .list p.expressions⟩]
  | .yieldExpression, p =>
    [⟨"argument", .optional p.argument⟩, ⟨"delegate", .flag p.delegate⟩]
  | .awaitExpression, p => [⟨"argument", .node p.argument⟩]
  | .doExpression, p => [⟨"body", .node p.body⟩]
  | .bindExpression, p => [⟨"object", .optional p.object⟩, ⟨"callee", .node p.callee⟩]
  | .metaProperty, p => [⟨"meta", .node p.keyword⟩, ⟨"property", .node p.property⟩]
  | .jsxElement, p =>
    [⟨"name", .node p.name⟩, ⟨"attributes", .list p.attributes⟩, ⟨"children", .list p.children⟩,
      ⟨"selfClosing", .flag p.selfClosing⟩]
  | .jsxAttribute, p => [⟨"name", .node p.name⟩, ⟨"value", .optional p.value⟩]
  | .jsxIdentifier, p => [⟨"name", .text p.name⟩]
  | .jsxText, p => [⟨"value", .text p.value⟩]
  | .jsxExpressionContainer, p => [⟨"expression", .node p.expression⟩]

end Payload

/-- Takes from two lists in turn, and the rest of the longer one at the end. -/
def interleave : List NodeId → List NodeId → List NodeId
  | [], ys => ys
  | x :: xs, [] => x :: xs
  | x :: xs, y :: ys => x :: y :: interleave xs ys

/-- Two nodes that may be one and the same. -/
def pairOnce (first second : NodeId) : List NodeId :=
  if second = first then [first] else [first, second]

namespace Construct

/-- The fields of a construct. -/
def fields (c : Construct) : List Field := Payload.fields c.kind c.payload

/-- Every node that some field refers to. -/
def references (c : Construct) : List NodeId := c.fields.flatMap (·.value.references)

/-- The fields, in the order in which they are written. -/
def writtenFields : Construct → List Field
  | ⟨.doWhileStatement, p⟩ => Payload.fields .whileStatement p
  | c => c.fields

theorem writtenFields_perm (c : Construct) : c.writtenFields.Perm c.fields := by
  unfold writtenFields
  split
  · exact List.Perm.swap _ _ _
  · exact List.Perm.refl _

/-- The children, in the order in which they stand in the text. -/
def children : Construct → List NodeId
  | ⟨.templateLiteral, p⟩ => interleave p.quasis p.expressions
  | ⟨.objectProperty, p⟩ => pairOnce p.key p.value
  | ⟨.importSpecifier, p⟩ => pairOnce p.imported p.localName
  | c => c.references

end Construct

end Retrace
