import Retrace.Proofs.Wellformed

/-!
# References of a payload

A payload holds ids of other nodes, one at a time, as an option or in a list that may have
holes. `Payload.Stores` goes through the components of each payload and says which ids are
there. It knows nothing of named fields and of the order of children, so it can be held
against both: the children of a construct are the ids that it stores, all of them and no
others (`Construct.mem_children_iff`).

The check of a tree looks at children only. What it finds about them holds therefore of every
id that a payload of the tree stores.
-/

namespace Retrace

/-- The payload stores the id in one of its components. -/
def Payload.Stores (id : NodeId) : (kind : Kind) → Payload kind → Prop
  | .program, ⟨body⟩ | .blockStatement, ⟨body⟩ => id ∈ body
  | .expressionStatement, ⟨expression⟩ => id = expression
  | .emptyStatement, () | .debuggerStatement, () => False
  | .ifStatement, ⟨test, consequent, alternate⟩ =>
    id = test ∨ id = consequent ∨ alternate = some id
  | .forStatement, ⟨init, test, update, body⟩ =>
    init = some id ∨ test = some id ∨ update = some id ∨ id = body
  | .forInStatement, ⟨left, right, body⟩ => id = left ∨ id = right ∨ id = body
  | .forOfStatement, ⟨left, right, body, _⟩ => id = left ∨ id = right ∨ id = body
  | .whileStatement, ⟨test, body⟩ | .doWhileStatement, ⟨test, body⟩ => id = test ∨ id = body
  | .withStatement, ⟨object, body⟩ => id = object ∨ id = body
  | .breakStatement, ⟨label⟩ | .continueStatement, ⟨label⟩ => label = some id
  | .returnStatement, ⟨argument⟩ | .throwStatement, ⟨argument⟩ => argument = some id
  | .switchStatement, ⟨discriminant, cases⟩ => id = discriminant ∨ id ∈ cases
  | .switchCase, ⟨test, consequent⟩ => test = some id ∨ id ∈ consequent
  | .tryStatement, ⟨block, handler, finalizer⟩ =>
    id = block ∨ handler = some id ∨ finalizer = some id
  | .catchClause, ⟨param, body⟩ => param = some id ∨ id = body
  | .labeledStatement, ⟨label, body⟩ => id = label ∨ id = body
  | .variableDeclaration, ⟨_, declarations⟩ => id ∈ declarations
  | .variableDeclarator, ⟨name, init⟩ => id = name ∨ init = some id
  | .functionDeclaration, ⟨name, params, body, _, _⟩
  | .functionExpression, ⟨name, params, body, _, _⟩ => name = some id ∨ id ∈ params ∨ id = body
  | .arrowFunctionExpression, ⟨params, body, _⟩ => id ∈ params ∨ id = body
  | .importDeclaration, ⟨specifiers, source⟩ => id ∈ specifiers ∨ id = source
  | .importSpecifier, ⟨imported, localName⟩ => id = imported ∨ id = localName
  | .importDefaultSpecifier, ⟨localName⟩ | .importNamespaceSpecifier, ⟨localName⟩ =>
    id = localName
  | .identifier, ⟨_⟩ | .jsxIdentifier, ⟨_⟩ => False
  | .numericLiteral, ⟨_⟩ | .bigIntLiteral, ⟨_⟩ | .stringLiteral, ⟨_⟩ | .booleanLiteral, ⟨_⟩ => False
  | .nullLiteral, () | .thisExpression, () | .super, () => False
  | .regExpLiteral, ⟨_, _⟩ => False
  | .templateLiteral, ⟨quasis, expressions⟩ => id ∈ quasis ∨ id ∈ expressions
  | .templateElement, ⟨_, _⟩ => False
  | .taggedTemplateExpression, ⟨tag, quasi⟩ => id = tag ∨ id = quasi
  | .arrayExpression, ⟨elements⟩ | .arrayPattern, ⟨elements⟩ => some id ∈ elements
  | .objectExpression, ⟨properties⟩ | .objectPattern, ⟨properties⟩ => id ∈ properties
  | .objectProperty, ⟨key, value, _, _⟩ => id = key ∨ id = value
  | .objectMethod, ⟨_, key, params, body, _, _, _⟩ => id = key ∨ id ∈ params ∨ id = body
  | .spreadElement, ⟨argument⟩ | .restElement, ⟨argument⟩ | .awaitExpression, ⟨argument⟩ =>
    id = argument
  | .assignmentPattern, ⟨left, right⟩ => id = left ∨ id = right
  | .unaryExpression, ⟨_, argument⟩ => id = argument
  | .updateExpression, ⟨_, argument, _⟩ => id = argument
  | .binaryExpression, ⟨_, left, right⟩
  | .logicalExpression, ⟨_, left, right⟩
  | .assignmentExpression, ⟨_, left, right⟩ => id = left ∨ id = right
  | .conditionalExpression, ⟨test, consequent, alternate⟩ =>
    id = test ∨ id = consequent ∨ id = alternate
  | .callExpression, ⟨callee, arguments, _⟩
  | .optionalCallExpression, ⟨callee, arguments, _⟩
  | .newExpression, ⟨callee, arguments, _⟩ => id = callee ∨ id ∈ arguments
  | .memberExpression, ⟨object, property, _, _⟩
  | .optionalMemberExpression, ⟨object, property, _, _⟩ => id = object ∨ id = property
  | .sequenceExpression, ⟨expressions⟩ => id ∈ expressions
  | .yieldExpression, ⟨argument, _⟩ => argument = some id
  | .doExpression, ⟨body⟩ => id = body
  | .bindExpression, ⟨object, callee⟩ => object = some id ∨ id = callee
  | .metaProperty, ⟨keyword, property⟩ => id = keyword ∨ id = property
  | .jsxElement, ⟨name, attributes, children, _⟩ =>
    id = name ∨ id ∈ attributes ∨ id ∈ children
  | .jsxAttribute, ⟨name, value⟩ => id = name ∨ value = some id
  | .jsxText, ⟨_⟩ => False
  | .jsxExpressionContainer, ⟨expression⟩ => id = expression

/-- The construct stores the id in its payload. -/
def Construct.Stores (c : Construct) (id : NodeId) : Prop := Payload.Stores id c.kind c.payload

theorem mem_interleave {xs ys : List NodeId} {id : NodeId} :
    id ∈ interleave xs ys ↔ id ∈ xs ∨ id ∈ ys := by
  induction xs, ys using interleave.induct with
  | case1 ys => simp [interleave]
  | case2 x xs => simp [interleave]
  | case3 x xs y ys ih =>
    simp only [interleave, List.mem_cons, ih]
    tauto

theorem mem_pairOnce {first second id : NodeId} :
    id ∈ pairOnce first second ↔ id = first ∨ id = second := by
  unfold pairOnce
  split_ifs with hSame
  · simp [hSame]
  · simp

namespace Construct

/-- The fields of a construct refer to the ids that it stores. -/
theorem mem_references_iff {c : Construct} {id : NodeId} : id ∈ c.references ↔ c.Stores id := by
  obtain ⟨kind, p⟩ := c
  cases kind
  -- The fields of this one are not in the order of its components.
  case doWhileStatement =>
    simp [references, fields, Payload.fields, FieldValue.references, Stores, Payload.Stores,
      or_comm]
  all_goals
    simp [references, fields, Payload.fields, FieldValue.references, Stores, Payload.Stores]

/-- The children of a construct are the ids that it stores. -/
theorem mem_children_iff {c : Construct} {id : NodeId} : id ∈ c.children ↔ c.Stores id := by
  unfold children
  split
  · exact mem_interleave
  · exact mem_pairOnce
  · exact mem_pairOnce
  · exact mem_references_iff

end Construct

/-- An id that a payload stores is the place of a node other than the root, and this node lies
within the span of the one that stores it. -/
theorem Tree.fits_of_stores {t : Tree} {size : Nat} (hValid : t.validate size = .ok ()) {n : Node}
    (hNode : n ∈ t.nodes) {id : NodeId} (h : n.construct.Stores id) : t.Fits n id := by
  obtain ⟨i, hPlace⟩ := Array.mem_iff_getElem?.mp hNode
  exact (validate_eq_ok_iff.mp hValid).fits ⟨i⟩ n hPlace id (Construct.mem_children_iff.mpr h)

end Retrace
