import Retrace.Proofs.Checked.Expression
import Retrace.Proofs.Checked.Leaf

/-!
# Checked rules for each kind

The dispatch over kinds, and the outcome of a pairing as a whole. All rules but one
are safe for a pairing that fits. The rule for regular expressions adds the lengths of
the pattern and of the flags to offsets, as the payload has them and whatever the text
says, so that these lengths have to leave room as well (`Pairing.Roomy`). Where they
leave none, the rule stops (`Checked.regExp_eq_overflow`).
-/

namespace Retrace

/-! ## Spellings -/

/-- The operators, keywords, patterns and flags that a construct holds as texts. -/
def Construct.spellings : Construct → List String
  | ⟨.variableDeclaration, n⟩ => [n.keyword]
  | ⟨.unaryExpression, n⟩ => [n.operator]
  | ⟨.updateExpression, n⟩ => [n.operator]
  | ⟨.binaryExpression, n⟩ => [n.operator]
  | ⟨.logicalExpression, n⟩ => [n.operator]
  | ⟨.assignmentExpression, n⟩ => [n.operator]
  | ⟨.regExpLiteral, n⟩ => [n.pattern, n.flags]
  | _ => []

/-- The two texts and a spelling of the source node leave room for one more byte. -/
def Pairing.Roomy (p : Pairing) (source : Construct) : Prop :=
  ∀ spelling ∈ source.spellings,
    p.source.text.size + p.output.text.size + byteSize spelling.toList + 1 < offsetBound

namespace Checked

/-- Anchors and nothing else to report. -/
def anchorsOf (anchors : Checked (List Anchor)) : Checked Outcome := do
  return .ofAnchors (← anchors)

@[simp]
theorem anchorsOf_ok (anchors : List Anchor) :
    anchorsOf (.ok anchors) = .ok (.ofAnchors anchors) := rfl

/-- The outcome for two constructs of the same kind. -/
def sameKind (options : Options) (p : Pairing) :
    (kind : Kind) → Payload kind → Payload kind → Checked Outcome
  | .program, _, _ => return .ofAnchors []
  | .expressionStatement, _, _ => anchorsOf (expressionStatement p)
  | .blockStatement, _, _ => anchorsOf (block p)
  | .emptyStatement, _, _ => anchorsOf (leaf options p)
  | .debuggerStatement, _, _ => anchorsOf (leaf options p)
  | .ifStatement, s, o => anchorsOf (ifStatement p s o)
  | .forStatement, s, o => anchorsOf (forStatement p s o)
  | .forInStatement, s, o => anchorsOf (Checked.forIn p s o)
  | .forOfStatement, s, o => anchorsOf (forOf p s o)
  | .whileStatement, s, o => anchorsOf (whileStatement p s o)
  | .doWhileStatement, s, o => anchorsOf (doWhile p s o)
  | .withStatement, s, o => anchorsOf (withStatement p s o)
  | .breakStatement, _, _ => anchorsOf (keywordStatement "break" p)
  | .continueStatement, _, _ => anchorsOf (keywordStatement "continue" p)
  | .returnStatement, _, _ => anchorsOf (keywordStatement "return" p)
  | .throwStatement, _, _ => anchorsOf (keywordStatement "throw" p)
  | .switchStatement, s, o => anchorsOf (switch p s o)
  | .switchCase, s, o => anchorsOf (switchCase p s o)
  | .tryStatement, s, o => anchorsOf (tryStatement p s o)
  | .catchClause, s, o => anchorsOf (catchClause p s o)
  | .labeledStatement, s, o => anchorsOf (labeled p s o)
  | .variableDeclaration, s, o => anchorsOf (variableDeclaration p s o)
  | .variableDeclarator, s, o => anchorsOf (variableDeclarator p s o)
  | .functionDeclaration, s, o => anchorsOf (function p s o)
  | .functionExpression, s, o => anchorsOf (function p s o)
  | .arrowFunctionExpression, s, o => anchorsOf (arrow p s o)
  | .importDeclaration, s, o => anchorsOf (importDeclaration p s o)
  | .importSpecifier, s, o => anchorsOf (importSpecifier p s o)
  | .importDefaultSpecifier, _, _ => return .ofAnchors []
  | .importNamespaceSpecifier, s, o => anchorsOf (importNamespace p s o)
  | .identifier, _, _ => anchorsOf (leaf options p)
  | .numericLiteral, _, _ => anchorsOf (numberLiteral options p)
  | .bigIntLiteral, _, _ => anchorsOf (numberLiteral options p)
  | .stringLiteral, _, _ => anchorsOf (stringLiteral options p)
  | .booleanLiteral, _, _ => anchorsOf (leaf options p)
  | .nullLiteral, _, _ => anchorsOf (leaf options p)
  | .regExpLiteral, s, o => anchorsOf (regExp options p s o)
  | .templateLiteral, s, o => anchorsOf (template p s o)
  | .templateElement, _, _ => anchorsOf (leaf options p)
  | .taggedTemplateExpression, _, _ => return .ofAnchors []
  | .thisExpression, _, _ => anchorsOf (leaf options p)
  | .super, _, _ => anchorsOf (leaf options p)
  | .arrayExpression, s, o => array p s o
  | .arrayPattern, s, o => array p s o
  | .objectExpression, s, o => anchorsOf (object p s o)
  | .objectPattern, s, o => anchorsOf (object p s o)
  | .objectProperty, s, o => anchorsOf (property p s o)
  | .objectMethod, s, o => anchorsOf (method p s o)
  | .spreadElement, _, _ => anchorsOf (spread p)
  | .restElement, _, _ => anchorsOf (spread p)
  | .assignmentPattern, s, o => anchorsOf (assignmentPattern p s o)
  | .unaryExpression, s, o => anchorsOf (unary p s o)
  | .updateExpression, s, o => anchorsOf (update p s o)
  | .binaryExpression, s, o => anchorsOf (binary p s o)
  | .logicalExpression, s, o => anchorsOf (binary p s o)
  | .assignmentExpression, s, o => anchorsOf (binary p s o)
  | .conditionalExpression, s, o => anchorsOf (conditional p s o)
  | .callExpression, s, o => anchorsOf (call p s o)
  | .optionalCallExpression, s, o => anchorsOf (call p s o)
  | .newExpression, s, o => anchorsOf (newExpression p s o)
  | .memberExpression, s, o => anchorsOf (member p s o)
  | .optionalMemberExpression, s, o => anchorsOf (member p s o)
  | .sequenceExpression, s, o => anchorsOf (Checked.sequence p s o)
  | .yieldExpression, s, o => anchorsOf (yieldExpression p s o)
  | .awaitExpression, _, _ => anchorsOf (lead p "await")
  | .doExpression, _, _ => anchorsOf (lead p "do")
  | .bindExpression, s, o => anchorsOf (bindExpression p s o)
  | .metaProperty, s, o => anchorsOf (metaProperty p s o)
  | .jsxElement, s, o => anchorsOf (element p s o)
  | .jsxAttribute, s, o => anchorsOf (markupAttribute p s o)
  | .jsxIdentifier, _, _ => anchorsOf (leaf options p)
  | .jsxText, _, _ => anchorsOf (leaf options p)
  | .jsxExpressionContainer, _, _ => anchorsOf (expressionContainer p)

/-- The outcome for two constructs of different kinds. -/
def reshape (p : Pairing) (source output : Construct) : Checked Outcome :=
  match source, output with
  | ⟨.jsxAttribute, s⟩, ⟨.objectProperty, o⟩ => anchorsOf (attributeToProperty p s o)
  | ⟨.jsxIdentifier, _⟩, ⟨.stringLiteral, _⟩ => anchorsOf (nameToString p)
  | ⟨.jsxIdentifier, _⟩, ⟨.identifier, _⟩ => anchorsOf (nameToName p)
  | ⟨.jsxText, _⟩, ⟨.stringLiteral, _⟩ => anchorsOf (textToString p)
  | ⟨.stringLiteral, _⟩, ⟨.identifier, _⟩ => anchorsOf (unquote p)
  | ⟨.templateLiteral, s⟩, ⟨.stringLiteral, _⟩ =>
    if s.expressions.isEmpty then anchorsOf (requote p) else return Rule.unsupported
  | ⟨.arrowFunctionExpression, s⟩, ⟨.functionExpression, o⟩ =>
    anchorsOf (arrowToFunction p s o)
  | _, _ => return Rule.unsupported

/-- The outcome for two constructs. -/
def outcome (options : Options) (p : Pairing) (source output : Construct) : Checked Outcome :=
  if output.kind = .program then return .ofAnchors []
  else if h : source.kind = output.kind then
    sameKind options p output.kind (h ▸ source.payload) output.payload
  else reshape p source output

theorem sameKind_eq {p : Pairing} (h : p.Fits) (options : Options) {kind : Kind}
    (s o : Payload kind) (hRoom : p.Roomy ⟨kind, s⟩) :
    sameKind options p kind s o = .ok (Rule.sameKind options p kind s o) := by
  cases kind
  case regExpLiteral =>
    have hPattern := hRoom s.pattern (by simp [Construct.spellings])
    have hFlags := hRoom s.flags (by simp [Construct.spellings])
    simp only [sameKind, Rule.sameKind, regExp_eq h options o hPattern hFlags, anchorsOf_ok]
  all_goals simp [sameKind, Rule.sameKind, h]

theorem reshape_eq {p : Pairing} (h : p.Fits) (source output : Construct) :
    reshape p source output = .ok (Rule.reshape p source output) := by
  unfold reshape Rule.reshape
  split <;> simp [h]

theorem outcome_eq {p : Pairing} (h : p.Fits) (options : Options) {source : Construct}
    (output : Construct) (hRoom : p.Roomy source) :
    outcome options p source output = .ok (Rule.outcome options p source output) := by
  unfold outcome Rule.outcome
  split_ifs with hProgram hKind
  · rfl
  · obtain ⟨kind, s⟩ := source
    obtain ⟨other, o⟩ := output
    dsimp only at hKind
    subst hKind
    exact sameKind_eq h options s o hRoom
  · exact reshape_eq h source output

end Checked

end Retrace
