import Retrace.Rule.Collection
import Retrace.Rule.Expression
import Retrace.Rule.Markup
import Retrace.Rule.Reshape
import Retrace.Rule.Statement

/-!
# One rule for each kind

`Rule.sameKind` gives the rule of every kind, for two payloads of that kind.
`Pairing.align` applies it if the two nodes are of the same kind and looks for a
known change of shape otherwise. The program as a whole has no tokens of its
own, and whatever became of it is accepted.
-/

namespace Retrace

/-- The outcome for two constructs of the same kind. -/
def Rule.sameKind (options : Options) (p : Pairing) :
    (kind : Kind) → Payload kind → Payload kind → Outcome
  | .program, _, _ => .ofAnchors []
  | .expressionStatement, _, _ => .ofAnchors (expressionStatement p)
  | .blockStatement, _, _ => .ofAnchors (block p)
  | .emptyStatement, _, _ => .ofAnchors (leaf options p)
  | .debuggerStatement, _, _ => .ofAnchors (leaf options p)
  | .ifStatement, s, o => .ofAnchors (ifStatement p s o)
  | .forStatement, s, o => .ofAnchors (forStatement p s o)
  | .forInStatement, s, o => .ofAnchors (forIn p s o)
  | .forOfStatement, s, o => .ofAnchors (forOf p s o)
  | .whileStatement, s, o => .ofAnchors (whileStatement p s o)
  | .doWhileStatement, s, o => .ofAnchors (doWhile p s o)
  | .withStatement, s, o => .ofAnchors (withStatement p s o)
  | .breakStatement, _, _ => .ofAnchors (keywordStatement "break" p)
  | .continueStatement, _, _ => .ofAnchors (keywordStatement "continue" p)
  | .returnStatement, _, _ => .ofAnchors (keywordStatement "return" p)
  | .throwStatement, _, _ => .ofAnchors (keywordStatement "throw" p)
  | .switchStatement, s, o => .ofAnchors (switch p s o)
  | .switchCase, s, o => .ofAnchors (switchCase p s o)
  | .tryStatement, s, o => .ofAnchors (tryStatement p s o)
  | .catchClause, s, o => .ofAnchors (catchClause p s o)
  | .labeledStatement, s, o => .ofAnchors (labeled p s o)
  | .variableDeclaration, s, o => .ofAnchors (variableDeclaration p s o)
  | .variableDeclarator, s, o => .ofAnchors (variableDeclarator p s o)
  | .functionDeclaration, s, o => .ofAnchors (function p s o)
  | .functionExpression, s, o => .ofAnchors (function p s o)
  | .arrowFunctionExpression, s, o => .ofAnchors (arrow p s o)
  | .importDeclaration, s, o => .ofAnchors (importDeclaration p s o)
  | .importSpecifier, s, o => .ofAnchors (importSpecifier p s o)
  | .importDefaultSpecifier, _, _ => .ofAnchors []
  | .importNamespaceSpecifier, s, o => .ofAnchors (importNamespace p s o)
  | .identifier, _, _ => .ofAnchors (leaf options p)
  | .numericLiteral, _, _ => .ofAnchors (number options p)
  | .bigIntLiteral, _, _ => .ofAnchors (number options p)
  | .stringLiteral, _, _ => .ofAnchors (string options p)
  | .booleanLiteral, _, _ => .ofAnchors (leaf options p)
  | .nullLiteral, _, _ => .ofAnchors (leaf options p)
  | .regExpLiteral, s, o => .ofAnchors (regExp options p s o)
  | .templateLiteral, s, o => .ofAnchors (template p s o)
  | .templateElement, _, _ => .ofAnchors (leaf options p)
  | .taggedTemplateExpression, _, _ => .ofAnchors []
  | .thisExpression, _, _ => .ofAnchors (leaf options p)
  | .super, _, _ => .ofAnchors (leaf options p)
  | .arrayExpression, s, o => array p s o
  | .arrayPattern, s, o => array p s o
  | .objectExpression, s, o => .ofAnchors (object p s o)
  | .objectPattern, s, o => .ofAnchors (object p s o)
  | .objectProperty, s, o => .ofAnchors (property p s o)
  | .objectMethod, s, o => .ofAnchors (method p s o)
  | .spreadElement, _, _ => .ofAnchors (spread p)
  | .restElement, _, _ => .ofAnchors (spread p)
  | .assignmentPattern, s, o => .ofAnchors (assignmentPattern p s o)
  | .unaryExpression, s, o => .ofAnchors (unary p s o)
  | .updateExpression, s, o => .ofAnchors (update p s o)
  | .binaryExpression, s, o => .ofAnchors (binary p s o)
  | .logicalExpression, s, o => .ofAnchors (binary p s o)
  | .assignmentExpression, s, o => .ofAnchors (binary p s o)
  | .conditionalExpression, s, o => .ofAnchors (conditional p s o)
  | .callExpression, s, o => .ofAnchors (call p s o)
  | .optionalCallExpression, s, o => .ofAnchors (call p s o)
  | .newExpression, s, o => .ofAnchors (newExpression p s o)
  | .memberExpression, s, o => .ofAnchors (member p s o)
  | .optionalMemberExpression, s, o => .ofAnchors (member p s o)
  | .sequenceExpression, s, o => .ofAnchors (sequence p s o)
  | .yieldExpression, s, o => .ofAnchors (yieldExpression p s o)
  | .awaitExpression, _, _ => .ofAnchors (p.leading "await")
  | .doExpression, _, _ => .ofAnchors (p.leading "do")
  | .bindExpression, s, o => .ofAnchors (bind p s o)
  | .metaProperty, s, o => .ofAnchors (metaProperty p s o)
  | .jsxElement, s, o => .ofAnchors (element p s o)
  | .jsxAttribute, s, o => .ofAnchors (markupAttribute p s o)
  | .jsxIdentifier, _, _ => .ofAnchors (leaf options p)
  | .jsxText, _, _ => .ofAnchors (leaf options p)
  | .jsxExpressionContainer, _, _ => .ofAnchors (expressionContainer p)

/-- The outcome for two constructs. -/
def Rule.outcome (options : Options) (p : Pairing) (source output : Construct) : Outcome :=
  if output.kind = .program then .ofAnchors []
  else if h : source.kind = output.kind then
    Rule.sameKind options p output.kind (h ▸ source.payload) output.payload
  else Rule.reshape p source output

/-- The anchors of a pairing, and what is to be reported about it. -/
def Pairing.align (p : Pairing) (options : Options) : Outcome :=
  Rule.outcome options p p.source.node.construct p.output.node.construct

end Retrace
