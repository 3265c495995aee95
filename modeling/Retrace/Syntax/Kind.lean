/-!
# Kinds of constructs

The closed list of constructs a syntax tree is built from. A kind is written in
documents under the name that parsers of the language give it; `Kind.ofName?`
reads the name back.
-/

namespace Retrace

/-- The construct that a node of a syntax tree is. -/
inductive Kind where
  | program
  | expressionStatement
  | blockStatement
  | emptyStatement
  | debuggerStatement
  | ifStatement
  | forStatement
  | forInStatement
  | forOfStatement
  | whileStatement
  | doWhileStatement
  | withStatement
  | breakStatement
  | continueStatement
  | returnStatement
  | throwStatement
  | switchStatement
  | switchCase
  | tryStatement
  | catchClause
  | labeledStatement
  | variableDeclaration
  | variableDeclarator
  | functionDeclaration
  | functionExpression
  | arrowFunctionExpression
  | importDeclaration
  | importSpecifier
  | importDefaultSpecifier
  | importNamespaceSpecifier
  | identifier
  | numericLiteral
  | bigIntLiteral
  | stringLiteral
  | booleanLiteral
  | nullLiteral
  | regExpLiteral
  | templateLiteral
  | templateElement
  | taggedTemplateExpression
  | thisExpression
  | super
  | arrayExpression
  | arrayPattern
  | objectExpression
  | objectPattern
  | objectProperty
  | objectMethod
  | spreadElement
  | restElement
  | assignmentPattern
  | unaryExpression
  | updateExpression
  | binaryExpression
  | logicalExpression
  | assignmentExpression
  | conditionalExpression
  | callExpression
  | optionalCallExpression
  | newExpression
  | memberExpression
  | optionalMemberExpression
  | sequenceExpression
  | yieldExpression
  | awaitExpression
  | doExpression
  | bindExpression
  | metaProperty
  | jsxElement
  | jsxAttribute
  | jsxIdentifier
  | jsxText
  | jsxExpressionContainer
deriving DecidableEq

namespace Kind

/-- Every kind, in the order of declaration. -/
def all : List Kind :=
  [.program, .expressionStatement, .blockStatement, .emptyStatement, .debuggerStatement,
    .ifStatement, .forStatement, .forInStatement, .forOfStatement, .whileStatement,
    .doWhileStatement, .withStatement, .breakStatement, .continueStatement, .returnStatement,
    .throwStatement, .switchStatement, .switchCase, .tryStatement, .catchClause,
    .labeledStatement, .variableDeclaration, .variableDeclarator, .functionDeclaration,
    .functionExpression, .arrowFunctionExpression, .importDeclaration, .importSpecifier,
    .importDefaultSpecifier, .importNamespaceSpecifier, .identifier, .numericLiteral,
    .bigIntLiteral, .stringLiteral, .booleanLiteral, .nullLiteral, .regExpLiteral,
    .templateLiteral, .templateElement, .taggedTemplateExpression, .thisExpression, .super,
    .arrayExpression, .arrayPattern, .objectExpression, .objectPattern, .objectProperty,
    .objectMethod, .spreadElement, .restElement, .assignmentPattern, .unaryExpression,
    .updateExpression, .binaryExpression, .logicalExpression, .assignmentExpression,
    .conditionalExpression, .callExpression, .optionalCallExpression, .newExpression,
    .memberExpression, .optionalMemberExpression, .sequenceExpression, .yieldExpression,
    .awaitExpression, .doExpression, .bindExpression, .metaProperty, .jsxElement, .jsxAttribute,
    .jsxIdentifier, .jsxText, .jsxExpressionContainer]

/-- The name of a kind in documents and messages. -/
def name : Kind → String
  | .program => "Program"
  | .expressionStatement => "ExpressionStatement"
  | .blockStatement => "BlockStatement"
  | .emptyStatement => "EmptyStatement"
  | .debuggerStatement => "DebuggerStatement"
  | .ifStatement => "IfStatement"
  | .forStatement => "ForStatement"
  | .forInStatement => "ForInStatement"
  | .forOfStatement => "ForOfStatement"
  | .whileStatement => "WhileStatement"
  | .doWhileStatement => "DoWhileStatement"
  | .withStatement => "WithStatement"
  | .breakStatement => "BreakStatement"
  | .continueStatement => "ContinueStatement"
  | .returnStatement => "ReturnStatement"
  | .throwStatement => "ThrowStatement"
  | .switchStatement => "SwitchStatement"
  | .switchCase => "SwitchCase"
  | .tryStatement => "TryStatement"
  | .catchClause => "CatchClause"
  | .labeledStatement => "LabeledStatement"
  | .variableDeclaration => "VariableDeclaration"
  | .variableDeclarator => "VariableDeclarator"
  | .functionDeclaration => "FunctionDeclaration"
  | .functionExpression => "FunctionExpression"
  | .arrowFunctionExpression => "ArrowFunctionExpression"
  | .importDeclaration => "ImportDeclaration"
  | .importSpecifier => "ImportSpecifier"
  | .importDefaultSpecifier => "ImportDefaultSpecifier"
  | .importNamespaceSpecifier => "ImportNamespaceSpecifier"
  | .identifier => "Identifier"
  | .numericLiteral => "NumericLiteral"
  | .bigIntLiteral => "BigIntLiteral"
  | .stringLiteral => "StringLiteral"
  | .booleanLiteral => "BooleanLiteral"
  | .nullLiteral => "NullLiteral"
  | .regExpLiteral => "RegExpLiteral"
  | .templateLiteral => "TemplateLiteral"
  | .templateElement => "TemplateElement"
  | .taggedTemplateExpression => "TaggedTemplateExpression"
  | .thisExpression => "ThisExpression"
  | .super => "Super"
  | .arrayExpression => "ArrayExpression"
  | .arrayPattern => "ArrayPattern"
  | .objectExpression => "ObjectExpression"
  | .objectPattern => "ObjectPattern"
  | .objectProperty => "ObjectProperty"
  | .objectMethod => "ObjectMethod"
  | .spreadElement => "SpreadElement"
  | .restElement => "RestElement"
  | .assignmentPattern => "AssignmentPattern"
  | .unaryExpression => "UnaryExpression"
  | .updateExpression => "UpdateExpression"
  | .binaryExpression => "BinaryExpression"
  | .logicalExpression => "LogicalExpression"
  | .assignmentExpression => "AssignmentExpression"
  | .conditionalExpression => "ConditionalExpression"
  | .callExpression => "CallExpression"
  | .optionalCallExpression => "OptionalCallExpression"
  | .newExpression => "NewExpression"
  | .memberExpression => "MemberExpression"
  | .optionalMemberExpression => "OptionalMemberExpression"
  | .sequenceExpression => "SequenceExpression"
  | .yieldExpression => "YieldExpression"
  | .awaitExpression => "AwaitExpression"
  | .doExpression => "DoExpression"
  | .bindExpression => "BindExpression"
  | .metaProperty => "MetaProperty"
  | .jsxElement => "JSXElement"
  | .jsxAttribute => "JSXAttribute"
  | .jsxIdentifier => "JSXIdentifier"
  | .jsxText => "JSXText"
  | .jsxExpressionContainer => "JSXExpressionContainer"

/-- The kind with a given name. -/
def ofName? (name : String) : Option Kind := all.find? (·.name == name)

/-- The kind at a given place in the order of declaration. -/
def ofIndex? (index : Nat) : Option Kind := all[index]?

/-- The whole text of a node of this kind is a single token. -/
def isLeaf : Kind → Bool
  | .identifier | .numericLiteral | .bigIntLiteral | .stringLiteral | .booleanLiteral
  | .nullLiteral | .regExpLiteral | .templateElement | .thisExpression | .super
  | .emptyStatement | .debuggerStatement | .jsxIdentifier | .jsxText => true
  | _ => false

/-- The place of a kind in the order of declaration. -/
def index (kind : Kind) : Nat := kind.ctorIdx

/-- A name is read back as the kind it was written for. -/
@[simp]
theorem ofName?_name (kind : Kind) : ofName? kind.name = some kind := by
  cases kind <;> decide

end Kind

end Retrace
