import Retrace.Syntax.Kind
import Retrace.Numeral.Basic

/-!
# Payloads

What a node holds besides its span depends on its kind: the nodes it is made of
and the facts about its tokens that cannot be read off the text. `Payload kind`
is the type of what a node of that kind holds. Kinds of the same shape share a
type, so that one rule can serve them.
-/

namespace Retrace

/-- The place of a node in its tree. -/
structure NodeId where
  index : Nat
deriving DecidableEq

/-- The spelling of a node in messages. -/
def NodeId.text (id : NodeId) : String := "#" ++ toString id.index

/-- A program or a block: statements one after the other. -/
structure Body where
  body : List NodeId

/-- An expression with something around or after it. -/
structure Enclosed where
  expression : NodeId

/-- The node of an `if`. -/
structure IfStatement where
  test : NodeId
  consequent : NodeId
  alternate : Option NodeId

/-- The node of a `for` with three clauses, each of which may be missing. -/
structure ForStatement where
  init : Option NodeId
  test : Option NodeId
  update : Option NodeId
  body : NodeId

/-- The node of a `for` over the keys of an object. -/
structure ForInStatement where
  left : NodeId
  right : NodeId
  body : NodeId

/-- The node of a `for` over the items of a sequence. -/
structure ForOfStatement where
  left : NodeId
  right : NodeId
  body : NodeId
  isAwait : Bool

/-- A loop on a condition, tested before or after the body. -/
structure WhileStatement where
  test : NodeId
  body : NodeId

/-- The node of a `with`. -/
structure WithStatement where
  object : NodeId
  body : NodeId

/-- A jump out of a loop or to its next round. -/
structure JumpStatement where
  label : Option NodeId

/-- A statement of a keyword and at most one expression. -/
structure ArgumentStatement where
  argument : Option NodeId

/-- The node of a `switch`. -/
structure SwitchStatement where
  discriminant : NodeId
  cases : List NodeId

/-- One case of a `switch`; the default case has no test. -/
structure SwitchCase where
  test : Option NodeId
  consequent : List NodeId

/-- The node of a `try`. -/
structure TryStatement where
  block : NodeId
  handler : Option NodeId
  finalizer : Option NodeId

/-- The node of a `catch`. -/
structure CatchClause where
  param : Option NodeId
  body : NodeId

/-- A statement with a label. -/
structure LabeledStatement where
  label : NodeId
  body : NodeId

/-- A declaration of variables under one keyword. -/
structure VariableDeclaration where
  keyword : String
  declarations : List NodeId

/-- One variable of a declaration. -/
structure VariableDeclarator where
  id : NodeId
  init : Option NodeId

/-- A function with the keyword `function`. -/
structure Function where
  id : Option NodeId
  params : List NodeId
  body : NodeId
  isAsync : Bool
  isGenerator : Bool

/-- A function with an arrow. -/
structure ArrowFunction where
  params : List NodeId
  body : NodeId
  isAsync : Bool

/-- The node of an `import`. -/
structure ImportDeclaration where
  specifiers : List NodeId
  source : NodeId

/-- One imported name. Both ids are the same if it is not renamed. -/
structure ImportSpecifier where
  imported : NodeId
  localName : NodeId

/-- A default or a namespace import. -/
structure ImportLocal where
  localName : NodeId

/-- A name. -/
structure Identifier where
  name : String

/-- A number literal. -/
structure NumericLiteral where
  value : Numeral

/-- A literal whose value is a text. -/
structure TextLiteral where
  value : String

/-- The literals `true` and `false`. -/
structure BooleanLiteral where
  value : Bool

/-- A regular expression. -/
structure RegExpLiteral where
  pattern : String
  flags : String

/-- A template: pieces of text with expressions between them. -/
structure TemplateLiteral where
  quasis : List NodeId
  expressions : List NodeId

/-- A piece of text of a template. -/
structure TemplateElement where
  raw : String
  tail : Bool

/-- A template with a tag in front. -/
structure TaggedTemplate where
  tag : NodeId
  quasi : NodeId

/-- An array literal or pattern. An entry without a node is a hole. -/
structure ArrayLike where
  elements : List (Option NodeId)

/-- An object literal or pattern. -/
structure ObjectLike where
  properties : List NodeId

/-- A property. Both ids are the same if the property is a shorthand. -/
structure ObjectProperty where
  key : NodeId
  value : NodeId
  computed : Bool
  shorthand : Bool

/-- What a method of an object literal is called for. -/
inductive MethodKind where
  | method
  | get
  | set
deriving DecidableEq

/-- A method of an object literal. -/
structure ObjectMethod where
  kind : MethodKind
  key : NodeId
  params : List NodeId
  body : NodeId
  computed : Bool
  isAsync : Bool
  isGenerator : Bool

/-- An operator or keyword in front of the one node it applies to. -/
structure Operand where
  argument : NodeId

/-- A binding with a default. -/
structure AssignmentPattern where
  left : NodeId
  right : NodeId

/-- An operator in front of its operand. -/
structure UnaryExpression where
  operator : String
  argument : NodeId

/-- An increment or a decrement. -/
structure UpdateExpression where
  operator : String
  argument : NodeId
  before : Bool

/-- An operator between two operands. -/
structure BinaryExpression where
  operator : String
  left : NodeId
  right : NodeId

/-- A choice between two expressions. -/
structure ConditionalExpression where
  test : NodeId
  consequent : NodeId
  alternate : NodeId

/-- A call, also with `new`. -/
structure Call where
  callee : NodeId
  arguments : List NodeId
  isOptional : Bool

/-- An access to a member. -/
structure Member where
  object : NodeId
  property : NodeId
  computed : Bool
  isOptional : Bool

/-- Expressions joined by commas. -/
structure SequenceExpression where
  expressions : List NodeId

/-- The node of a `yield`. -/
structure YieldExpression where
  argument : Option NodeId
  delegate : Bool

/-- The node of a `do` expression. -/
structure DoExpression where
  body : NodeId

/-- A function bound to an object, which may be left out. -/
structure BindExpression where
  object : Option NodeId
  callee : NodeId

/-- A property of a keyword. -/
structure MetaProperty where
  keyword : NodeId
  property : NodeId

/-- An element of markup. -/
structure JsxElement where
  name : NodeId
  attributes : List NodeId
  children : List NodeId
  selfClosing : Bool

/-- An attribute of an element of markup. -/
structure JsxAttribute where
  name : NodeId
  value : Option NodeId

/-- What a node of a given kind holds. -/
abbrev Payload : Kind → Type
  | .program => Body
  | .expressionStatement => Enclosed
  | .blockStatement => Body
  | .emptyStatement => Unit
  | .debuggerStatement => Unit
  | .ifStatement => IfStatement
  | .forStatement => ForStatement
  | .forInStatement => ForInStatement
  | .forOfStatement => ForOfStatement
  | .whileStatement => WhileStatement
  | .doWhileStatement => WhileStatement
  | .withStatement => WithStatement
  | .breakStatement => JumpStatement
  | .continueStatement => JumpStatement
  | .returnStatement => ArgumentStatement
  | .throwStatement => ArgumentStatement
  | .switchStatement => SwitchStatement
  | .switchCase => SwitchCase
  | .tryStatement => TryStatement
  | .catchClause => CatchClause
  | .labeledStatement => LabeledStatement
  | .variableDeclaration => VariableDeclaration
  | .variableDeclarator => VariableDeclarator
  | .functionDeclaration => Function
  | .functionExpression => Function
  | .arrowFunctionExpression => ArrowFunction
  | .importDeclaration => ImportDeclaration
  | .importSpecifier => ImportSpecifier
  | .importDefaultSpecifier => ImportLocal
  | .importNamespaceSpecifier => ImportLocal
  | .identifier => Identifier
  | .numericLiteral => NumericLiteral
  | .bigIntLiteral => TextLiteral
  | .stringLiteral => TextLiteral
  | .booleanLiteral => BooleanLiteral
  | .nullLiteral => Unit
  | .regExpLiteral => RegExpLiteral
  | .templateLiteral => TemplateLiteral
  | .templateElement => TemplateElement
  | .taggedTemplateExpression => TaggedTemplate
  | .thisExpression => Unit
  | .super => Unit
  | .arrayExpression => ArrayLike
  | .arrayPattern => ArrayLike
  | .objectExpression => ObjectLike
  | .objectPattern => ObjectLike
  | .objectProperty => ObjectProperty
  | .objectMethod => ObjectMethod
  | .spreadElement => Operand
  | .restElement => Operand
  | .assignmentPattern => AssignmentPattern
  | .unaryExpression => UnaryExpression
  | .updateExpression => UpdateExpression
  | .binaryExpression => BinaryExpression
  | .logicalExpression => BinaryExpression
  | .assignmentExpression => BinaryExpression
  | .conditionalExpression => ConditionalExpression
  | .callExpression => Call
  | .optionalCallExpression => Call
  | .newExpression => Call
  | .memberExpression => Member
  | .optionalMemberExpression => Member
  | .sequenceExpression => SequenceExpression
  | .yieldExpression => YieldExpression
  | .awaitExpression => Operand
  | .doExpression => DoExpression
  | .bindExpression => BindExpression
  | .metaProperty => MetaProperty
  | .jsxElement => JsxElement
  | .jsxAttribute => JsxAttribute
  | .jsxIdentifier => Identifier
  | .jsxText => TextLiteral
  | .jsxExpressionContainer => Enclosed

/-- A construct: a kind together with what a node of that kind holds. -/
structure Construct where
  kind : Kind
  payload : Payload kind

end Retrace
