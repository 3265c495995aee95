import Retrace.Proofs.Checked.Pairing
import Retrace.Rule.Collection
import Retrace.Rule.Expression
import Retrace.Rule.Markup

/-!
# Checked rules of expressions

The rules for operators, calls, collections, imports and markup, over checked
look-ups. All of them only look for tokens and anchor what they find.
-/

namespace Retrace.Checked

open Lookup

/-! ## Operators -/

/-- A spread or a rest. -/
def spread (p : Pairing) : Checked (List Anchor) := lead p "..."

/-- A binding with a default. -/
def assignmentPattern (p : Pairing) (s o : AssignmentPattern) : Checked (List Anchor) :=
  tokenOf p s o (fun site n => between site n.left n.right "=") "="

/-- An operator in front of its operand, which may be respelled. -/
def unary (p : Pairing) (s o : UnaryExpression) : Checked (List Anchor) :=
  tokenOrRespelling p (leading p.source s.operator) (leading p.output o.operator)
    s.operator o.operator

/-- An increment or decrement. -/
def update (p : Pairing) (s o : UpdateExpression) : Checked (List Anchor) :=
  if s.before = o.before then
    if s.before then
      tokenOrRespelling p (leading p.source s.operator) (leading p.output o.operator)
        s.operator o.operator
    else
      tokenOrRespelling p (trailing p.source s.operator) (trailing p.output o.operator)
        s.operator o.operator
  else return []

/-- An operator between two operands, which may be respelled. -/
def binary (p : Pairing) (s o : BinaryExpression) : Checked (List Anchor) :=
  tokenOrRespelling p (between p.source s.left s.right s.operator)
    (between p.output o.left o.right o.operator) s.operator o.operator

/-- A choice between two expressions. -/
def conditional (p : Pairing) (s o : ConditionalExpression) : Checked (List Anchor) :=
  tokenOf p s o (fun site n => between site n.test n.consequent "?") "?" ++
    tokenOf p s o (fun site n => between site n.consequent n.alternate ":") ":"

/-- Expressions joined by commas. -/
def sequence (p : Pairing) (s o : SequenceExpression) : Checked (List Anchor) :=
  separators p s.expressions o.expressions (found (some p.source.stop))
    (found (some p.output.stop)) ","

/-- A value handed out by a generator. -/
def yieldExpression (p : Pairing) (s o : YieldExpression) : Checked (List Anchor) :=
  lead p "yield" ++
    (if s.delegate && o.delegate then
      tokenOf p s o (fun site n => do before site (← found n.argument) "*") "*"
    else return [])

/-- The mark that binds a function to an object. -/
def bindMark (site : Site) (n : BindExpression) : Lookup Nat :=
  match n.object with
  | some object => between site object n.callee "::"
  | none => before site n.callee "::"

/-- A function bound to an object. -/
def bindExpression (p : Pairing) (s o : BindExpression) : Checked (List Anchor) :=
  tokenOf p s o bindMark "::"

/-- A property of a keyword. -/
def metaProperty (p : Pairing) (s o : MetaProperty) : Checked (List Anchor) :=
  tokenOf p s o (fun site n => between site n.keyword n.property ".") "."

section

variable {p : Pairing} (h : p.Fits)
include h

@[simp]
theorem spread_eq : spread p = .ok (Rule.spread p) := by
  simp [spread, Rule.spread, h]

@[simp]
theorem assignmentPattern_eq (s o : AssignmentPattern) :
    assignmentPattern p s o = .ok (Rule.assignmentPattern p s o) := by
  simp [assignmentPattern, Rule.assignmentPattern, tokenOf, Pairing.placesOf, h]

@[simp]
theorem unary_eq (s o : UnaryExpression) : unary p s o = .ok (Rule.unary p s o) := by
  simp [unary, Rule.unary, Pairing.placesOf, h]

@[simp]
theorem update_eq (s o : UpdateExpression) : update p s o = .ok (Rule.update p s o) := by
  unfold update Rule.update
  cases s.before <;> simp [Pairing.placesOf, h]

@[simp]
theorem binary_eq (s o : BinaryExpression) : binary p s o = .ok (Rule.binary p s o) := by
  simp [binary, Rule.binary, Pairing.placesOf, h]

@[simp]
theorem conditional_eq (s o : ConditionalExpression) :
    conditional p s o = .ok (Rule.conditional p s o) := by
  simp [conditional, Rule.conditional, tokenOf, Pairing.placesOf, h]

@[simp]
theorem sequence_eq (s o : SequenceExpression) :
    Checked.sequence p s o = .ok (Rule.sequence p s o) := by
  simp [Checked.sequence, Rule.sequence, Pairing.places, h]

@[simp]
theorem yieldExpression_eq (s o : YieldExpression) :
    yieldExpression p s o = .ok (Rule.yieldExpression p s o) := by
  simp [yieldExpression, Rule.yieldExpression, tokenOf, Pairing.placesOf, h]

omit h in
@[simp]
theorem bindMark_eq {site : Site} (hSite : site.Fits) (n : BindExpression) :
    bindMark site n = found (Rule.bindMark? site n) := by
  unfold bindMark Rule.bindMark?
  cases n.object <;> simp [hSite]

@[simp]
theorem bindExpression_eq (s o : BindExpression) :
    bindExpression p s o = .ok (Rule.bind p s o) := by
  simp [bindExpression, Rule.bind, tokenOf, Pairing.placesOf, h]

@[simp]
theorem metaProperty_eq (s o : MetaProperty) :
    metaProperty p s o = .ok (Rule.metaProperty p s o) := by
  simp [metaProperty, Rule.metaProperty, tokenOf, Pairing.placesOf, h]

end

/-! ## Calls and members -/

/-- The parenthesis that opens the arguments of a call. -/
def argumentsStart (site : Site) (n : Call) : Lookup Nat := do
  let stop ←
    match n.arguments.head? with
    | some first => outerStart site first
    | none => found (some site.stop)
  find site (← outerStop site n.callee) stop "("

/-- The arguments of a call, if both calls have a list of them. -/
def arguments (p : Pairing) (s o : Call) : Checked (List Anchor) := do
  match ← (argumentsStart p.source s).run, ← (argumentsStart p.output o).run with
  | some source, some output =>
    Checked.token p (found (some source)) (found (some output)) "(" ++
      separators p s.arguments o.arguments (trailing p.source ")") (trailing p.output ")") "," ++
      trail p ")"
  | _, _ => return []

/-- The mark of an optional call, between the callee and the arguments. -/
def optionalMark (site : Site) (n : Call) : Lookup Nat := do
  find site (← outerStop site n.callee) (← argumentsStart site n) "?."

/-- A call. -/
def call (p : Pairing) (s o : Call) : Checked (List Anchor) :=
  (if s.isOptional && o.isOptional then tokenOf p s o optionalMark "?." else return []) ++
    arguments p s o

/-- A call with `new`, which needs no arguments. -/
def newExpression (p : Pairing) (s o : Call) : Checked (List Anchor) :=
  lead p "new" ++ arguments p s o

/-- An access to a member. -/
def member (p : Pairing) (s o : Member) : Checked (List Anchor) :=
  let bothOptional := s.isOptional && o.isOptional
  (if bothOptional then
    tokenOf p s o (fun site n => between site n.object n.property "?.") "?."
  else return []) ++
    (if s.computed && o.computed then
      tokenOf p s o (fun site n => between site n.object n.property "[") "[" ++ trail p "]"
    else if !s.computed && !o.computed && !bothOptional then
      tokenOf p s o (fun site n => between site n.object n.property ".") "."
    else return [])

@[simp]
theorem argumentsStart_eq {site : Site} (h : site.Fits) (n : Call) :
    argumentsStart site n = found (Rule.argumentsStart? site n) := by
  unfold argumentsStart Rule.argumentsStart?
  cases n.arguments.head? <;> simp [h]

@[simp]
theorem optionalMark_eq {site : Site} (h : site.Fits) (n : Call) :
    optionalMark site n = found (Rule.optionalMark? site n) := by
  simp [optionalMark, Rule.optionalMark?, h]

section

variable {p : Pairing} (h : p.Fits)
include h

@[simp]
theorem arguments_eq (s o : Call) : arguments p s o = .ok (Rule.arguments p s o) := by
  unfold arguments Rule.arguments
  cases hSource : Rule.argumentsStart? p.source s <;>
    cases hOutput : Rule.argumentsStart? p.output o <;>
    simp [h, hSource, hOutput, Pairing.trailing, Pairing.places]

@[simp]
theorem call_eq (s o : Call) : call p s o = .ok (Rule.call p s o) := by
  simp [call, Rule.call, tokenOf, Pairing.placesOf, h]

@[simp]
theorem newExpression_eq (s o : Call) :
    newExpression p s o = .ok (Rule.newExpression p s o) := by
  simp [newExpression, Rule.newExpression, h]

@[simp]
theorem member_eq (s o : Member) : member p s o = .ok (Rule.member p s o) := by
  simp [member, Rule.member, tokenOf, Pairing.placesOf, h]

end

/-! ## Collections and imports -/

/-- An array literal or pattern, with the separators next to a hole reported. -/
def array (p : Pairing) (s o : ArrayLike) : Checked Outcome := do
  let sourceClose := trailing p.source "]"
  let outputClose := trailing p.output "]"
  let anchors ← lead p "[" ++
    sparseSeparators p s.elements o.elements sourceClose outputClose "," ++
    Checked.token p sourceClose outputClose "]"
  return { anchors, problems := ← holeProblems s.elements o.elements sourceClose outputClose }

/-- An object literal or pattern. -/
def object (p : Pairing) (s o : ObjectLike) : Checked (List Anchor) :=
  lead p "\x7b" ++
    separators p s.properties o.properties (trailing p.source "\x7d") (trailing p.output "\x7d")
      "," ++
    trail p "\x7d"

/-- A property of an object. -/
def property (p : Pairing) (s o : ObjectProperty) : Checked (List Anchor) :=
  (if s.computed && o.computed then
    tokenOf p s o (fun site n => lastBefore site n.key "[") "[" ++
      tokenOf p s o (fun site n => between site n.key n.value "]") "]"
  else return []) ++
    (if s.shorthand || o.shorthand then return []
    else tokenOf p s o (fun site n => between site n.key n.value ":") ":")

/-- The keyword in front of the name of a module. -/
def fromKeyword (site : Site) (n : ImportDeclaration) : Lookup Nat := do
  let start ←
    match n.specifiers.getLast? with
    | some last => outerStop site last
    | none => found (some site.start)
  find site start (← outerStart site n.source) "from"

/-- An import. -/
def importDeclaration (p : Pairing) (s o : ImportDeclaration) : Checked (List Anchor) :=
  lead p "import" ++
    tokenOf p s o (fun site n => before site n.source "\x7b") "\x7b" ++
    separators p s.specifiers o.specifiers (fromKeyword p.source s) (fromKeyword p.output o)
      "," ++
    tokenOf p s o (fun site n => lastBefore site n.source "\x7d") "\x7d" ++
    tokenOf p s o fromKeyword "from" ++
    trail p ";"

/-- One imported name, if it is renamed on both sides. -/
def importSpecifier (p : Pairing) (s o : ImportSpecifier) : Checked (List Anchor) :=
  if s.imported = s.localName ∨ o.imported = o.localName then return []
  else tokenOf p s o (fun site n => between site n.imported n.localName "as") "as"

/-- An import of everything under one name. -/
def importNamespace (p : Pairing) (s o : ImportLocal) : Checked (List Anchor) :=
  lead p "*" ++ tokenOf p s o (fun site n => before site n.localName "as") "as"

@[simp]
theorem fromKeyword_eq {site : Site} (h : site.Fits) (n : ImportDeclaration) :
    fromKeyword site n = found (Rule.fromKeyword? site n) := by
  unfold fromKeyword Rule.fromKeyword?
  cases n.specifiers.getLast? <;> simp [h]

section

variable {p : Pairing} (h : p.Fits)
include h

@[simp]
theorem array_eq (s o : ArrayLike) : array p s o = .ok (Rule.array p s o) := by
  simp [array, Rule.array, Pairing.places, h]

@[simp]
theorem object_eq (s o : ObjectLike) : object p s o = .ok (Rule.object p s o) := by
  simp [object, Rule.object, Pairing.trailing, Pairing.places, h]

@[simp]
theorem property_eq (s o : ObjectProperty) : property p s o = .ok (Rule.property p s o) := by
  simp [property, Rule.property, tokenOf, Pairing.placesOf, h]

@[simp]
theorem importDeclaration_eq (s o : ImportDeclaration) :
    importDeclaration p s o = .ok (Rule.importDeclaration p s o) := by
  simp [importDeclaration, Rule.importDeclaration, tokenOf, Pairing.placesOf, h]

@[simp]
theorem importSpecifier_eq (s o : ImportSpecifier) :
    importSpecifier p s o = .ok (Rule.importSpecifier p s o) := by
  simp [importSpecifier, Rule.importSpecifier, tokenOf, Pairing.placesOf, h]

@[simp]
theorem importNamespace_eq (s o : ImportLocal) :
    importNamespace p s o = .ok (Rule.importNamespace p s o) := by
  simp [importNamespace, Rule.importNamespace, tokenOf, Pairing.placesOf, h]

end

/-! ## Markup -/

/-- The end of the opening tag, after the name and the attributes. -/
def tagStop (site : Site) (n : JsxElement) : Lookup Nat := do
  let stop ←
    match n.children.head? with
    | some child => outerStart site child
    | none => found (some site.stop)
  find site (← outerStop site (n.attributes.getLast?.getD n.name)) stop ">"

/-- The start of the closing tag, after the children. -/
def closingTag (site : Site) (n : JsxElement) : Lookup Nat := do
  let start ←
    match n.children.getLast? with
    | some child => outerStop site child
    | none => tagStop site n
  rfind site start site.stop "</"

/-- An element. -/
def element (p : Pairing) (s o : JsxElement) : Checked (List Anchor) :=
  lead p "<" ++
    match s.selfClosing, o.selfClosing with
    | true, true => trail p "/>"
    | false, false =>
      tokenOf p s o tagStop ">" ++ tokenOf p s o closingTag "</" ++ trail p ">"
    | _, _ => return []

/-- An attribute, if it has a value on both sides. -/
def markupAttribute (p : Pairing) (s o : JsxAttribute) : Checked (List Anchor) :=
  if s.value.isSome && o.value.isSome then
    tokenOf p s o (fun site n => do between site n.name (← found n.value) "=") "="
  else return []

/-- An expression in braces. -/
def expressionContainer (p : Pairing) : Checked (List Anchor) := lead p "\x7b" ++ trail p "\x7d"

@[simp]
theorem tagStop_eq {site : Site} (h : site.Fits) (n : JsxElement) :
    tagStop site n = found (Rule.tagStop? site n) := by
  unfold tagStop Rule.tagStop?
  cases n.children.head? <;> simp [h]

@[simp]
theorem closingTag_eq {site : Site} (h : site.Fits) (n : JsxElement) :
    closingTag site n = found (Rule.closingTag? site n) := by
  unfold closingTag Rule.closingTag?
  cases n.children.getLast? <;> simp [h]

section

variable {p : Pairing} (h : p.Fits)
include h

@[simp]
theorem element_eq (s o : JsxElement) : element p s o = .ok (Rule.element p s o) := by
  unfold element Rule.element
  cases s.selfClosing <;> cases o.selfClosing <;> simp [tokenOf, Pairing.placesOf, h]

@[simp]
theorem markupAttribute_eq (s o : JsxAttribute) :
    markupAttribute p s o = .ok (Rule.markupAttribute p s o) := by
  simp [markupAttribute, Rule.markupAttribute, tokenOf, Pairing.placesOf, h]

@[simp]
theorem expressionContainer_eq : expressionContainer p = .ok (Rule.expressionContainer p) := by
  simp [expressionContainer, Rule.expressionContainer, h]

end

end Retrace.Checked
