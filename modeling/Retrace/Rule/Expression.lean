import Retrace.Rule.Separator

/-!
# Expressions

The rules for operators, calls and member accesses.
-/

namespace Retrace.Rule

/-- A spread or a rest. -/
def spread (p : Pairing) : List Anchor := p.leading "..."

/-- A binding with a default. -/
def assignmentPattern (p : Pairing) (s o : AssignmentPattern) : List Anchor :=
  p.token (p.placesOf s o fun site n => site.between? n.left n.right "=") "="

/-- An operator in front of its operand, which may be respelled. -/
def unary (p : Pairing) (s o : UnaryExpression) : List Anchor :=
  p.tokenOrRespelling (p.placesOf s o fun site n => site.leading? n.operator)
    s.operator o.operator

/-- An increment or decrement. If the operator changed sides, it is not
anchored. -/
def update (p : Pairing) (s o : UpdateExpression) : List Anchor :=
  if s.before = o.before then
    p.tokenOrRespelling
      (p.placesOf s o fun site n =>
        if s.before then site.leading? n.operator else site.trailing? n.operator)
      s.operator o.operator
  else []

/-- An operator between two operands, which may be respelled. -/
def binary (p : Pairing) (s o : BinaryExpression) : List Anchor :=
  p.tokenOrRespelling (p.placesOf s o fun site n => site.between? n.left n.right n.operator)
    s.operator o.operator

/-- A choice between two expressions. -/
def conditional (p : Pairing) (s o : ConditionalExpression) : List Anchor :=
  p.token (p.placesOf s o fun site n => site.between? n.test n.consequent "?") "?" ++
    p.token (p.placesOf s o fun site n => site.between? n.consequent n.alternate ":") ":"

/-- The parenthesis that opens the arguments of a call. -/
def argumentsStart? (site : Site) (n : Call) : Option Nat := do
  let stop ←
    match n.arguments.head? with
    | some first => site.outerStart? first
    | none => some site.stop
  site.find? (← site.outerStop? n.callee) stop "("

/-- The arguments of a call, if both calls have a list of them. -/
def arguments (p : Pairing) (s o : Call) : List Anchor :=
  match argumentsStart? p.source s, argumentsStart? p.output o with
  | some source, some output =>
    let close := p.places (·.trailing? ")")
    p.token (some source, some output) "(" ++
      p.separators s.arguments o.arguments close "," ++
      p.token close ")"
  | _, _ => []

/-- The mark of an optional call, between the callee and the arguments. -/
def optionalMark? (site : Site) (n : Call) : Option Nat := do
  site.find? (← site.outerStop? n.callee) (← argumentsStart? site n) "?."

/-- A call. -/
def call (p : Pairing) (s o : Call) : List Anchor :=
  (if s.isOptional && o.isOptional then p.token (p.placesOf s o optionalMark?) "?." else []) ++
    arguments p s o

/-- A call with `new`, which needs no arguments. -/
def newExpression (p : Pairing) (s o : Call) : List Anchor :=
  p.leading "new" ++ arguments p s o

/-- An access to a member. -/
def member (p : Pairing) (s o : Member) : List Anchor :=
  let bothOptional := s.isOptional && o.isOptional
  (if bothOptional then
    p.token (p.placesOf s o fun site n => site.between? n.object n.property "?.") "?."
  else []) ++
    (if s.computed && o.computed then
      p.token (p.placesOf s o fun site n => site.between? n.object n.property "[") "[" ++
        p.trailing "]"
    else if !s.computed && !o.computed && !bothOptional then
      p.token (p.placesOf s o fun site n => site.between? n.object n.property ".") "."
    else [])

/-- Expressions joined by commas. -/
def sequence (p : Pairing) (s o : SequenceExpression) : List Anchor :=
  p.separators s.expressions o.expressions (p.places fun site => some site.stop) ","

/-- A value handed out by a generator. -/
def yieldExpression (p : Pairing) (s o : YieldExpression) : List Anchor :=
  p.leading "yield" ++
    (if s.delegate && o.delegate then
      p.token (p.placesOf s o fun site n => do site.before? (← n.argument) "*") "*"
    else [])

/-- The mark that binds a function to an object. -/
def bindMark? (site : Site) (n : BindExpression) : Option Nat :=
  match n.object with
  | some object => site.between? object n.callee "::"
  | none => site.before? n.callee "::"

/-- A function bound to an object. -/
def bind (p : Pairing) (s o : BindExpression) : List Anchor :=
  p.token (p.placesOf s o bindMark?) "::"

/-- A property of a keyword. -/
def metaProperty (p : Pairing) (s o : MetaProperty) : List Anchor :=
  p.token (p.placesOf s o fun site n => site.between? n.keyword n.property ".") "."

end Retrace.Rule
