import Retrace.Rule.Separator

/-!
# Functions

The rules for functions, arrows and methods. All of them anchor a list of
parameters, which is found between a point after the name and the body.
-/

namespace Retrace.Rule

/-- The parentheses of a list of parameters, which starts after `start` and ends
before the body. -/
def paramParens (site : Site) (start : Nat) (params : List NodeId) (body : NodeId) :
    Option Nat × Option Nat :=
  let bodyStart := site.outerStart? body
  let first :=
    match params.head? with
    | some param => site.outerStart? param
    | none => bodyStart
  let opening := first.bind fun stop => site.find? start stop "("
  let last :=
    match params.getLast? with
    | some param => site.outerStop? param
    | none => opening.map (· + 1)
  let closing := do site.rfind? (← last) (← bodyStart) ")"
  (opening, closing)

/-- Anchors two lists of parameters and the parentheses around them. -/
def params (p : Pairing) (source output : Option Nat × Option Nat) (s o : List NodeId) :
    List Anchor :=
  p.token (source.1, output.1) "(" ++
    p.separators s o (source.2, output.2) "," ++
    p.token (source.2, output.2) ")"

/-- Anchors `async` if both functions have it. -/
def asyncKeyword (p : Pairing) (s o : Bool) : List Anchor :=
  if s && o then p.leading "async" else []

/-- Where the name of a function starts, or its parameters, or its body. -/
def headStop? (site : Site) (n : Function) : Option Nat :=
  ((n.id.or n.params.head?).bind site.outerStart?).or (site.outerStart? n.body)

/-- The keyword of a function. -/
def functionKeyword? (site : Site) (n : Function) : Option Nat := do
  site.find? site.start (← headStop? site n) "function"

/-- The star of a generator, between the keyword and the name. -/
def generatorStar? (site : Site) (n : Function) : Option Nat := do
  let keyword ← functionKeyword? site n
  site.find? (keyword + byteSize "function".toList) (← headStop? site n) "*"

/-- The parentheses of the parameters of a function, if its name is where it
should be. -/
def functionParens? (site : Site) (n : Function) : Option (Option Nat × Option Nat) := do
  let start ←
    match n.id with
    | some id => site.outerStop? id
    | none => some site.start
  return paramParens site start n.params n.body

/-- A function with a keyword. -/
def function (p : Pairing) (s o : Function) : List Anchor :=
  asyncKeyword p s.isAsync o.isAsync ++
    p.token (p.placesOf s o functionKeyword?) "function" ++
    (if s.isGenerator && o.isGenerator then p.token (p.placesOf s o generatorStar?) "*" else []) ++
    match functionParens? p.source s, functionParens? p.output o with
    | some source, some output => params p source output s.params o.params
    | _, _ => []

/-- The later of two places; a place that is not known is the earlier one. -/
def later : Option Nat → Option Nat → Option Nat
  | some a, some b => some (max a b)
  | some a, none => some a
  | none, b => b

/-- The arrow of a function, after the parameters and the last parenthesis before
the body. -/
def arrow? (site : Site) (n : ArrowFunction) : Option Nat := do
  let close := (site.lastBefore? n.body ")").map (· + 1)
  let start :=
    match n.params.getLast? with
    | some last => later (site.outerStop? last) close
    | none => close
  site.find? (start.getD site.start) (← site.outerStart? n.body) "=>"

/-- A function with an arrow. -/
def arrow (p : Pairing) (s o : ArrowFunction) : List Anchor :=
  asyncKeyword p s.isAsync o.isAsync ++
    params p (paramParens p.source p.source.start s.params s.body)
      (paramParens p.output p.output.start o.params o.body) s.params o.params ++
    p.token (p.placesOf s o arrow?) "=>"

/-- The keyword of an accessor, if both methods are the same accessor. -/
def accessorKeyword (p : Pairing) (s o : MethodKind) : List Anchor :=
  match s, o with
  | .get, .get => p.leading "get"
  | .set, .set => p.leading "set"
  | _, _ => []

/-- The bracket after a computed name of a method. -/
def nameStop? (site : Site) (n : ObjectMethod) : Option Nat := do
  let stop ← site.outerStart? (n.params.head?.getD n.body)
  site.find? (← site.outerStop? n.key) stop "]"

/-- The parentheses of the parameters of a method, if its name is where it should
be. -/
def methodParens? (site : Site) (n : ObjectMethod) : Option (Option Nat × Option Nat) := do
  return paramParens site (← site.outerStop? n.key) n.params n.body

/-- A method of an object literal. -/
def method (p : Pairing) (s o : ObjectMethod) : List Anchor :=
  asyncKeyword p s.isAsync o.isAsync ++
    accessorKeyword p s.kind o.kind ++
    (if s.isGenerator && o.isGenerator then
      p.token (p.placesOf s o fun site n => site.before? n.key "*") "*"
    else []) ++
    (if s.computed && o.computed then
      p.token (p.placesOf s o fun site n => site.lastBefore? n.key "[") "[" ++
        p.token (p.placesOf s o nameStop?) "]"
    else []) ++
    match methodParens? p.source s, methodParens? p.output o with
    | some source, some output => params p source output s.params o.params
    | _, _ => []

/-- A function with an arrow that became one with a keyword: the parameters are
what the two have in common. -/
def arrowToFunction (p : Pairing) (s : ArrowFunction) (o : Function) : List Anchor :=
  asyncKeyword p s.isAsync o.isAsync ++
    match functionParens? p.output o with
    | some output =>
      params p (paramParens p.source p.source.start s.params s.body) output s.params o.params
    | none => []

end Retrace.Rule
