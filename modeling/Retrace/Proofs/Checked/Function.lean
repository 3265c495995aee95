import Retrace.Proofs.Checked.Statement
import Retrace.Rule.Function

/-!
# Checked rules of functions

The rules for functions, arrows and methods, over checked look-ups. The places that
are computed here and not looked up are those behind a parenthesis and behind the
keyword of a function.
-/

namespace Retrace.Checked

open Lookup

/-! ## Parameters -/

/-- The parentheses of a list of parameters, which starts after `start` and ends
before the body. -/
def paramParens (site : Site) (start : Nat) (params : List NodeId) (body : NodeId) :
    Checked (Option Nat × Option Nat) := do
  let bodyStart := outerStart site body
  let first :=
    match params.head? with
    | some param => outerStart site param
    | none => bodyStart
  let opening ← OptionT.run do find site start (← first) "("
  let last :=
    match params.getLast? with
    | some param => outerStop site param
    | none => plus (found opening) 1
  let closing ← OptionT.run do rfind site (← last) (← bodyStart) ")"
  return (opening, closing)

/-- Anchors two lists of parameters and the parentheses around them. -/
def params (p : Pairing) (source output : Option Nat × Option Nat) (s o : List NodeId) :
    Checked (List Anchor) :=
  Checked.token p (found source.1) (found output.1) "(" ++
    separators p s o (found source.2) (found output.2) "," ++
    Checked.token p (found source.2) (found output.2) ")"

/-- Anchors two lists of parameters if the parentheses of both can be looked for. -/
def paramsIn (p : Pairing) (source output : Lookup (Option Nat × Option Nat)) (s o : List NodeId) :
    Checked (List Anchor) := do
  match ← source.run, ← output.run with
  | some source, some output => params p source output s o
  | _, _ => return []

/-- Anchors `async` if both functions have it. -/
def asyncKeyword (p : Pairing) (s o : Bool) : Checked (List Anchor) :=
  if s && o then lead p "async" else return []

@[simp]
theorem paramParens_eq {site : Site} (h : site.Fits) (start : Nat) (params : List NodeId)
    (body : NodeId) :
    paramParens site start params body = .ok (Rule.paramParens site start params body) := by
  have hOpening : site.Ahead (Rule.paramParens site start params body).1 1 :=
    .bind (fun _ => site.ahead_find? _ _ "(") _
  unfold Rule.paramParens at hOpening
  unfold paramParens Rule.paramParens
  cases hHead : params.head? <;> cases hLast : params.getLast? <;>
    simp only [hHead] at hOpening <;>
    simp only [outerStart_eq h, outerStop_eq h, find_eq h, rfind_eq h, found_bind_found, run_found,
      ok_bind, pure_eq_ok, Option.bind_eq_bind, plus_ahead h hOpening]

@[simp]
theorem params_eq {p : Pairing} (h : p.Fits) (source output : Option Nat × Option Nat)
    (s o : List NodeId) : params p source output s o = .ok (Rule.params p source output s o) := by
  simp [params, Rule.params, h]

@[simp]
theorem paramsIn_found {p : Pairing} (h : p.Fits) (source output : Option (Option Nat × Option Nat))
    (s o : List NodeId) :
    paramsIn p (found source) (found output) s o = .ok
      (match source, output with
      | some source, some output => Rule.params p source output s o
      | _, _ => []) := by
  cases source <;> cases output <;> simp [paramsIn, h]

@[simp]
theorem asyncKeyword_eq {p : Pairing} (h : p.Fits) (s o : Bool) :
    asyncKeyword p s o = .ok (Rule.asyncKeyword p s o) := by
  simp [asyncKeyword, Rule.asyncKeyword, h]

/-! ## Functions with a keyword -/

/-- Where the name of a function starts, or its parameters, or its body. -/
def headStop (site : Site) (n : Function) : Lookup Nat :=
  either (do outerStart site (← found (n.id.or n.params.head?))) (outerStart site n.body)

/-- The keyword of a function. -/
def functionKeyword (site : Site) (n : Function) : Lookup Nat := do
  find site site.start (← headStop site n) "function"

/-- The star of a generator, between the keyword and the name. -/
def generatorStar (site : Site) (n : Function) : Lookup Nat := do
  let start ← plus (functionKeyword site n) (byteSize "function".toList)
  find site start (← headStop site n) "*"

/-- The parentheses of the parameters of a function, if its name is where it should
be. -/
def functionParens (site : Site) (n : Function) : Lookup (Option Nat × Option Nat) := do
  let start ←
    match n.id with
    | some id => outerStop site id
    | none => found (some site.start)
  known (paramParens site start n.params n.body)

/-- A function with a keyword. -/
def function (p : Pairing) (s o : Function) : Checked (List Anchor) :=
  asyncKeyword p s.isAsync o.isAsync ++
    tokenOf p s o functionKeyword "function" ++
    (if s.isGenerator && o.isGenerator then tokenOf p s o generatorStar "*" else return []) ++
    paramsIn p (functionParens p.source s) (functionParens p.output o) s.params o.params

@[simp]
theorem headStop_eq {site : Site} (h : site.Fits) (n : Function) :
    headStop site n = found (Rule.headStop? site n) := by
  simp [headStop, Rule.headStop?, h]

@[simp]
theorem functionKeyword_eq {site : Site} (h : site.Fits) (n : Function) :
    functionKeyword site n = found (Rule.functionKeyword? site n) := by
  simp [functionKeyword, Rule.functionKeyword?, h]

@[simp]
theorem generatorStar_eq {site : Site} (h : site.Fits) (n : Function) :
    generatorStar site n = found (Rule.generatorStar? site n) := by
  have hKeyword : site.Ahead (Rule.functionKeyword? site n) (byteSize "function".toList) :=
    .bind (fun _ => site.ahead_find? _ _ "function") _
  unfold generatorStar Rule.generatorStar?
  rw [functionKeyword_eq h, plus_ahead h hKeyword]
  cases Rule.functionKeyword? site n <;> simp [h]

@[simp]
theorem functionParens_eq {site : Site} (h : site.Fits) (n : Function) :
    functionParens site n = found (Rule.functionParens? site n) := by
  unfold functionParens Rule.functionParens?
  cases n.id <;> simp [h]

@[simp]
theorem function_eq {p : Pairing} (h : p.Fits) (s o : Function) :
    function p s o = .ok (Rule.function p s o) := by
  unfold function Rule.function
  cases hSource : Rule.functionParens? p.source s <;>
    cases hOutput : Rule.functionParens? p.output o <;>
    simp [tokenOf, Pairing.placesOf, h, hSource, hOutput]

/-! ## Functions with an arrow -/

/-- The arrow of a function, after the parameters and the last parenthesis before the
body. -/
def arrowMark (site : Site) (n : ArrowFunction) : Lookup Nat := do
  let close ← known (plus (lastBefore site n.body ")") 1).run
  let start ← known <| OptionT.run <|
    match n.params.getLast? with
    | some last => OptionT.mk do return Rule.later (← (outerStop site last).run) close
    | none => found close
  find site (start.getD site.start) (← outerStart site n.body) "=>"

/-- A function with an arrow. -/
def arrow (p : Pairing) (s o : ArrowFunction) : Checked (List Anchor) :=
  asyncKeyword p s.isAsync o.isAsync ++
    paramsIn p (known (paramParens p.source p.source.start s.params s.body))
      (known (paramParens p.output p.output.start o.params o.body)) s.params o.params ++
    tokenOf p s o arrowMark "=>"

@[simp]
theorem arrowMark_eq {site : Site} (h : site.Fits) (n : ArrowFunction) :
    arrowMark site n = found (Rule.arrow? site n) := by
  have hClose : site.Ahead (site.lastBefore? n.body ")") 1 :=
    .bind (fun _ => site.ahead_rfind? _ _ ")") _
  unfold arrowMark Rule.arrow?
  cases n.params.getLast? <;> simp [h, plus_ahead h hClose]

@[simp]
theorem arrow_eq {p : Pairing} (h : p.Fits) (s o : ArrowFunction) :
    arrow p s o = .ok (Rule.arrow p s o) := by
  simp [arrow, Rule.arrow, tokenOf, Pairing.placesOf, h]

/-- A function with an arrow that became one with a keyword. -/
def arrowToFunction (p : Pairing) (s : ArrowFunction) (o : Function) : Checked (List Anchor) :=
  asyncKeyword p s.isAsync o.isAsync ++
    paramsIn p (known (paramParens p.source p.source.start s.params s.body))
      (functionParens p.output o) s.params o.params

@[simp]
theorem arrowToFunction_eq {p : Pairing} (h : p.Fits) (s : ArrowFunction) (o : Function) :
    arrowToFunction p s o = .ok (Rule.arrowToFunction p s o) := by
  unfold arrowToFunction Rule.arrowToFunction
  cases hParens : Rule.functionParens? p.output o <;> simp [h, hParens]

/-! ## Methods -/

/-- The keyword of an accessor, if both methods are the same accessor. -/
def accessorKeyword (p : Pairing) (s o : MethodKind) : Checked (List Anchor) :=
  match s, o with
  | .get, .get => lead p "get"
  | .set, .set => lead p "set"
  | _, _ => return []

/-- The bracket after a computed name of a method. -/
def nameStop (site : Site) (n : ObjectMethod) : Lookup Nat := do
  let stop ← outerStart site (n.params.head?.getD n.body)
  find site (← outerStop site n.key) stop "]"

/-- The parentheses of the parameters of a method, if its name is where it should
be. -/
def methodParens (site : Site) (n : ObjectMethod) : Lookup (Option Nat × Option Nat) := do
  known (paramParens site (← outerStop site n.key) n.params n.body)

/-- A method of an object literal. -/
def method (p : Pairing) (s o : ObjectMethod) : Checked (List Anchor) :=
  asyncKeyword p s.isAsync o.isAsync ++
    accessorKeyword p s.kind o.kind ++
    (if s.isGenerator && o.isGenerator then
      tokenOf p s o (fun site n => before site n.key "*") "*"
    else return []) ++
    (if s.computed && o.computed then
      tokenOf p s o (fun site n => lastBefore site n.key "[") "[" ++
        tokenOf p s o nameStop "]"
    else return []) ++
    paramsIn p (methodParens p.source s) (methodParens p.output o) s.params o.params

@[simp]
theorem accessorKeyword_eq {p : Pairing} (h : p.Fits) (s o : MethodKind) :
    accessorKeyword p s o = .ok (Rule.accessorKeyword p s o) := by
  cases s <;> cases o <;> simp [accessorKeyword, Rule.accessorKeyword, h]

@[simp]
theorem nameStop_eq {site : Site} (h : site.Fits) (n : ObjectMethod) :
    nameStop site n = found (Rule.nameStop? site n) := by
  simp [nameStop, Rule.nameStop?, h]

@[simp]
theorem methodParens_eq {site : Site} (h : site.Fits) (n : ObjectMethod) :
    methodParens site n = found (Rule.methodParens? site n) := by
  simp [methodParens, Rule.methodParens?, h]

@[simp]
theorem method_eq {p : Pairing} (h : p.Fits) (s o : ObjectMethod) :
    method p s o = .ok (Rule.method p s o) := by
  unfold method Rule.method
  cases hSource : Rule.methodParens? p.source s <;>
    cases hOutput : Rule.methodParens? p.output o <;>
    simp [tokenOf, Pairing.placesOf, h, hSource, hOutput]

end Retrace.Checked
