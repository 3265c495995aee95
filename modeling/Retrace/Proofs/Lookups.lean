import Mathlib.Data.List.Basic
import Retrace.Proofs.References
import Retrace.Rule.Dispatch

/-!
# What the rules look up

A rule finds the tokens of a node between its children, and it finds the children in the tree.
It looks up no other nodes: if two trees have the same nodes at the ids that a payload stores,
then the outcome is the same with either (`Pairing.align_inTrees`). The sites are taken first,
with one equation for each of their searches, then the searches that go by the first or the
last item of a list, and last the rules, which put these together.

In a tree that the check accepts, a payload stores no id without a node. So whatever a rule
looks up is there (`Tree.stored_fit_and_found`).
-/

namespace Retrace

namespace Site

/-- The same node of the same text, in another tree. -/
def inTree (s : Site) (t : Tree) : Site := { s with tree := t }

/-- The tree has at a place what the tree of the site has there. -/
def Shares (s : Site) (t : Tree) (id : NodeId) : Prop := t.node? id = s.tree.node? id

/-- The tree has at every id that a construct stores what the tree of the site has there. -/
def SharesAll (s : Site) (t : Tree) (c : Construct) : Prop := ∀ id, c.Stores id → s.Shares t id

variable {s : Site} {t : Tree} {child left right : NodeId}

/-! ## Searches of a site -/

@[simp]
theorem start_inTree : (s.inTree t).start = s.start := rfl

@[simp]
theorem stop_inTree : (s.inTree t).stop = s.stop := rfl

@[simp]
theorem find?_inTree (start stop : Nat) (token : String) :
    (s.inTree t).find? start stop token = s.find? start stop token := rfl

@[simp]
theorem rfind?_inTree (start stop : Nat) (token : String) :
    (s.inTree t).rfind? start stop token = s.rfind? start stop token := rfl

@[simp]
theorem leading?_inTree (token : String) : (s.inTree t).leading? token = s.leading? token := rfl

@[simp]
theorem trailing?_inTree (token : String) : (s.inTree t).trailing? token = s.trailing? token := rfl

theorem outer?_inTree (h : s.Shares t child) : (s.inTree t).outer? child = s.outer? child := by
  unfold outer?
  rw [show (s.inTree t).tree.node? child = s.tree.node? child from h]
  rfl

@[simp]
theorem outerStart?_inTree (h : s.Shares t child) :
    (s.inTree t).outerStart? child = s.outerStart? child := by
  rw [outerStart?, outer?_inTree h, outerStart?]

@[simp]
theorem outerStop?_inTree (h : s.Shares t child) :
    (s.inTree t).outerStop? child = s.outerStop? child := by
  rw [outerStop?, outer?_inTree h, outerStop?]

@[simp]
theorem between?_inTree (token : String) (hLeft : s.Shares t left) (hRight : s.Shares t right) :
    (s.inTree t).between? left right token = s.between? left right token := by
  simp [between?, hLeft, hRight]

@[simp]
theorem lastBetween?_inTree (token : String) (hLeft : s.Shares t left)
    (hRight : s.Shares t right) :
    Rule.lastBetween? (s.inTree t) left right token = Rule.lastBetween? s left right token := by
  simp [Rule.lastBetween?, hLeft, hRight]

@[simp]
theorem before?_inTree (token : String) (h : s.Shares t child) :
    (s.inTree t).before? child token = s.before? child token := by
  simp [before?, h]

@[simp]
theorem lastBefore?_inTree (token : String) (h : s.Shares t child) :
    (s.inTree t).lastBefore? child token = s.lastBefore? child token := by
  simp [lastBefore?, h]

@[simp]
theorem after?_inTree (token : String) (h : s.Shares t child) :
    (s.inTree t).after? child token = s.after? child token := by
  simp [after?, h]

/-! ## Children that may be missing -/

@[simp]
theorem bind_outerStart?_inTree {child : Option NodeId}
    (h : ∀ id, child = some id → s.Shares t id) :
    child.bind (s.inTree t).outerStart? = child.bind s.outerStart? :=
  Option.bind_congr fun id hId => outerStart?_inTree (h id hId)

@[simp]
theorem bind_before?_inTree {child : Option NodeId} (token : String)
    (h : ∀ id, child = some id → s.Shares t id) :
    (child.bind fun id => (s.inTree t).before? id token) =
      child.bind fun id => s.before? id token :=
  Option.bind_congr fun id hId => before?_inTree token (h id hId)

@[simp]
theorem bind_between?_left_inTree {left : Option NodeId} (token : String)
    (hLeft : ∀ id, left = some id → s.Shares t id) (hRight : s.Shares t right) :
    (left.bind fun id => (s.inTree t).between? id right token) =
      left.bind fun id => s.between? id right token :=
  Option.bind_congr fun id hId => between?_inTree token (hLeft id hId) hRight

@[simp]
theorem bind_between?_right_inTree {right : Option NodeId} (token : String)
    (hLeft : s.Shares t left) (hRight : ∀ id, right = some id → s.Shares t id) :
    (right.bind fun id => (s.inTree t).between? left id token) =
      right.bind fun id => s.between? left id token :=
  Option.bind_congr fun id hId => between?_inTree token hLeft (hRight id hId)

theorem separatorAfter?_inTree {items : List (Option NodeId)} (i close : Nat) (token : String)
    (h : ∀ id, some id ∈ items → s.Shares t id) :
    (s.inTree t).separatorAfter? items i close token = s.separatorAfter? items i close token := by
  unfold separatorAfter?
  match hItem : items[i]?, hNext : items[i + 1]? with
  | none, _ => rfl
  | some none, _ => rfl
  | some (some item), none => simp [h item (List.mem_of_getElem? hItem)]
  | some (some item), some none => simp
  | some (some item), some (some next) =>
    simp [h item (List.mem_of_getElem? hItem), h next (List.mem_of_getElem? hNext)]

end Site

namespace Pairing

/-- The same two nodes of the same texts, in other trees. -/
def inTrees (p : Pairing) (t t' : Tree) : Pairing := ⟨p.source.inTree t, p.output.inTree t'⟩

/-- The other trees share with the trees of the pairing what two constructs store. -/
structure Agree (p : Pairing) (t t' : Tree) (source output : Construct) : Prop where
  source : p.source.SharesAll t source
  output : p.output.SharesAll t' output

variable {p : Pairing} {t t' : Tree}

@[simp]
theorem source_inTrees : (p.inTrees t t').source = p.source.inTree t := rfl

@[simp]
theorem output_inTrees : (p.inTrees t t').output = p.output.inTree t' := rfl

@[simp]
theorem token_inTrees (places : Places) (token : String) :
    (p.inTrees t t').token places token = p.token places token := rfl

@[simp]
theorem tokenOrRespelling_inTrees (places : Places) (s o : String) :
    (p.inTrees t t').tokenOrRespelling places s o = p.tokenOrRespelling places s o := rfl

@[simp]
theorem leading_inTrees (token : String) :
    (p.inTrees t t').leading token = p.leading token := rfl

@[simp]
theorem trailing_inTrees (token : String) :
    (p.inTrees t t').trailing token = p.trailing token := rfl

theorem sparseSeparators_inTrees {s o : List (Option NodeId)} (close : Places) (token : String)
    (hs : ∀ id, some id ∈ s → p.source.Shares t id)
    (ho : ∀ id, some id ∈ o → p.output.Shares t' id) :
    (p.inTrees t t').sparseSeparators s o close token = p.sparseSeparators s o close token := by
  unfold sparseSeparators
  simp only [source_inTrees, output_inTrees, token_inTrees, Site.separatorAfter?_inTree _ _ _ hs,
    Site.separatorAfter?_inTree _ _ _ ho]

theorem separators_inTrees {s o : List NodeId} (close : Places) (token : String)
    (hs : ∀ id ∈ s, p.source.Shares t id) (ho : ∀ id ∈ o, p.output.Shares t' id) :
    (p.inTrees t t').separators s o close token = p.separators s o close token :=
  sparseSeparators_inTrees close token (by simpa using hs) (by simpa using ho)

end Pairing

namespace Rule

open Pairing Site

variable {p : Pairing} {s : Site} {t t' : Tree}

/-! ## Searches that go by an item of a list -/

theorem firstStart?_inTree {clauses : List (Option NodeId)}
    (h : ∀ id, some id ∈ clauses → s.Shares t id) :
    firstStart? (s.inTree t) clauses = firstStart? s clauses := by
  induction clauses with
  | nil => rfl
  | cons clause rest ih =>
    have hRest := ih fun id hId => h id (List.mem_cons_of_mem _ hId)
    have hClause : clause.bind (s.inTree t).outerStart? = clause.bind s.outerStart? := by
      apply bind_outerStart?_inTree
      rintro id rfl
      exact h id List.mem_cons_self
    unfold firstStart? at hRest ⊢
    rw [List.findSome?_cons, List.findSome?_cons, hClause, hRest]

theorem forTokens_inTree {n : ForStatement} (h : s.SharesAll t ⟨.forStatement, n⟩) :
    forTokens (s.inTree t) n = forTokens s n := by
  obtain ⟨_ | _, _ | _, _ | _, _⟩ := n <;>
    simp_all [SharesAll, Construct.Stores, Payload.Stores, forTokens, firstStart?_inTree]

theorem casesStart?_inTree {n : SwitchStatement} (h : s.SharesAll t ⟨.switchStatement, n⟩) :
    casesStart? (s.inTree t) n = casesStart? s n := by
  have hTest := h n.discriminant (.inl rfl)
  unfold casesStart?
  cases hHead : n.cases.head? with
  | none => simp [hTest]
  | some first => simp [hTest, h first (.inr (List.mem_of_head? hHead))]

theorem caseColon?_inTree {n : SwitchCase} (h : s.SharesAll t ⟨.switchCase, n⟩) :
    caseColon? (s.inTree t) n = caseColon? s n := by
  unfold caseColon?
  match hTest : n.test, hHead : n.consequent.head? with
  | none, none => simp
  | none, some first => simp [h first (.inr (List.mem_of_head? hHead))]
  | some test, none => simp [h test (.inl hTest)]
  | some test, some first =>
    simp [h test (.inl hTest), h first (.inr (List.mem_of_head? hHead))]

theorem paramParens_inTree {params : List NodeId} {body : NodeId} (start : Nat)
    (hParams : ∀ id ∈ params, s.Shares t id) (hBody : s.Shares t body) :
    paramParens (s.inTree t) start params body = paramParens s start params body := by
  unfold paramParens
  match hHead : params.head?, hLast : params.getLast? with
  | none, none => simp [hBody]
  | none, some last => simp [hBody, hParams last (List.mem_of_getLast? hLast)]
  | some first, none => simp [hBody, hParams first (List.mem_of_head? hHead)]
  | some first, some last =>
    simp [hBody, hParams first (List.mem_of_head? hHead),
      hParams last (List.mem_of_getLast? hLast)]

theorem headStop?_inTree {n : Function} (h : s.SharesAll t ⟨.functionDeclaration, n⟩) :
    headStop? (s.inTree t) n = headStop? s n := by
  have hHead : ∀ id, n.id.or n.params.head? = some id → s.Shares t id := by
    intro id hId
    rcases Option.or_eq_some_iff.mp hId with hName | ⟨-, hParam⟩
    · exact h id (.inl hName)
    · exact h id (.inr (.inl (List.mem_of_head? hParam)))
  rw [headStop?, bind_outerStart?_inTree hHead, outerStart?_inTree (h n.body (.inr (.inr rfl))),
    headStop?]

theorem functionKeyword?_inTree {n : Function} (h : s.SharesAll t ⟨.functionDeclaration, n⟩) :
    functionKeyword? (s.inTree t) n = functionKeyword? s n := by
  simp [functionKeyword?, headStop?_inTree h]

theorem generatorStar?_inTree {n : Function} (h : s.SharesAll t ⟨.functionDeclaration, n⟩) :
    generatorStar? (s.inTree t) n = generatorStar? s n := by
  simp [generatorStar?, functionKeyword?_inTree h, headStop?_inTree h]

theorem functionParens?_inTree {n : Function} (h : s.SharesAll t ⟨.functionDeclaration, n⟩) :
    functionParens? (s.inTree t) n = functionParens? s n := by
  have hParens := fun start => paramParens_inTree start
    (fun id hId => h id (.inr (.inl hId))) (h n.body (.inr (.inr rfl)))
  unfold functionParens?
  cases hName : n.id with
  | none => simp [hParens]
  | some name => simp [hParens, h name (.inl hName)]

theorem arrow?_inTree {n : ArrowFunction} (h : s.SharesAll t ⟨.arrowFunctionExpression, n⟩) :
    arrow? (s.inTree t) n = arrow? s n := by
  have hBody := h n.body (.inr rfl)
  unfold arrow?
  cases hLast : n.params.getLast? with
  | none => simp [hBody]
  | some last => simp [hBody, h last (.inl (List.mem_of_getLast? hLast))]

theorem nameStop?_inTree {n : ObjectMethod} (h : s.SharesAll t ⟨.objectMethod, n⟩) :
    nameStop? (s.inTree t) n = nameStop? s n := by
  have hNext : s.Shares t (n.params.head?.getD n.body) := by
    cases hHead : n.params.head? with
    | none => exact h n.body (.inr (.inr rfl))
    | some first => exact h first (.inr (.inl (List.mem_of_head? hHead)))
  simp [nameStop?, hNext, h n.key (.inl rfl)]

theorem methodParens?_inTree {n : ObjectMethod} (h : s.SharesAll t ⟨.objectMethod, n⟩) :
    methodParens? (s.inTree t) n = methodParens? s n := by
  have hParens := fun start => paramParens_inTree start
    (fun id hId => h id (.inr (.inl hId))) (h n.body (.inr (.inr rfl)))
  simp [methodParens?, hParens, h n.key (.inl rfl)]

theorem argumentsStart?_inTree {n : Call} (h : s.SharesAll t ⟨.callExpression, n⟩) :
    argumentsStart? (s.inTree t) n = argumentsStart? s n := by
  have hCallee := h n.callee (.inl rfl)
  unfold argumentsStart?
  cases hHead : n.arguments.head? with
  | none => simp [hCallee]
  | some first => simp [hCallee, h first (.inr (List.mem_of_head? hHead))]

theorem optionalMark?_inTree {n : Call} (h : s.SharesAll t ⟨.callExpression, n⟩) :
    optionalMark? (s.inTree t) n = optionalMark? s n := by
  simp [optionalMark?, argumentsStart?_inTree h, h n.callee (.inl rfl)]

theorem bindMark?_inTree {n : BindExpression} (h : s.SharesAll t ⟨.bindExpression, n⟩) :
    bindMark? (s.inTree t) n = bindMark? s n := by
  have hCallee := h n.callee (.inr rfl)
  unfold bindMark?
  cases hObject : n.object with
  | none => simp [hCallee]
  | some object => simp [hCallee, h object (.inl hObject)]

theorem fromKeyword?_inTree {n : ImportDeclaration} (h : s.SharesAll t ⟨.importDeclaration, n⟩) :
    fromKeyword? (s.inTree t) n = fromKeyword? s n := by
  have hSource := h n.source (.inr rfl)
  unfold fromKeyword?
  cases hLast : n.specifiers.getLast? with
  | none => simp [hSource]
  | some last => simp [hSource, h last (.inl (List.mem_of_getLast? hLast))]

theorem tagStop?_inTree {n : JsxElement} (h : s.SharesAll t ⟨.jsxElement, n⟩) :
    tagStop? (s.inTree t) n = tagStop? s n := by
  have hLast : s.Shares t (n.attributes.getLast?.getD n.name) := by
    cases hLast : n.attributes.getLast? with
    | none => exact h n.name (.inl rfl)
    | some last => exact h last (.inr (.inl (List.mem_of_getLast? hLast)))
  unfold tagStop?
  cases hHead : n.children.head? with
  | none => simp [hLast]
  | some first => simp [hLast, h first (.inr (.inr (List.mem_of_head? hHead)))]

theorem closingTag?_inTree {n : JsxElement} (h : s.SharesAll t ⟨.jsxElement, n⟩) :
    closingTag? (s.inTree t) n = closingTag? s n := by
  unfold closingTag?
  cases hLast : n.children.getLast? with
  | none => simp [tagStop?_inTree h]
  | some last => simp [h last (.inr (.inr (List.mem_of_getLast? hLast)))]

/-! ## Rules for lists -/

theorem forStatement_inTrees {s o : ForStatement}
    (h : p.Agree t t' ⟨.forStatement, s⟩ ⟨.forStatement, o⟩) :
    forStatement (p.inTrees t t') s o = forStatement p s o := by
  simp [forStatement, forTokens_inTree h.source, forTokens_inTree h.output]

theorem switch_inTrees {s o : SwitchStatement}
    (h : p.Agree t t' ⟨.switchStatement, s⟩ ⟨.switchStatement, o⟩) :
    switch (p.inTrees t t') s o = switch p s o := by
  simp [switch, placesOf, h.source s.discriminant (.inl rfl), h.output o.discriminant (.inl rfl),
    casesStart?_inTree h.source, casesStart?_inTree h.output]

theorem switchCase_inTrees {s o : SwitchCase}
    (h : p.Agree t t' ⟨.switchCase, s⟩ ⟨.switchCase, o⟩) :
    switchCase (p.inTrees t t') s o = switchCase p s o := by
  simp [switchCase, placesOf, caseColon?_inTree h.source, caseColon?_inTree h.output]

theorem params_inTrees {s o : List NodeId} (source output : Option Nat × Option Nat)
    (hs : ∀ id ∈ s, p.source.Shares t id) (ho : ∀ id ∈ o, p.output.Shares t' id) :
    params (p.inTrees t t') source output s o = params p source output s o := by
  simp [params, separators_inTrees _ _ hs ho]

theorem function_inTrees {s o : Function}
    (h : p.Agree t t' ⟨.functionDeclaration, s⟩ ⟨.functionDeclaration, o⟩) :
    function (p.inTrees t t') s o = function p s o := by
  have hParams := fun source output => params_inTrees source output
    (fun id hId => h.source id (.inr (.inl hId))) (fun id hId => h.output id (.inr (.inl hId)))
  simp [function, asyncKeyword, placesOf, functionKeyword?_inTree h.source,
    functionKeyword?_inTree h.output, generatorStar?_inTree h.source,
    generatorStar?_inTree h.output, functionParens?_inTree h.source,
    functionParens?_inTree h.output, hParams]

theorem arrow_inTrees {s o : ArrowFunction}
    (h : p.Agree t t' ⟨.arrowFunctionExpression, s⟩ ⟨.arrowFunctionExpression, o⟩) :
    arrow (p.inTrees t t') s o = arrow p s o := by
  have hSource : ∀ id ∈ s.params, p.source.Shares t id := fun id hId => h.source id (.inl hId)
  have hOutput : ∀ id ∈ o.params, p.output.Shares t' id := fun id hId => h.output id (.inl hId)
  simp [arrow, asyncKeyword, placesOf, params_inTrees _ _ hSource hOutput,
    paramParens_inTree _ hSource (h.source s.body (.inr rfl)),
    paramParens_inTree _ hOutput (h.output o.body (.inr rfl)), arrow?_inTree h.source,
    arrow?_inTree h.output]

theorem method_inTrees {s o : ObjectMethod}
    (h : p.Agree t t' ⟨.objectMethod, s⟩ ⟨.objectMethod, o⟩) :
    method (p.inTrees t t') s o = method p s o := by
  have hParams := fun source output => params_inTrees source output
    (fun id hId => h.source id (.inr (.inl hId))) (fun id hId => h.output id (.inr (.inl hId)))
  simp [method, asyncKeyword, accessorKeyword, placesOf, h.source s.key (.inl rfl),
    h.output o.key (.inl rfl), nameStop?_inTree h.source, nameStop?_inTree h.output,
    methodParens?_inTree h.source, methodParens?_inTree h.output, hParams]

theorem arguments_inTrees {s o : Call}
    (h : p.Agree t t' ⟨.callExpression, s⟩ ⟨.callExpression, o⟩) :
    arguments (p.inTrees t t') s o = arguments p s o := by
  have hItems := fun close => separators_inTrees close ","
    (fun id hId => h.source id (.inr hId)) (fun id hId => h.output id (.inr hId))
  simp [arguments, places, argumentsStart?_inTree h.source, argumentsStart?_inTree h.output, hItems]

theorem call_inTrees {s o : Call} (h : p.Agree t t' ⟨.callExpression, s⟩ ⟨.callExpression, o⟩) :
    call (p.inTrees t t') s o = call p s o := by
  simp [call, placesOf, optionalMark?_inTree h.source, optionalMark?_inTree h.output,
    arguments_inTrees h]

theorem importDeclaration_inTrees {s o : ImportDeclaration}
    (h : p.Agree t t' ⟨.importDeclaration, s⟩ ⟨.importDeclaration, o⟩) :
    importDeclaration (p.inTrees t t') s o = importDeclaration p s o := by
  have hItems := fun close => separators_inTrees close ","
    (fun id hId => h.source id (.inl hId)) (fun id hId => h.output id (.inl hId))
  simp [importDeclaration, placesOf, h.source s.source (.inr rfl), h.output o.source (.inr rfl),
    fromKeyword?_inTree h.source, fromKeyword?_inTree h.output, hItems]

theorem array_inTrees {s o : ArrayLike}
    (h : p.Agree t t' ⟨.arrayExpression, s⟩ ⟨.arrayExpression, o⟩) :
    array (p.inTrees t t') s o = array p s o := by
  simp [array, places, sparseSeparators_inTrees _ _ h.source h.output]

theorem object_inTrees {s o : ObjectLike}
    (h : p.Agree t t' ⟨.objectExpression, s⟩ ⟨.objectExpression, o⟩) :
    object (p.inTrees t t') s o = object p s o := by
  simp [object, places, separators_inTrees _ _ h.source h.output]

theorem element_inTrees {s o : JsxElement}
    (h : p.Agree t t' ⟨.jsxElement, s⟩ ⟨.jsxElement, o⟩) :
    element (p.inTrees t t') s o = element p s o := by
  simp [element, placesOf, tagStop?_inTree h.source, tagStop?_inTree h.output,
    closingTag?_inTree h.source, closingTag?_inTree h.output]

theorem template_inTrees {s o : TemplateLiteral}
    (h : p.Agree t t' ⟨.templateLiteral, s⟩ ⟨.templateLiteral, o⟩) :
    template (p.inTrees t t') s o = template p s o := by
  unfold template
  simp only [leading_inTrees, trailing_inTrees, token_inTrees, source_inTrees, output_inTrees]
  congr 2
  refine List.flatMap_congr ?_
  rintro ⟨a, b⟩ hPair
  obtain ⟨ha, hb⟩ := List.of_mem_zip hPair
  simp [h.source a (.inr ha), h.output b (.inr hb)]

/-! ## All rules -/

theorem sameKind_inTrees (options : Options) {kind : Kind} {s o : Payload kind}
    (h : p.Agree t t' ⟨kind, s⟩ ⟨kind, o⟩) :
    sameKind options (p.inTrees t t') kind s o = sameKind options p kind s o := by
  cases kind
  case forStatement => exact congrArg Outcome.ofAnchors (forStatement_inTrees h)
  case switchStatement => exact congrArg Outcome.ofAnchors (switch_inTrees h)
  case switchCase => exact congrArg Outcome.ofAnchors (switchCase_inTrees h)
  case functionDeclaration => exact congrArg Outcome.ofAnchors (function_inTrees h)
  case functionExpression => exact congrArg Outcome.ofAnchors (function_inTrees ⟨h.1, h.2⟩)
  case arrowFunctionExpression => exact congrArg Outcome.ofAnchors (arrow_inTrees h)
  case objectMethod => exact congrArg Outcome.ofAnchors (method_inTrees h)
  case callExpression => exact congrArg Outcome.ofAnchors (call_inTrees h)
  case optionalCallExpression => exact congrArg Outcome.ofAnchors (call_inTrees ⟨h.1, h.2⟩)
  case importDeclaration => exact congrArg Outcome.ofAnchors (importDeclaration_inTrees h)
  case arrayExpression => exact array_inTrees h
  case arrayPattern => exact array_inTrees ⟨h.1, h.2⟩
  case objectExpression => exact congrArg Outcome.ofAnchors (object_inTrees h)
  case objectPattern => exact congrArg Outcome.ofAnchors (object_inTrees ⟨h.1, h.2⟩)
  case jsxElement => exact congrArg Outcome.ofAnchors (element_inTrees h)
  case templateLiteral => exact congrArg Outcome.ofAnchors (template_inTrees h)
  case newExpression =>
    have hArguments := arguments_inTrees ⟨h.1, h.2⟩
    simp [sameKind, newExpression, hArguments]
  case variableDeclaration =>
    simp [sameKind, variableDeclaration, places, separators_inTrees _ _ h.source h.output]
  case sequenceExpression =>
    simp [sameKind, Rule.sequence, places, separators_inTrees _ _ h.source h.output]
  case bindExpression =>
    simp [sameKind, Rule.bind, placesOf, bindMark?_inTree h.source, bindMark?_inTree h.output]
  case tryStatement =>
    obtain ⟨block, _ | handler, finalizer⟩ := s <;> obtain ⟨block', _ | handler', finalizer'⟩ := o
    all_goals
      obtain ⟨hs, ho⟩ := h
      simp_all [SharesAll, Construct.Stores, Payload.Stores, sameKind, tryStatement, placesOf]
  -- These go by single children only, so the equations for the searches of a site are enough.
  case ifStatement | forInStatement | forOfStatement | whileStatement | doWhileStatement |
      withStatement | catchClause | labeledStatement | variableDeclarator | importSpecifier |
      importNamespaceSpecifier | objectProperty | assignmentPattern | binaryExpression |
      logicalExpression | assignmentExpression | conditionalExpression | memberExpression |
      optionalMemberExpression | yieldExpression | metaProperty | jsxAttribute =>
    obtain ⟨hs, ho⟩ := h
    simp_all [SharesAll, Construct.Stores, Payload.Stores, sameKind, placesOf, ifStatement,
      Rule.forIn, forOf, whileStatement, doWhile, withStatement, catchClause, labeled,
      variableDeclarator, importSpecifier, importNamespace, property, assignmentPattern, binary,
      conditional, member, yieldExpression, metaProperty, markupAttribute]
  -- The other rules do not use the tree.
  all_goals rfl

theorem attributeToProperty_inTrees {s : JsxAttribute} {o : ObjectProperty}
    (h : p.Agree t t' ⟨.jsxAttribute, s⟩ ⟨.objectProperty, o⟩) :
    attributeToProperty (p.inTrees t t') s o = attributeToProperty p s o := by
  have hSource := bind_between?_right_inTree "=" (h.source s.name (.inl rfl))
    (fun id hId => h.source id (.inr hId))
  have hOutput := between?_inTree ":" (h.output o.key (.inl rfl)) (h.output o.value (.inr rfl))
  rw [attributeToProperty, source_inTrees, output_inTrees, hSource, hOutput]
  rfl

theorem arrowToFunction_inTrees {s : ArrowFunction} {o : Function}
    (h : p.Agree t t' ⟨.arrowFunctionExpression, s⟩ ⟨.functionExpression, o⟩) :
    arrowToFunction (p.inTrees t t') s o = arrowToFunction p s o := by
  have hSource : ∀ id ∈ s.params, p.source.Shares t id := fun id hId => h.source id (.inl hId)
  have hParams := fun source output => params_inTrees source output hSource
    (fun id hId => h.output id (.inr (.inl hId)))
  simp [arrowToFunction, asyncKeyword, functionParens?_inTree (n := o) h.output, hParams,
    paramParens_inTree _ hSource (h.source s.body (.inr rfl))]

theorem reshape_inTrees {source output : Construct} (h : p.Agree t t' source output) :
    reshape (p.inTrees t t') source output = reshape p source output := by
  unfold reshape
  split
  case h_1 => exact congrArg Outcome.ofAnchors (attributeToProperty_inTrees h)
  case h_7 => exact congrArg Outcome.ofAnchors (arrowToFunction_inTrees h)
  all_goals rfl

end Rule

/-- A rule looks up nothing but what the two payloads store. -/
theorem Pairing.align_inTrees {p : Pairing} {t t' : Tree} (options : Options)
    (h : p.Agree t t' p.source.node.construct p.output.node.construct) :
    (p.inTrees t t').align options = p.align options := by
  show Rule.outcome options (p.inTrees t t') p.source.node.construct p.output.node.construct =
    Rule.outcome options p p.source.node.construct p.output.node.construct
  generalize p.source.node.construct = source, p.output.node.construct = output at h ⊢
  unfold Rule.outcome
  split_ifs with hProgram hKind
  · rfl
  · obtain ⟨kind, s⟩ := source
    obtain ⟨other, o⟩ := output
    dsimp only at hKind
    subst hKind
    exact Rule.sameKind_inTrees options h
  · exact Rule.reshape_inTrees h

namespace Pairing

/-- The node on one side, in its text and tree. -/
def site (p : Pairing) : Side → Site
  | .source => p.source
  | .output => p.output

/-- The pairing with another tree on one side. -/
def withTree (p : Pairing) : Side → Tree → Pairing
  | .source, t => ⟨p.source.inTree t, p.output⟩
  | .output, t => ⟨p.source, p.output.inTree t⟩

/-- What the rule makes of the pairing depends on the node at a place of the tree on one side:
there are two trees that differ in this place only and lead to different outcomes. -/
def LooksUp (p : Pairing) (options : Options) (side : Side) (id : NodeId) : Prop :=
  ∃ t t' : Tree, (∀ other, other ≠ id → t.node? other = t'.node? other) ∧
    (p.withTree side t).align options ≠ (p.withTree side t').align options

theorem stores_of_looksUp {p : Pairing} {options : Options} {side : Side} {id : NodeId}
    (h : p.LooksUp options side id) : (p.site side).node.construct.Stores id := by
  obtain ⟨t, t', hOther, hDiffer⟩ := h
  by_contra hStores
  have hSame : ∀ other, (p.site side).node.construct.Stores other →
      t.node? other = t'.node? other := by
    intro other hOtherStores
    apply hOther
    rintro rfl
    exact hStores hOtherStores
  apply hDiffer
  cases side with
  | source =>
    show ((p.withTree .source t').inTrees t p.output.tree).align options = _
    exact align_inTrees options ⟨hSame, fun _ _ => rfl⟩
  | output =>
    show ((p.withTree .output t').inTrees p.source.tree t).align options = _
    exact align_inTrees options ⟨fun _ _ => rfl, hSame⟩

end Pairing

namespace Tree

/-- **No reference escapes the check.** In a tree that the check accepts, every id that a node
stores in its payload, in whatever component, is the place of a node other than the root, and
this node lies within the span of the one that stores it. So whatever the rule for a node looks
up in the tree is there: the other node of the pairing, its text and its tree do not matter. -/
theorem stored_fit_and_found (t : Tree) (size : Nat) (hValid : t.validate size = .ok ())
    (n : Node) (hNode : n ∈ t.nodes) :
    (∀ id, n.construct.Stores id → ∃ c, t.node? id = some c ∧ id ≠ t.root ∧
      n.span.start ≤ c.span.start ∧ c.span.stop ≤ n.span.stop) ∧
    ∀ (p : Pairing) (side : Side) (options : Options) (id : NodeId),
      (p.site side).tree = t → (p.site side).node = n → p.LooksUp options side id →
        ∃ c, t.node? id = some c := by
  constructor
  · intro id hStores
    obtain ⟨c, hThere, hNotRoot, hEncloses⟩ := fits_of_stores hValid hNode hStores
    exact ⟨c, hThere, hNotRoot, Span.encloses_iff.mp hEncloses⟩
  · rintro p side options id - hSite hLooksUp
    have hStores := Pairing.stores_of_looksUp hLooksUp
    rw [hSite] at hStores
    obtain ⟨c, hThere, -⟩ := fits_of_stores hValid hNode hStores
    exact ⟨c, hThere⟩

/-- A template with one expression between two empty pieces of text. -/
def filledTemplate : Tree :=
  ⟨⟨0⟩, #[⟨.upTo 6, false, ⟨.templateLiteral, ⟨[⟨1⟩, ⟨3⟩], [⟨2⟩]⟩⟩⟩,
    ⟨⟨1, 1, by decide⟩, false, ⟨.templateElement, ⟨"", false⟩⟩⟩,
    ⟨⟨3, 4, by decide⟩, false, ⟨.identifier, ⟨"a"⟩⟩⟩,
    ⟨⟨5, 5, by decide⟩, false, ⟨.templateElement, ⟨"", true⟩⟩⟩]⟩

/-- The template paired with itself. -/
def keptTemplate : Pairing :=
  let site : Site := ⟨.ofString "`$\x7ba\x7d`", filledTemplate, filledTemplate.nodes[0]⟩
  ⟨site, site⟩

theorem looksUp_keptTemplate : keptTemplate.LooksUp .default .source ⟨2⟩ := by
  -- If the expression stood at the start, no mark would be found before it.
  refine ⟨filledTemplate, ⟨⟨0⟩, filledTemplate.nodes.set 2 ⟨.upTo 1, false, ⟨.identifier, ⟨"a"⟩⟩⟩⟩,
    ?_, by decide⟩
  intro other hOther
  have hIndex : 2 ≠ other.index := fun hEqual => hOther (by rw [hEqual])
  exact (Array.getElem?_set_ne (by decide) hIndex).symm

theorem stored_fit_and_found_keptTemplate :
    filledTemplate.validate 6 = .ok () ∧ filledTemplate.nodes[0] ∈ filledTemplate.nodes ∧
      filledTemplate.nodes[0].construct.Stores ⟨3⟩ ∧
      keptTemplate.LooksUp .default .source ⟨2⟩ ∧
      (∃ c, filledTemplate.node? ⟨3⟩ = some c ∧ ⟨3⟩ ≠ filledTemplate.root ∧
        0 ≤ c.span.start ∧ c.span.stop ≤ 6) ∧
      ∃ c, filledTemplate.node? ⟨2⟩ = some c := by
  have hValid : filledTemplate.validate 6 = .ok () := rfl
  have hNode : filledTemplate.nodes[0] ∈ filledTemplate.nodes := Array.getElem_mem _
  have hStores : filledTemplate.nodes[0].construct.Stores ⟨3⟩ := .inl (by decide)
  obtain ⟨hFit, hFound⟩ := stored_fit_and_found filledTemplate 6 hValid _ hNode
  exact ⟨hValid, hNode, hStores, looksUp_keptTemplate, hFit ⟨3⟩ hStores,
    hFound keptTemplate .source .default ⟨2⟩ rfl rfl looksUp_keptTemplate⟩

end Tree

end Retrace
