import Retrace.Proofs.Problems

/-!
# Rules on a node that did not change

A rule that is applied to a node and the same node looks for every token twice in
one place, so whatever it anchors is anchored to itself (`Pairing.still_align`). The
rule may fail to find a token, or find one that is not a token at all, but it fails
on both sides alike: nothing is assumed of the text and the tree, and in particular
a span may split a character.

The operations of a pairing are taken first. A rule only puts their results
together, with both sides at equal places, so most rules follow from these by
unfolding. Those that choose between pieces of text are treated one by one.
-/

namespace Retrace

/-- Every anchor joins a place to the same place, and replaces nothing. -/
def Still (anchors : List Anchor) : Prop := ∀ a ∈ anchors, ∃ i, a = .plain i i

@[simp]
theorem still_nil : Still [] := by
  simp [Still]

@[simp]
theorem still_append {xs ys : List Anchor} : Still (xs ++ ys) ↔ Still xs ∧ Still ys := by
  simp only [Still, List.forall_mem_append]

@[simp]
theorem still_ite {c : Prop} [Decidable c] {xs ys : List Anchor} :
    Still (if c then xs else ys) ↔ (c → Still xs) ∧ (¬ c → Still ys) := by
  by_cases h : c <;> simp [h]

theorem still_flatMap {α : Type} {xs : List α} {f : α → List Anchor}
    (h : ∀ x ∈ xs, Still (f x)) : Still (xs.flatMap f) := by
  intro a ha
  obtain ⟨x, hx, hMem⟩ := List.mem_flatMap.mp ha
  exact h x hx a hMem

theorem still_anchorEach (i : Nat) (piece : List Char) : Still (anchorEach i i piece) := by
  intro a ha
  unfold anchorEach at ha
  obtain ⟨⟨offset, c⟩, -, rfl⟩ := List.mem_map.mp ha
  exact ⟨i + offset, rfl⟩

namespace Pairing

/-! ## The operations of a pairing -/

/-- A node paired with itself. -/
def ofSite (site : Site) : Pairing := ⟨site, site⟩

@[simp]
theorem source_ofSite (site : Site) : (ofSite site).source = site := rfl

@[simp]
theorem output_ofSite (site : Site) : (ofSite site).output = site := rfl

@[simp]
theorem places_ofSite (site : Site) (find : Site → Option Nat) :
    (ofSite site).places find = (find site, find site) := rfl

@[simp]
theorem placesOf_ofSite {α : Type} (site : Site) (n : α) (find : Site → α → Option Nat) :
    (ofSite site).placesOf n n find = (find site n, find site n) := rfl

@[simp]
theorem still_token (site : Site) (place : Option Nat) (token : String) :
    Still ((ofSite site).token (place, place) token) := by
  cases place with
  | none => exact still_nil
  | some i =>
    unfold Pairing.token
    simp only
    split
    · exact still_anchorEach i _
    · exact still_nil

@[simp]
theorem still_tokenOrRespelling (site : Site) (place : Option Nat) (token : String) :
    Still ((ofSite site).tokenOrRespelling (place, place) token token) := by
  unfold tokenOrRespelling
  rw [if_pos rfl]
  exact still_token site place token

@[simp]
theorem still_character (site : Site) (i : Nat) : Still ((ofSite site).character i i) := by
  unfold character
  simp only [source_ofSite, output_ofSite, and_self, if_true, still_ite, still_nil, implies_true,
    true_and]
  intro _ a ha
  exact ⟨i, List.mem_singleton.mp ha⟩

@[simp]
theorem still_run (site : Site) (i length : Nat) : Still ((ofSite site).run i i length) := by
  unfold run
  split
  · split
    · exact still_anchorEach i _
    · exact still_nil
  · exact still_nil

@[simp]
theorem still_leading (site : Site) (token : String) : Still ((ofSite site).leading token) :=
  still_token site _ token

@[simp]
theorem still_trailing (site : Site) (token : String) : Still ((ofSite site).trailing token) :=
  still_token site _ token

@[simp]
theorem still_sparseSeparators (site : Site) (items : List (Option NodeId)) (close : Option Nat)
    (token : String) :
    Still ((ofSite site).sparseSeparators items items (close, close) token) := by
  cases close with
  | none => exact still_nil
  | some close => exact still_flatMap fun i _ => by simp

@[simp]
theorem still_separators (site : Site) (items : List NodeId) (close : Option Nat)
    (token : String) : Still ((ofSite site).separators items items (close, close) token) :=
  still_sparseSeparators site _ close token

end Pairing

namespace Rule

open Pairing

/-! ## Leaves and literals -/

@[simp]
theorem still_identity (options : Options) (site : Site) :
    Still (identity options (ofSite site)) := by
  simp [identity]

@[simp]
theorem still_leaf (options : Options) (site : Site) : Still (leaf options (ofSite site)) := by
  simp [leaf]

/-- Digit separators cannot be there on one side only. -/
@[simp]
theorem still_number (options : Options) (site : Site) :
    Still (number options (ofSite site)) := by
  simp [number]

/-- If the text of the node cannot be sliced, the two texts do not count as the same
and the literal is anchored in pieces. -/
@[simp]
theorem still_string (options : Options) (site : Site) :
    Still (string options (ofSite site)) := by
  unfold string
  cases hQuotes : quotes? site <;> simp [hQuotes, delimited]

@[simp]
theorem still_regExp (options : Options) (site : Site) (n : RegExpLiteral) :
    Still (regExp options (ofSite site) n n) := by
  unfold regExp
  cases hStop : patternStop? site <;> simp [hStop]

@[simp]
theorem still_template (site : Site) (n : TemplateLiteral) :
    Still (template (ofSite site) n n) := by
  unfold template
  simp only [still_append, still_leading, still_trailing, true_and, and_true]
  refine still_flatMap ?_
  rintro ⟨a, b⟩ hPair
  obtain ⟨i, hi⟩ := List.mem_iff_getElem?.mp hPair
  obtain ⟨ha, hb⟩ := List.getElem?_zip_eq_some.mp hi
  obtain rfl : a = b := Option.some.inj (ha.symm.trans hb)
  simp

/-! ## Rules that choose between pieces -/

@[simp]
theorem still_switchCase (site : Site) (n : SwitchCase) :
    Still (switchCase (ofSite site) n n) := by
  unfold switchCase
  cases hTest : n.test <;> simp

@[simp]
theorem still_params (site : Site) (parens : Option Nat × Option Nat) (items : List NodeId) :
    Still (params (ofSite site) parens parens items items) := by
  simp [params]

@[simp]
theorem still_function (site : Site) (n : Function) : Still (function (ofSite site) n n) := by
  unfold function
  cases hParens : functionParens? site n <;> simp [asyncKeyword, hParens]

@[simp]
theorem still_method (site : Site) (n : ObjectMethod) : Still (method (ofSite site) n n) := by
  unfold method
  cases hKind : n.kind <;> cases hParens : methodParens? site n <;>
    simp [asyncKeyword, accessorKeyword, hParens]

@[simp]
theorem still_arguments (site : Site) (n : Call) : Still (arguments (ofSite site) n n) := by
  unfold arguments
  cases hStart : argumentsStart? site n <;> simp [hStart]

@[simp]
theorem still_element (site : Site) (n : JsxElement) : Still (element (ofSite site) n n) := by
  unfold element
  cases hClosing : n.selfClosing <;> simp

/-! ## All rules -/

theorem still_sameKind (options : Options) (site : Site) (kind : Kind) (n : Payload kind) :
    Still (sameKind options (ofSite site) kind n n).anchors := by
  cases kind <;>
    simp [sameKind, Outcome.ofAnchors, expressionStatement, block, ifStatement, forStatement,
      forIn, forOf, whileStatement, doWhile, withStatement, keywordStatement, switch,
      tryStatement, catchClause, labeled, variableDeclaration, variableDeclarator, arrow,
      asyncKeyword, importDeclaration, importSpecifier, importNamespace, array, object, property,
      spread, assignmentPattern, unary, update, binary, conditional, call, newExpression, member,
      sequence, yieldExpression, bind, metaProperty, markupAttribute, expressionContainer]

/-- Where the construct is the same, no change of shape is looked for. -/
theorem outcome_self (options : Options) (p : Pairing) (c : Construct) :
    outcome options p c c =
      if c.kind = .program then .ofAnchors []
      else sameKind options p c.kind c.payload c.payload := by
  unfold outcome
  rw [dif_pos rfl]

end Rule

namespace Pairing

theorem still_align (site : Site) (options : Options) :
    Still ((ofSite site).align options).anchors := by
  have hOutcome := Rule.outcome_self options (ofSite site) site.node.construct
  unfold Pairing.align
  rw [source_ofSite, output_ofSite, hOutcome]
  split
  · exact still_nil
  · exact Rule.still_sameKind options site _ _

/-- A node and the same node are never unsupported. -/
theorem problem_of_mem_align_ofSite {site : Site} {options : Options} {problem : Problem}
    (h : problem ∈ ((ofSite site).align options).problems) :
    ∃ i, problem = .ambiguous (sparseReason i) := by
  have hOutcome := Rule.outcome_self options (ofSite site) site.node.construct
  unfold Pairing.align at h
  rw [source_ofSite, output_ofSite, hOutcome] at h
  split at h
  · cases h
  · exact problem_of_mem_sameKind h

end Pairing

end Retrace
