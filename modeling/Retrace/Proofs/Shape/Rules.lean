import Retrace.Proofs.IdentityLeaves

/-!
# Anchors at the same two places

The anchors of a range are sorted by their places, and an anchor that repeats the one before
it is dropped. The sort does not look at substitutions. Three anchors at the same two places,
a plain one, a substitution and the plain one again, would stay as they are, and the range
would have the plain one twice.

No rule draws anchors in such an order: where an anchor stands at the two places of one that
was drawn before it, it is plain (`Orderly`). Most rules draw plain anchors only. Those that
respell a token draw the substitutions first, one for each character of the source token, and
plain anchors after them. Those that change quotes go through the source from left to right
and never come back to a place.
-/

namespace Retrace

/-- The second anchor may be drawn after the first: if it stands at the same two places, it
is plain. -/
def Anchor.Admits (a b : Anchor) : Prop :=
  a.source = b.source → a.output = b.output → b.substitution = none

/-- An anchor at the two places of an earlier one is plain. -/
def Orderly (anchors : List Anchor) : Prop := anchors.Pairwise Anchor.Admits

/-- The places in the source go up from one anchor to the next. -/
def Rightward (anchors : List Anchor) : Prop := anchors.Pairwise fun a b => a.source < b.source

theorem Plain.orderly {anchors : List Anchor} (h : Plain anchors) : Orderly anchors :=
  List.pairwise_of_forall_mem_list fun _ _ b hb _ _ => h b hb

theorem Orderly.append_plain {xs ys : List Anchor} (hx : Orderly xs) (hy : Plain ys) :
    Orderly (xs ++ ys) :=
  List.pairwise_append.mpr ⟨hx, hy.orderly, fun _ _ b hb _ _ => hy b hb⟩

theorem Rightward.orderly {anchors : List Anchor} (h : Rightward anchors) : Orderly anchors := by
  apply h.imp
  intro a b hLess hSame
  omega

/-! ## Plain anchors -/

@[simp]
theorem plain_nil : Plain [] := by
  simp [Plain]

@[simp]
theorem plain_append {xs ys : List Anchor} : Plain (xs ++ ys) ↔ Plain xs ∧ Plain ys := by
  simp only [Plain, List.forall_mem_append]

@[simp]
theorem plain_ite {c : Prop} [Decidable c] {xs ys : List Anchor} :
    Plain (if c then xs else ys) ↔ (c → Plain xs) ∧ (¬ c → Plain ys) := by
  by_cases h : c <;> simp [h]

theorem plain_flatMap {α : Type} {xs : List α} {f : α → List Anchor}
    (h : ∀ x ∈ xs, Plain (f x)) : Plain (xs.flatMap f) := by
  intro a ha
  obtain ⟨x, hx, hMem⟩ := List.mem_flatMap.mp ha
  exact h x hx a hMem

theorem plain_anchorEach (source output : Nat) (piece : List Char) :
    Plain (anchorEach source output piece) := by
  intro a ha
  obtain ⟨_, -, rfl⟩ := List.mem_map.mp ha
  rfl

namespace Pairing

@[simp]
theorem plain_token (p : Pairing) (places : Places) (token : String) :
    Plain (p.token places token) := by
  unfold Pairing.token
  split
  · split
    · exact plain_anchorEach _ _ _
    · exact plain_nil
  · exact plain_nil

@[simp]
theorem plain_leading (p : Pairing) (token : String) : Plain (p.leading token) :=
  plain_token p _ token

@[simp]
theorem plain_trailing (p : Pairing) (token : String) : Plain (p.trailing token) :=
  plain_token p _ token

@[simp]
theorem plain_sparseSeparators (p : Pairing) (s o : List (Option NodeId)) (close : Places)
    (token : String) : Plain (p.sparseSeparators s o close token) := by
  unfold sparseSeparators
  split
  · apply plain_flatMap
    intro i _
    simp
  · exact plain_nil

@[simp]
theorem plain_separators (p : Pairing) (s o : List NodeId) (close : Places) (token : String) :
    Plain (p.separators s o close token) :=
  plain_sparseSeparators p _ _ close token

end Pairing

/-! ## Anchors from left to right -/

theorem pairwise_charOffsetsFrom (start : Nat) (piece : List Char) :
    (charOffsetsFrom start piece).Pairwise fun a b => a.1 < b.1 := by
  induction piece generalizing start with
  | nil => exact List.Pairwise.nil
  | cons c cs ih =>
    refine List.pairwise_cons.mpr ⟨?_, ih (start + c.utf8Size)⟩
    rintro ⟨i, d⟩ hMem
    obtain ⟨before, after, -, hi⟩ := mem_charOffsetsFrom.mp hMem
    have hPos := c.utf8Size_pos
    show start < i
    omega

theorem pairwise_shifted_charOffsetsFrom (source : Nat) (piece : List Char) :
    (charOffsetsFrom 0 piece).Pairwise fun a b => source + a.1 < source + b.1 := by
  apply (pairwise_charOffsetsFrom 0 piece).imp
  intro a b hLess
  exact Nat.add_lt_add_left hLess source

theorem rightward_anchorEach (source output : Nat) (piece : List Char) :
    Rightward (anchorEach source output piece) := by
  unfold Rightward anchorEach
  rw [List.pairwise_map]
  exact pairwise_shifted_charOffsetsFrom source piece

theorem source_of_mem_anchorEach {source output : Nat} {piece : List Char} {a : Anchor}
    (h : a ∈ anchorEach source output piece) :
    source ≤ a.source ∧ a.source < source + byteSize piece := by
  obtain ⟨⟨i, c⟩, hMem, rfl⟩ := List.mem_map.mp h
  obtain ⟨before, after, rfl, hi⟩ := mem_charOffsetsFrom.mp hMem
  have hPos := c.utf8Size_pos
  rw [byteSize_append, byteSize]
  show source ≤ source + i ∧ source + i < source + _
  omega

/-- A respelling takes the characters of the source token in order, so it draws at most one
substitution at each place of the source. -/
theorem sources_respell_sublist (source output : Nat) (last : Option Nat)
    (rest others : List (Nat × Char)) :
    ((respell source output last rest others).map (·.source)).Sublist
      (rest.map fun e => source + e.1) := by
  fun_induction respell source output last rest others with
  | case1 last i c rest j d others ih => exact ih.cons_cons (source + i)
  | case2 i c rest j ih => exact ih.cons_cons (source + i)
  | case3 => exact List.nil_sublist _
  | case4 => exact List.nil_sublist _

theorem rightward_respell (source output : Nat) (last : Option Nat) (piece : List Char)
    (others : List (Nat × Char)) :
    Rightward (respell source output last (charOffsetsFrom 0 piece) others) := by
  have hOffsets : ((charOffsetsFrom 0 piece).map fun e => source + e.1).Pairwise (· < ·) :=
    List.pairwise_map.mpr (pairwise_shifted_charOffsetsFrom source piece)
  have hSources := hOffsets.sublist (sources_respell_sublist source output last _ others)
  exact List.pairwise_map.mp hSources

namespace Pairing

theorem orderly_tokenOrRespelling (p : Pairing) (places : Places)
    (sourceToken outputToken : String) :
    Orderly (p.tokenOrRespelling places sourceToken outputToken) := by
  unfold tokenOrRespelling
  split
  · exact (plain_token p places sourceToken).orderly
  · split
    · split
      · exact (rightward_respell _ _ _ _ _).orderly
      · exact List.Pairwise.nil
    · exact List.Pairwise.nil

theorem source_of_mem_character {p : Pairing} {s o : Nat} {a : Anchor}
    (h : a ∈ p.character s o) : a.source = s := by
  unfold character at h
  simp only at h
  split_ifs at h
  · cases h
  · rw [List.mem_singleton.mp h]
    rfl
  · rw [List.mem_singleton.mp h]
    rfl

theorem rightward_character (p : Pairing) (s o : Nat) : Rightward (p.character s o) := by
  unfold Rightward character
  simp only
  split_ifs
  · exact List.Pairwise.nil
  · exact List.pairwise_singleton _ _
  · exact List.pairwise_singleton _ _

theorem rightward_run (p : Pairing) (s o length : Nat) : Rightward (p.run s o length) := by
  unfold run
  split
  · split
    · exact rightward_anchorEach s o _
    · exact List.Pairwise.nil
  · exact List.Pairwise.nil

theorem source_of_mem_run {p : Pairing} {s o length : Nat} {a : Anchor}
    (h : a ∈ p.run s o length) : s ≤ a.source ∧ a.source < s + length := by
  unfold run at h
  split at h
  · rename_i piece other hPiece _
    split at h
    · have hSize := (Text.slice?_eq_some_iff.mp hPiece).2
      have hLength : byteSize piece = length := by
        rw [hSize, Span.length]
        exact Nat.add_sub_cancel_left s length
      have hInside := source_of_mem_anchorEach h
      omega
    · cases h
  · cases h

end Pairing

namespace Rule

open Pairing

/-! ## Rules with substitutions -/

theorem orderly_delimited (p : Pairing) {s o : Nat × Nat} (h : s.1 < s.2) :
    Orderly (delimited p s o) := by
  have hBody : ∀ a ∈ (if s.2 - s.1 = o.2 - o.1 then p.run (s.1 + 1) (o.1 + 1) (s.2 - s.1 - 1)
      else []), s.1 < a.source ∧ a.source < s.2 := by
    intro a ha
    split at ha
    · have hInside := source_of_mem_run ha
      omega
    · cases ha
  apply Rightward.orderly
  unfold delimited
  refine List.pairwise_append.mpr ⟨List.pairwise_append.mpr ⟨rightward_character p _ _, ?_, ?_⟩,
    rightward_character p _ _, ?_⟩
  · split
    · exact rightward_run p _ _ _
    · exact List.Pairwise.nil
  · intro a ha b hb
    rw [source_of_mem_character ha]
    exact (hBody b hb).1
  · intro a ha b hb
    rw [source_of_mem_character hb]
    rcases List.mem_append.mp ha with hOpening | hInner
    · rw [source_of_mem_character hOpening]
      exact h
    · exact (hBody a hInner).2

theorem orderly_string (options : Options) (p : Pairing) : Orderly (string options p) := by
  unfold string
  split
  · exact (plain_identity options p).orderly
  · split
    · rename_i s o hSource _
      apply orderly_delimited
      unfold quotes? at hSource
      simp only [Option.ite_none_right_eq_some, Option.some.injEq] at hSource
      obtain ⟨⟨hLess, -⟩, rfl⟩ := hSource
      exact hLess
    · exact List.Pairwise.nil

theorem orderly_requote (p : Pairing) : Orderly (requote p) := by
  unfold requote
  simp only
  split_ifs with hLess
  · exact orderly_delimited p hLess.1
  · exact List.Pairwise.nil

theorem orderly_unquote (p : Pairing) : Orderly (unquote p) := by
  unfold unquote
  split
  · apply Rightward.orderly
    refine List.pairwise_cons.mpr ⟨?_, rightward_run p _ _ _⟩
    intro a ha
    exact (source_of_mem_run ha).1
  · exact List.Pairwise.nil

theorem orderly_attributeToProperty (p : Pairing) (s : JsxAttribute) (o : ObjectProperty) :
    Orderly (attributeToProperty p s o) := by
  unfold attributeToProperty
  split
  · exact (rightward_character p _ _).orderly
  · exact List.Pairwise.nil

theorem orderly_update (p : Pairing) (s o : UpdateExpression) : Orderly (update p s o) := by
  unfold update
  split
  · exact orderly_tokenOrRespelling p _ _ _
  · exact List.Pairwise.nil

theorem orderly_variableDeclaration (p : Pairing) (s o : VariableDeclaration) :
    Orderly (variableDeclaration p s o) := by
  unfold variableDeclaration
  rw [List.append_assoc]
  apply (orderly_tokenOrRespelling p _ _ _).append_plain
  simp

/-! ## Rules with plain anchors only -/

theorem plain_dropSeparators (p : Pairing) : Plain (dropSeparators p) := by
  intro a ha
  obtain ⟨⟨⟨s, c⟩, ⟨o, d⟩⟩, -, hSome⟩ := List.mem_filterMap.mp ha
  simp only [Option.ite_none_right_eq_some, Option.some.injEq] at hSome
  rw [← hSome.2]
  rfl

theorem plain_regExp (options : Options) (p : Pairing) (s o : RegExpLiteral) :
    Plain (regExp options p s o) := by
  unfold regExp
  split
  · exact plain_identity options p
  · simp only [plain_append, plain_leading, plain_token, true_and]
    split
    · simp [plain_run]
    · exact plain_nil

theorem plain_template (p : Pairing) (s o : TemplateLiteral) : Plain (template p s o) := by
  unfold template
  simp only [plain_append, plain_leading, plain_trailing, true_and, and_true]
  apply plain_flatMap
  intro pair _
  simp

theorem plain_switchCase (p : Pairing) (s o : SwitchCase) : Plain (switchCase p s o) := by
  unfold switchCase
  simp only
  split <;> simp

@[simp]
theorem plain_params (p : Pairing) (source output : Option Nat × Option Nat)
    (s o : List NodeId) : Plain (params p source output s o) := by
  simp [params]

@[simp]
theorem plain_asyncKeyword (p : Pairing) (s o : Bool) : Plain (asyncKeyword p s o) := by
  simp [asyncKeyword]

theorem plain_accessorKeyword (p : Pairing) (s o : MethodKind) :
    Plain (accessorKeyword p s o) := by
  unfold accessorKeyword
  split <;> simp

theorem plain_function (p : Pairing) (s o : Function) : Plain (function p s o) := by
  simp only [function, plain_append, plain_asyncKeyword, plain_token, plain_ite, plain_nil,
    implies_true, true_and]
  split <;> simp

theorem plain_method (p : Pairing) (s o : ObjectMethod) : Plain (method p s o) := by
  simp only [method, plain_append, plain_asyncKeyword, plain_accessorKeyword, plain_token,
    plain_ite, plain_nil, implies_true, true_and, and_self]
  split <;> simp

theorem plain_arrowToFunction (p : Pairing) (s : ArrowFunction) (o : Function) :
    Plain (arrowToFunction p s o) := by
  simp only [arrowToFunction, plain_append, plain_asyncKeyword, true_and]
  split <;> simp

theorem plain_arguments (p : Pairing) (s o : Call) : Plain (arguments p s o) := by
  unfold arguments
  split <;> simp

theorem plain_element (p : Pairing) (s o : JsxElement) : Plain (element p s o) := by
  unfold element
  split <;> simp

theorem plain_textToString (p : Pairing) : Plain (textToString p) := by
  unfold textToString
  split
  · simp [plain_run]
  · exact plain_nil

/-! ## All rules -/

theorem orderly_sameKind (options : Options) (p : Pairing) (kind : Kind) (s o : Payload kind) :
    Orderly (sameKind options p kind s o).anchors := by
  cases kind
  case stringLiteral => exact orderly_string options p
  case variableDeclaration => exact orderly_variableDeclaration p s o
  case unaryExpression => exact orderly_tokenOrRespelling p _ _ _
  case updateExpression => exact orderly_update p s o
  case binaryExpression => exact orderly_tokenOrRespelling p _ _ _
  case logicalExpression => exact orderly_tokenOrRespelling p _ _ _
  case assignmentExpression => exact orderly_tokenOrRespelling p _ _ _
  all_goals
    apply Plain.orderly
    simp [sameKind, Outcome.ofAnchors, expressionStatement, block, leaf, plain_identity, number,
      plain_dropSeparators, plain_regExp, plain_template, ifStatement, forStatement, forIn, forOf,
      whileStatement, doWhile, withStatement, keywordStatement, switch, plain_switchCase,
      tryStatement, catchClause, labeled, variableDeclarator, plain_function, arrow, plain_method,
      importDeclaration, importSpecifier, importNamespace, array, object, property, spread,
      assignmentPattern, conditional, call, newExpression, plain_arguments, member, sequence,
      yieldExpression, bind, metaProperty, plain_element, markupAttribute, expressionContainer]

theorem orderly_reshape (p : Pairing) (source output : Construct) :
    Orderly (reshape p source output).anchors := by
  unfold reshape
  split
  · exact orderly_attributeToProperty p _ _
  · exact (plain_run p _ _ _).orderly
  · exact (plain_run p _ _ _).orderly
  · exact (plain_textToString p).orderly
  · exact orderly_unquote p
  · split
    · exact orderly_requote p
    · exact List.Pairwise.nil
  · exact (plain_arrowToFunction p _ _).orderly
  · exact List.Pairwise.nil

end Rule

theorem Pairing.orderly_align (p : Pairing) (options : Options) :
    Orderly (p.align options).anchors := by
  unfold Pairing.align Rule.outcome
  split
  · exact List.Pairwise.nil
  · split
    · exact Rule.orderly_sameKind options p _ _ _
    · exact Rule.orderly_reshape p _ _

end Retrace
