import Retrace.Proofs.Text
import Retrace.Rule.Dispatch

/-!
# Truthful anchors

An anchor is truthful if the characters it joins are those that the two texts
have at its ends. Every rule draws its anchors through the few operations of a
pairing (`Pairing.token`, `tokenOrRespelling`, `character`, `run`), and each of
these looks at both texts before it anchors anything. So it is enough that the
operations are truthful and that rules only put their results together; where a
rule looked for a token, and whether it found the right one, does not matter.

The two exceptions draw anchors of their own: the loss of digit separators
(`Rule.dropSeparators`) and the loss of quotes (`Rule.unquote`). Both read the
characters off the texts first.
-/

namespace Retrace

/-- The characters that an anchor joins are those at its ends: a plain anchor
joins two equal characters, and a substitution shows what stands on each side it
names, of which there is at least one. -/
def Anchor.Truthful (source output : Text) (a : Anchor) : Prop :=
  match a.substitution with
  | none => ∃ c, source.charAt? a.source = some c ∧ output.charAt? a.output = some c
  | some shown =>
    (∀ c, shown.sourceChar = some c → source.charAt? a.source = some c) ∧
      (∀ c, shown.outputChar = some c → output.charAt? a.output = some c) ∧
      (shown.sourceChar.isSome ∨ shown.outputChar.isSome)

/-- A character that an anchor puts in place of another one is in the output. -/
theorem Anchor.Truthful.charAt?_of_replacement? {source output : Text} {a : Anchor} {c : Char}
    (h : a.Truthful source output) (hReplaced : a.replacement? = some c) :
    output.charAt? a.output = some c := by
  unfold Truthful at h
  unfold replacement? at hReplaced
  split at hReplaced
  · rename_i sourceChar shown hShown
    rw [hShown] at h
    split at hReplaced
    · cases hReplaced
    · cases hReplaced
      exact h.2.1 c rfl
  · cases hReplaced

/-! ## Pieces of text -/

theorem truthful_plain {source output : Text} {s o : Nat} {c : Char}
    (hs : source.charAt? s = some c) (ho : output.charAt? o = some c) :
    (Anchor.plain s o).Truthful source output :=
  ⟨c, hs, ho⟩

theorem truthful_anchorEach {source output : Text} {s o : Nat} {piece : List Char}
    (hs : source.StandsAt s piece) (ho : output.StandsAt o piece) :
    ∀ a ∈ anchorEach s o piece, a.Truthful source output := by
  intro a ha
  unfold anchorEach at ha
  obtain ⟨⟨i, c⟩, hMem, rfl⟩ := List.mem_map.mp ha
  exact truthful_plain (hs.charAt?_of_mem hMem) (ho.charAt?_of_mem hMem)

/-- Where the output token runs out, a substitution names the source character
only, so nothing is asked of the place it leads to. -/
theorem truthful_respell {source output : Text} {s o : Nat} {last : Option Nat}
    {rest others : List (Nat × Char)}
    (hRest : ∀ e ∈ rest, source.charAt? (s + e.1) = some e.2)
    (hOthers : ∀ e ∈ others, output.charAt? (o + e.1) = some e.2) :
    ∀ a ∈ respell s o last rest others, a.Truthful source output := by
  fun_induction respell s o last rest others with
  | case1 last i c rest j d others ih =>
    obtain ⟨hHead, hTail⟩ := List.forall_mem_cons.mp hRest
    obtain ⟨hOther, hOthersTail⟩ := List.forall_mem_cons.mp hOthers
    refine List.forall_mem_cons.mpr ⟨⟨?_, ?_, Or.inl rfl⟩, ih hTail hOthersTail⟩
    · rintro _ ⟨rfl⟩
      exact hHead
    · rintro _ ⟨rfl⟩
      exact hOther
  | case2 i c rest j ih =>
    obtain ⟨hHead, hTail⟩ := List.forall_mem_cons.mp hRest
    refine List.forall_mem_cons.mpr ⟨⟨?_, ?_, Or.inl rfl⟩, ih hTail hOthers⟩
    · rintro _ ⟨rfl⟩
      exact hHead
    · rintro _ ⟨⟩
  | case3 => simp
  | case4 => simp

namespace Pairing

/-! ## The operations of a pairing -/

/-- All anchors of a list are truthful for the texts of a pairing. -/
def Truthful (p : Pairing) (anchors : List Anchor) : Prop :=
  ∀ a ∈ anchors, a.Truthful p.source.text p.output.text

@[simp]
theorem truthful_nil (p : Pairing) : p.Truthful [] := by
  simp [Truthful]

@[simp]
theorem truthful_append {p : Pairing} {xs ys : List Anchor} :
    p.Truthful (xs ++ ys) ↔ p.Truthful xs ∧ p.Truthful ys := by
  simp only [Truthful, List.forall_mem_append]

@[simp]
theorem truthful_ite {p : Pairing} {c : Prop} [Decidable c] {xs ys : List Anchor} :
    p.Truthful (if c then xs else ys) ↔ (c → p.Truthful xs) ∧ (¬ c → p.Truthful ys) := by
  by_cases h : c <;> simp [h]

theorem truthful_flatMap {α : Type} {p : Pairing} {xs : List α} {f : α → List Anchor}
    (h : ∀ x ∈ xs, p.Truthful (f x)) : p.Truthful (xs.flatMap f) := by
  intro a ha
  obtain ⟨x, hx, hMem⟩ := List.mem_flatMap.mp ha
  exact h x hx a hMem

@[simp]
theorem truthful_token (p : Pairing) (places : Places) (token : String) :
    p.Truthful (p.token places token) := by
  unfold Pairing.token
  split
  · split
    · rename_i hBoth
      obtain ⟨hs, ho⟩ := (Bool.and_eq_true _ _).mp hBoth
      exact truthful_anchorEach (Text.startsWithAt_iff.mp hs) (Text.startsWithAt_iff.mp ho)
    · exact truthful_nil p
  · exact truthful_nil p

@[simp]
theorem truthful_tokenOrRespelling (p : Pairing) (places : Places)
    (sourceToken outputToken : String) :
    p.Truthful (p.tokenOrRespelling places sourceToken outputToken) := by
  unfold tokenOrRespelling
  split
  · exact truthful_token p places sourceToken
  · split
    · split
      · rename_i hBoth
        obtain ⟨hs, ho⟩ := (Bool.and_eq_true _ _).mp hBoth
        exact truthful_respell
          (fun e he => (Text.startsWithAt_iff.mp hs).charAt?_of_mem he)
          (fun e he => (Text.startsWithAt_iff.mp ho).charAt?_of_mem he)
      · exact truthful_nil p
    · exact truthful_nil p

@[simp]
theorem truthful_character (p : Pairing) (s o : Nat) : p.Truthful (p.character s o) := by
  unfold character
  simp only
  cases hs : p.source.charAt? s with
  | none =>
    cases ho : p.output.charAt? o with
    | none => simp
    | some d =>
      rintro a ha
      simp only [reduceCtorEq, and_false, if_false, List.mem_singleton] at ha
      subst ha
      exact ⟨by rintro _ ⟨⟩, by rintro _ ⟨rfl⟩; exact ho, Or.inr rfl⟩
  | some c =>
    by_cases hEqual : some c = p.output.charAt? o
    · rintro a ha
      simp only [reduceCtorEq, false_and, if_false, if_pos hEqual, List.mem_singleton] at ha
      subst ha
      exact truthful_plain hs hEqual.symm
    · rintro a ha
      simp only [reduceCtorEq, false_and, if_false, if_neg hEqual, List.mem_singleton] at ha
      subst ha
      exact ⟨by rintro _ ⟨rfl⟩; exact hs, fun d hd => hd, Or.inl rfl⟩

@[simp]
theorem truthful_run (p : Pairing) (s o length : Nat) : p.Truthful (p.run s o length) := by
  unfold Pairing.run
  split
  · rename_i piece other hPiece hOther
    split
    · rename_i hEqual
      subst hEqual
      exact truthful_anchorEach (Text.slice?_eq_some_iff.mp hPiece).1
        (Text.slice?_eq_some_iff.mp hOther).1
    · exact truthful_nil p
  · exact truthful_nil p

@[simp]
theorem truthful_leading (p : Pairing) (token : String) : p.Truthful (p.leading token) :=
  truthful_token p _ token

@[simp]
theorem truthful_trailing (p : Pairing) (token : String) : p.Truthful (p.trailing token) :=
  truthful_token p _ token

@[simp]
theorem truthful_sparseSeparators (p : Pairing) (s o : List (Option NodeId)) (close : Places)
    (token : String) : p.Truthful (p.sparseSeparators s o close token) := by
  unfold sparseSeparators
  split
  · refine truthful_flatMap fun i _ => ?_
    simp
  · exact truthful_nil p

@[simp]
theorem truthful_separators (p : Pairing) (s o : List NodeId) (close : Places)
    (token : String) : p.Truthful (p.separators s o close token) :=
  truthful_sparseSeparators p _ _ close token

end Pairing

namespace Rule

/-! ## Leaves and literals -/

theorem exists_slice_of_sameText {p : Pairing} (h : sameText p = true) :
    ∃ piece, p.source.slice? = some piece ∧ p.output.slice? = some piece := by
  unfold sameText at h
  split at h
  · rename_i piece other hPiece hOther
    rw [of_decide_eq_true h] at hPiece
    exact ⟨other, hPiece, hOther⟩
  · cases h

@[simp]
theorem truthful_identity (options : Options) (p : Pairing) :
    p.Truthful (identity options p) := by
  simp [identity]

@[simp]
theorem truthful_leaf (options : Options) (p : Pairing) : p.Truthful (leaf options p) := by
  simp [leaf]

/-- Digits are paired by their place in line, so a pair is anchored only where the
two characters agree. -/
@[simp]
theorem truthful_dropSeparators (p : Pairing) : p.Truthful (dropSeparators p) := by
  unfold dropSeparators
  intro a ha
  obtain ⟨⟨⟨s, c⟩, ⟨o, d⟩⟩, hPair, hSome⟩ := List.mem_filterMap.mp ha
  obtain ⟨hDigit, hOther⟩ := List.of_mem_zip hPair
  simp only [Option.ite_none_right_eq_some, Option.some.injEq] at hSome
  obtain ⟨rfl, rfl⟩ := hSome
  exact truthful_plain
    (Text.charAt?_of_mem_charOffsets (List.mem_filter.mp hDigit).1)
    (Text.charAt?_of_mem_charOffsets hOther)

@[simp]
theorem truthful_number (options : Options) (p : Pairing) : p.Truthful (number options p) := by
  simp [number]

@[simp]
theorem truthful_delimited (p : Pairing) (s o : Nat × Nat) : p.Truthful (delimited p s o) := by
  simp [delimited]

@[simp]
theorem truthful_string (options : Options) (p : Pairing) : p.Truthful (string options p) := by
  unfold string
  split
  · simp
  · split <;> simp

@[simp]
theorem truthful_regExp (options : Options) (p : Pairing) (s o : RegExpLiteral) :
    p.Truthful (regExp options p s o) := by
  unfold regExp
  split
  · simp
  · simp only [Pairing.truthful_append, Pairing.truthful_leading, Pairing.truthful_token,
      true_and]
    split <;> simp

@[simp]
theorem truthful_template (p : Pairing) (s o : TemplateLiteral) :
    p.Truthful (template p s o) := by
  unfold template
  simp only [Pairing.truthful_append, Pairing.truthful_leading, Pairing.truthful_trailing,
    true_and, and_true]
  exact Pairing.truthful_flatMap fun _ _ => by simp

/-! ## Statements -/

@[simp]
theorem truthful_expressionStatement (p : Pairing) : p.Truthful (expressionStatement p) := by
  simp [expressionStatement]

@[simp]
theorem truthful_block (p : Pairing) : p.Truthful (block p) := by
  simp [block]

@[simp]
theorem truthful_ifStatement (p : Pairing) (s o : IfStatement) :
    p.Truthful (ifStatement p s o) := by
  simp [ifStatement]

@[simp]
theorem truthful_forStatement (p : Pairing) (s o : ForStatement) :
    p.Truthful (forStatement p s o) := by
  simp [forStatement]

@[simp]
theorem truthful_forIn (p : Pairing) (s o : ForInStatement) : p.Truthful (forIn p s o) := by
  simp [forIn]

@[simp]
theorem truthful_forOf (p : Pairing) (s o : ForOfStatement) : p.Truthful (forOf p s o) := by
  simp [forOf]

@[simp]
theorem truthful_whileStatement (p : Pairing) (s o : WhileStatement) :
    p.Truthful (whileStatement p s o) := by
  simp [whileStatement]

@[simp]
theorem truthful_doWhile (p : Pairing) (s o : WhileStatement) : p.Truthful (doWhile p s o) := by
  simp [doWhile]

@[simp]
theorem truthful_withStatement (p : Pairing) (s o : WithStatement) :
    p.Truthful (withStatement p s o) := by
  simp [withStatement]

@[simp]
theorem truthful_keywordStatement (keyword : String) (p : Pairing) :
    p.Truthful (keywordStatement keyword p) := by
  simp [keywordStatement]

@[simp]
theorem truthful_switch (p : Pairing) (s o : SwitchStatement) : p.Truthful (switch p s o) := by
  simp [switch]

@[simp]
theorem truthful_switchCase (p : Pairing) (s o : SwitchCase) :
    p.Truthful (switchCase p s o) := by
  unfold switchCase
  simp only
  split <;> simp

@[simp]
theorem truthful_tryStatement (p : Pairing) (s o : TryStatement) :
    p.Truthful (tryStatement p s o) := by
  simp [tryStatement]

@[simp]
theorem truthful_catchClause (p : Pairing) (s o : CatchClause) :
    p.Truthful (catchClause p s o) := by
  simp [catchClause]

@[simp]
theorem truthful_labeled (p : Pairing) (s o : LabeledStatement) :
    p.Truthful (labeled p s o) := by
  simp [labeled]

@[simp]
theorem truthful_variableDeclaration (p : Pairing) (s o : VariableDeclaration) :
    p.Truthful (variableDeclaration p s o) := by
  simp [variableDeclaration]

@[simp]
theorem truthful_variableDeclarator (p : Pairing) (s o : VariableDeclarator) :
    p.Truthful (variableDeclarator p s o) := by
  simp [variableDeclarator]

/-! ## Functions -/

@[simp]
theorem truthful_params (p : Pairing) (source output : Option Nat × Option Nat)
    (s o : List NodeId) : p.Truthful (params p source output s o) := by
  simp [params]

@[simp]
theorem truthful_asyncKeyword (p : Pairing) (s o : Bool) : p.Truthful (asyncKeyword p s o) := by
  simp [asyncKeyword]

@[simp]
theorem truthful_function (p : Pairing) (s o : Function) : p.Truthful (function p s o) := by
  simp only [function, Pairing.truthful_append, truthful_asyncKeyword, Pairing.truthful_token,
    Pairing.truthful_ite, Pairing.truthful_nil, implies_true, true_and]
  split <;> simp

@[simp]
theorem truthful_arrow (p : Pairing) (s o : ArrowFunction) : p.Truthful (arrow p s o) := by
  simp [arrow]

@[simp]
theorem truthful_accessorKeyword (p : Pairing) (s o : MethodKind) :
    p.Truthful (accessorKeyword p s o) := by
  unfold accessorKeyword
  split <;> simp

@[simp]
theorem truthful_method (p : Pairing) (s o : ObjectMethod) : p.Truthful (method p s o) := by
  simp only [method, Pairing.truthful_append, truthful_asyncKeyword, truthful_accessorKeyword,
    Pairing.truthful_token, Pairing.truthful_ite, Pairing.truthful_nil, implies_true, true_and,
    and_self]
  split <;> simp

@[simp]
theorem truthful_arrowToFunction (p : Pairing) (s : ArrowFunction) (o : Function) :
    p.Truthful (arrowToFunction p s o) := by
  simp only [arrowToFunction, Pairing.truthful_append, truthful_asyncKeyword, true_and]
  split <;> simp

/-! ## Expressions -/

@[simp]
theorem truthful_spread (p : Pairing) : p.Truthful (spread p) := by
  simp [spread]

@[simp]
theorem truthful_assignmentPattern (p : Pairing) (s o : AssignmentPattern) :
    p.Truthful (assignmentPattern p s o) := by
  simp [assignmentPattern]

@[simp]
theorem truthful_unary (p : Pairing) (s o : UnaryExpression) : p.Truthful (unary p s o) := by
  simp [unary]

@[simp]
theorem truthful_update (p : Pairing) (s o : UpdateExpression) : p.Truthful (update p s o) := by
  simp [update]

@[simp]
theorem truthful_binary (p : Pairing) (s o : BinaryExpression) : p.Truthful (binary p s o) := by
  simp [binary]

@[simp]
theorem truthful_conditional (p : Pairing) (s o : ConditionalExpression) :
    p.Truthful (conditional p s o) := by
  simp [conditional]

@[simp]
theorem truthful_arguments (p : Pairing) (s o : Call) : p.Truthful (arguments p s o) := by
  unfold arguments
  split <;> simp

@[simp]
theorem truthful_call (p : Pairing) (s o : Call) : p.Truthful (call p s o) := by
  simp [call]

@[simp]
theorem truthful_newExpression (p : Pairing) (s o : Call) :
    p.Truthful (newExpression p s o) := by
  simp [newExpression]

@[simp]
theorem truthful_member (p : Pairing) (s o : Member) : p.Truthful (member p s o) := by
  simp [member]

@[simp]
theorem truthful_sequence (p : Pairing) (s o : SequenceExpression) :
    p.Truthful (sequence p s o) := by
  simp [sequence]

@[simp]
theorem truthful_yieldExpression (p : Pairing) (s o : YieldExpression) :
    p.Truthful (yieldExpression p s o) := by
  simp [yieldExpression]

@[simp]
theorem truthful_bind (p : Pairing) (s o : BindExpression) : p.Truthful (bind p s o) := by
  simp [bind]

@[simp]
theorem truthful_metaProperty (p : Pairing) (s o : MetaProperty) :
    p.Truthful (metaProperty p s o) := by
  simp [metaProperty]

/-! ## Collections, imports and markup -/

@[simp]
theorem truthful_array (p : Pairing) (s o : ArrayLike) : p.Truthful (array p s o).anchors := by
  simp [array]

@[simp]
theorem truthful_object (p : Pairing) (s o : ObjectLike) : p.Truthful (object p s o) := by
  simp [object]

@[simp]
theorem truthful_property (p : Pairing) (s o : ObjectProperty) :
    p.Truthful (property p s o) := by
  simp [property]

@[simp]
theorem truthful_importDeclaration (p : Pairing) (s o : ImportDeclaration) :
    p.Truthful (importDeclaration p s o) := by
  simp [importDeclaration]

@[simp]
theorem truthful_importSpecifier (p : Pairing) (s o : ImportSpecifier) :
    p.Truthful (importSpecifier p s o) := by
  simp [importSpecifier]

@[simp]
theorem truthful_importNamespace (p : Pairing) (s o : ImportLocal) :
    p.Truthful (importNamespace p s o) := by
  simp [importNamespace]

@[simp]
theorem truthful_element (p : Pairing) (s o : JsxElement) : p.Truthful (element p s o) := by
  simp only [element, Pairing.truthful_append, Pairing.truthful_leading, true_and]
  split <;> simp

@[simp]
theorem truthful_markupAttribute (p : Pairing) (s o : JsxAttribute) :
    p.Truthful (markupAttribute p s o) := by
  simp [markupAttribute]

@[simp]
theorem truthful_expressionContainer (p : Pairing) : p.Truthful (expressionContainer p) := by
  simp [expressionContainer]

/-! ## Changes of shape -/

theorem truthful_attributeToProperty (p : Pairing) (s : JsxAttribute) (o : ObjectProperty) :
    p.Truthful (attributeToProperty p s o) := by
  unfold attributeToProperty
  split <;> simp

theorem truthful_textToString (p : Pairing) : p.Truthful (textToString p) := by
  unfold textToString
  split <;> simp

/-- The opening quote leads to a character that it does not replace, so only the
source side is shown. -/
theorem truthful_unquote (p : Pairing) : p.Truthful (unquote p) := by
  unfold unquote
  split
  · rename_i quote hQuote
    have hChar := (Option.filter_eq_some_iff.mp hQuote).1
    refine List.forall_mem_cons.mpr ⟨⟨?_, ?_, Or.inl rfl⟩, Pairing.truthful_run p _ _ _⟩
    · rintro _ ⟨rfl⟩
      exact hChar
    · rintro _ ⟨⟩
  · exact Pairing.truthful_nil p

theorem truthful_requote (p : Pairing) : p.Truthful (requote p) := by
  simp [requote]

theorem truthful_reshape (p : Pairing) (source output : Construct) :
    p.Truthful (reshape p source output).anchors := by
  unfold reshape
  split
  · exact truthful_attributeToProperty p _ _
  · exact Pairing.truthful_run p _ _ _
  · exact Pairing.truthful_run p _ _ _
  · exact truthful_textToString p
  · exact truthful_unquote p
  · split
    · exact truthful_requote p
    · exact Pairing.truthful_nil p
  · exact truthful_arrowToFunction p _ _
  · exact Pairing.truthful_nil p

/-! ## All rules -/

theorem truthful_sameKind (options : Options) (p : Pairing) (kind : Kind) (s o : Payload kind) :
    p.Truthful (sameKind options p kind s o).anchors := by
  cases kind <;> simp [sameKind, Outcome.ofAnchors]

end Rule

/-- Whatever the kinds and payloads of the two nodes, the rule that is applied to
them is truthful. -/
theorem Pairing.truthful_align (p : Pairing) (options : Options) :
    p.Truthful (p.align options).anchors := by
  unfold Pairing.align Rule.outcome
  split
  · exact truthful_nil p
  · split
    · exact Rule.truthful_sameKind options p _ _ _
    · exact Rule.truthful_reshape p _ _

end Retrace
