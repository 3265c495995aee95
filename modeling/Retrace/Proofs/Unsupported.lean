import Retrace.Proofs.Problems

/-!
# Pairs of kinds that are reported as unsupported

A pair of different kinds is either one of the known changes of shape (`Reshaped`) or
is reported as unsupported, once, and then nothing is anchored; a pair of equal kinds
is never reported. There is one exception. Nothing is ever reported about the program
as a whole, whatever it came from: a block that became the program is passed over in
silence (`not_reported_unwrappedBlock`), while every other kind without tokens of its
own is reported.

The argument follows the dispatch: two constructs of the same kind can only be reported
for a hole (`problem_of_mem_sameKind`), and of two constructs of different kinds the
known changes of shape report nothing and all others report nothing else.
-/

namespace Retrace

/-- The changes of kind that leave some text in place. A template has to be one without
expressions. -/
inductive Reshaped : Construct → Construct → Prop where
  | attributeToProperty (s : JsxAttribute) (o : ObjectProperty) :
    Reshaped ⟨.jsxAttribute, s⟩ ⟨.objectProperty, o⟩
  | nameToString (s : Identifier) (o : TextLiteral) :
    Reshaped ⟨.jsxIdentifier, s⟩ ⟨.stringLiteral, o⟩
  | nameToName (s o : Identifier) : Reshaped ⟨.jsxIdentifier, s⟩ ⟨.identifier, o⟩
  | textToString (s o : TextLiteral) : Reshaped ⟨.jsxText, s⟩ ⟨.stringLiteral, o⟩
  | unquoted (s : TextLiteral) (o : Identifier) :
    Reshaped ⟨.stringLiteral, s⟩ ⟨.identifier, o⟩
  | requoted (s : TemplateLiteral) (o : TextLiteral) (hPlain : s.expressions = []) :
    Reshaped ⟨.templateLiteral, s⟩ ⟨.stringLiteral, o⟩
  | arrowToFunction (s : ArrowFunction) (o : Function) :
    Reshaped ⟨.arrowFunctionExpression, s⟩ ⟨.functionExpression, o⟩

/-- Two constructs of different kinds that no rule relates, the program apart. -/
structure Unrelated (source output : Construct) : Prop where
  kinds : source.kind ≠ output.kind
  part : output.kind ≠ .program
  shapes : ¬ Reshaped source output

theorem problems_reshape {source output : Construct} (p : Pairing)
    (h : Reshaped source output) : (Rule.reshape p source output).problems = [] := by
  cases h with
  | requoted s o hPlain => simp [Rule.reshape, hPlain, Outcome.ofAnchors]
  | attributeToProperty s o => rfl
  | nameToString s o => rfl
  | nameToName s o => rfl
  | textToString s o => rfl
  | unquoted s o => rfl
  | arrowToFunction s o => rfl

theorem reshape_eq_unsupported {source output : Construct} (p : Pairing)
    (h : ¬ Reshaped source output) : Rule.reshape p source output = Rule.unsupported := by
  unfold Rule.reshape
  split
  case h_1 s o => exact absurd (.attributeToProperty s o) h
  case h_2 s o => exact absurd (.nameToString s o) h
  case h_3 s o => exact absurd (.nameToName s o) h
  case h_4 s o => exact absurd (.textToString s o) h
  case h_5 s o => exact absurd (.unquoted s o) h
  case h_6 s o =>
    have hExpressions : s.expressions ≠ [] := fun hPlain => h (.requoted s o hPlain)
    simp [hExpressions]
  case h_7 s o => exact absurd (.arrowToFunction s o) h
  case h_8 => rfl

theorem unsupported_not_mem_sameKind (options : Options) (p : Pairing) {kind : Kind}
    (s o : Payload kind) : .unsupported ∉ (Rule.sameKind options p kind s o).problems := by
  intro hMem
  obtain ⟨i, hAmbiguous⟩ := problem_of_mem_sameKind hMem
  cases hAmbiguous

theorem outcome_of_unrelated {source output : Construct} (options : Options) (p : Pairing)
    (h : Unrelated source output) : Rule.outcome options p source output = Rule.unsupported := by
  unfold Rule.outcome
  rw [if_neg h.part, dif_neg h.kinds]
  exact reshape_eq_unsupported p h.shapes

theorem unrelated_of_mem_outcome {source output : Construct} {options : Options} {p : Pairing}
    (h : .unsupported ∈ (Rule.outcome options p source output).problems) :
    Unrelated source output := by
  unfold Rule.outcome at h
  split at h
  · cases h
  · rename_i hPart
    split at h
    · exact absurd h (unsupported_not_mem_sameKind options p _ _)
    · rename_i hKinds
      refine ⟨hKinds, hPart, fun hShapes => ?_⟩
      rw [problems_reshape p hShapes] at h
      cases h

namespace Pairing

/-- **Unrelated pairs are reported, and no others.** A pairing is reported as
unsupported exactly if its kinds differ, the change is none of the known ones and the
output node is not the program as a whole. The report is then all that the rule gives:
there is one problem and no anchor. -/
theorem unsupported_mem_align_iff (p : Pairing) (options : Options) :
    (.unsupported ∈ (p.align options).problems ↔
      Unrelated p.source.node.construct p.output.node.construct) ∧
      (p.align options = ⟨[], [.unsupported]⟩ ↔
        Unrelated p.source.node.construct p.output.node.construct) := by
  have hReported : Unrelated p.source.node.construct p.output.node.construct →
      p.align options = ⟨[], [.unsupported]⟩ := outcome_of_unrelated options p
  refine ⟨⟨unrelated_of_mem_outcome, fun h => ?_⟩, fun h => ?_, hReported⟩
  · rw [hReported h]
    exact List.mem_singleton_self _
  · have hMem : .unsupported ∈ (p.align options).problems := by
      rw [h]
      exact List.mem_singleton_self _
    exact unrelated_of_mem_outcome hMem

/-- A block `{}` whose braces are left out in the program it became. -/
def unwrappedBlock : Pairing where
  source := ⟨.ofString "\x7b\x7d", ⟨⟨0⟩, #[⟨.upTo 2, false, ⟨.blockStatement, ⟨[]⟩⟩⟩]⟩,
    ⟨.upTo 2, false, ⟨.blockStatement, ⟨[]⟩⟩⟩⟩
  output := ⟨.ofString "", ⟨⟨0⟩, #[⟨.upTo 0, false, ⟨.program, ⟨[]⟩⟩⟩]⟩,
    ⟨.upTo 0, false, ⟨.program, ⟨[]⟩⟩⟩⟩

/-- A block that became the program is not reported, although the kinds differ and no
change of shape relates them. -/
theorem not_reported_unwrappedBlock :
    unwrappedBlock.source.node.kind ≠ unwrappedBlock.output.node.kind ∧
      ¬ Reshaped unwrappedBlock.source.node.construct unwrappedBlock.output.node.construct ∧
      .unsupported ∉ (unwrappedBlock.align .default).problems := by
  refine ⟨by decide, ?_, ?_⟩
  · intro hShapes
    cases hShapes
  · intro hReported
    cases hReported

end Pairing

end Retrace
