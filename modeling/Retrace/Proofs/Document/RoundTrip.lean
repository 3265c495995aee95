import Retrace.Document.Alignment
import Retrace.Document.Fixture
import Retrace.Proofs.Document.Provenance

/-!
# Reading back what was written

Every value of the document format is read back as it was written: nodes of every kind,
trees, links, tables, anchors, ranges, classes, diagnostics, whole alignments and whole
fixtures (`readsBack_of_representable`). The only thing asked of a value is that its
offsets and the numbers of its nodes lie below the bound that documents have for them.

The argument goes through the values from the inside out. An object is read back because
each of its fields is found under its name and is read back; of the fields of a
diagnostic, those of the finding depend on its code, but none of them shares a name with
the rest (`Finding.field?_toFields`).
-/

namespace Retrace

/-! ## Anchors and ranges -/

theorem asChar?_charToJson (c : Char) : (charToJson c).asChar? = some c := by
  simp [charToJson, Json.asChar?]

theorem Substitution.ofJson?_toJson (s : Substitution) : ofJson? s.toJson = some s := by
  simp only [ofJson?, Option.bind_eq_bind, Option.bind_eq_some_iff]
  refine ⟨_, rfl, s.sourceChar, ?_, s.outputChar, ?_, rfl⟩
  · exact Json.optional?_of_field? charToJson (Or.inr (by simp)) rfl
      fun c _ => asChar?_charToJson c
  · exact Json.optional?_of_field? charToJson (Or.inr (by simp)) rfl
      fun c _ => asChar?_charToJson c

namespace Anchor

/-- Both offsets are such that documents can hold them. -/
@[mk_iff]
structure Representable (a : Anchor) : Prop where
  source : a.source < offsetBound
  output : a.output < offsetBound

theorem ofJson?_toJson {a : Anchor} (h : a.Representable) : ofJson? a.toJson = some a := by
  simp only [ofJson?, Option.bind_eq_bind, Option.bind_eq_some_iff]
  refine ⟨_, rfl, a.source, ?_, a.output, ?_, a.substitution, ?_, rfl⟩
  · exact Json.required?_of_field? .nat (by simp) (Json.asOffset?_nat h.source)
  · exact Json.required?_of_field? .nat (by simp) (Json.asOffset?_nat h.output)
  · exact Json.optional?_of_field? Substitution.toJson (Or.inl (by simp)) rfl
      fun s _ => Substitution.ofJson?_toJson s

end Anchor

namespace Range

/-- Every offset and every reference of the range is such that documents can hold it. -/
@[mk_iff]
structure Representable (r : Range) : Prop where
  source : r.source.Representable
  output : r.output.Representable
  node : r.node.Representable
  anchors : ∀ a ∈ r.anchors, a.Representable
  predecessors : ∀ p ∈ r.predecessors, p.Representable

theorem ofJson?_toJson {r : Range} (h : r.Representable) : ofJson? r.toJson = some r := by
  have hAnchors : (Json.list Anchor.toJson r.anchors).asList? Anchor.ofJson? = some r.anchors :=
    Json.asList?_list fun a ha => Anchor.ofJson?_toJson (h.anchors a ha)
  simp only [ofJson?, Option.bind_eq_bind, Option.bind_eq_some_iff]
  refine ⟨_, rfl, r.source, ?_, r.output, ?_, r.node, ?_, r.outputKind, ?_, r.anchors, ?_,
    r.predecessors, ?_, r.steps, ?_, rfl⟩
  · exact Json.required?_of_field? Span.toJson (by simp) (Span.ofJson?_toJson h.source)
  · exact Json.required?_of_field? Span.toJson (by simp) (Span.ofJson?_toJson h.output)
  · exact Json.required?_of_field? NodeId.toJson (by simp) (NodeId.ofJson?_toJson h.node)
  · exact Json.required?_of_field? Kind.toJson (by simp) (Kind.ofJson?_toJson r.outputKind)
  · exact Json.defaulted?_of_field? (.list Anchor.toJson) (by simp) hAnchors
  · exact Predecessor.listOf?_of_field? (by simp) h.predecessors
  · exact Step.listOf?_of_field? (by simp)

end Range

namespace RangeSet

/-- Every range is one that documents can hold. -/
def Representable (s : RangeSet) : Prop := ∀ r ∈ s.ranges, r.Representable

theorem ofJson?_toJson {s : RangeSet} (h : s.Representable) : ofJson? s.toJson = some s := by
  have hRanges : (Json.list Range.toJson s.ranges).asList? Range.ofJson? = some s.ranges :=
    Json.asList?_list fun r hr => Range.ofJson?_toJson (h r hr)
  rw [ofJson?, toJson, hRanges]
  rfl

end RangeSet

/-! ## Classes -/

namespace Classes

/-- Every span is one that documents can hold. -/
@[mk_iff]
structure Representable (c : Classes) : Prop where
  carried : ∀ s ∈ c.carried, s.Representable
  substituted : ∀ s ∈ c.substituted, s.Representable
  inserted : ∀ s ∈ c.inserted, s.Representable
  removed : ∀ s ∈ c.removed, s.Representable

theorem ofJson?_toJson {c : Classes} (h : c.Representable) : ofJson? c.toJson = some c := by
  have hSpans : ∀ spans : List Span, (∀ s ∈ spans, s.Representable) →
      (Json.list Span.toJson spans).asList? Span.ofJson? = some spans := by
    intro spans hSpans
    exact Json.asList?_list fun s hs => Span.ofJson?_toJson (hSpans s hs)
  simp only [ofJson?, Option.bind_eq_bind, Option.bind_eq_some_iff]
  refine ⟨_, rfl, c.carried, ?_, c.substituted, ?_, c.inserted, ?_, c.removed, ?_, rfl⟩
  · exact Json.required?_of_field? (.list Span.toJson) (by simp) (hSpans _ h.carried)
  · exact Json.required?_of_field? (.list Span.toJson) (by simp) (hSpans _ h.substituted)
  · exact Json.required?_of_field? (.list Span.toJson) (by simp) (hSpans _ h.inserted)
  · exact Json.required?_of_field? (.list Span.toJson) (by simp) (hSpans _ h.removed)

end Classes

/-! ## Diagnostics -/

theorem Severity.ofJson?_toJson (s : Severity) : ofJson? s.toJson = some s := by
  cases s <;> rfl

theorem DiagnosticCode.ofTag?_name (code : DiagnosticCode) : ofTag? (.str code.name) = some code := by
  cases code <;> rfl

namespace Finding

theorem field?_toFields (f : Finding) {name : String}
    (h : name ∈ ["severity", "node", "outputSpan", "sourceSpan"]) :
    Json.field? f.toFields name = none := by
  have hOther : name ≠ "code" ∧ name ≠ "outputKind" ∧ name ≠ "sourceKinds" ∧ name ≠ "reason" := by
    revert name
    decide
  obtain ⟨hCode, hOutput, hSources, hReason⟩ := hOther
  cases f with
  | unsupportedPairing outputKind sourceKinds => simp [toFields, hCode, hOutput, hSources]
  | ambiguousStructure reason => simp [toFields, hCode, hReason]

theorem isReadable_of_mem_toFields {f : Finding} {field : String × Json}
    (h : field ∈ f.toFields) : field.2.isReadable = true := by
  revert field
  cases f with
  | unsupportedPairing outputKind sourceKinds =>
    have hSources : (Json.list Kind.toJson sourceKinds).isReadable = true :=
      Json.isReadable_list Kind.isReadable_toJson sourceKinds
    simp [toFields, Json.isReadable, hSources, outputKind.isReadable_toJson]
  | ambiguousStructure reason => simp [toFields, Json.isReadable]

/-- A finding is found among any fields that begin with its own. -/
theorem ofFields?_append (f : Finding) (rest : List (String × Json)) :
    ofFields? (f.toFields ++ rest) = some f := by
  cases f with
  | unsupportedPairing outputKind sourceKinds =>
    have hSources : (Json.list Kind.toJson sourceKinds).asList? Kind.ofInnerJson? =
        some sourceKinds :=
      Json.asList?_list fun kind _ => Kind.ofInnerJson?_toJson kind
    simp only [ofFields?, Option.bind_eq_bind, Option.bind_eq_some_iff]
    refine ⟨.unsupportedPairing, ?_, ?_⟩
    · exact Json.required?_of_field? (fun code => .str code.name) (by simp [toFields])
        (DiagnosticCode.ofTag?_name _)
    · simp only [Option.bind_eq_some_iff]
      refine ⟨outputKind, ?_, sourceKinds, ?_, rfl⟩
      · exact Json.required?_of_field? Kind.toJson (by simp [toFields])
          (Kind.ofInnerJson?_toJson outputKind)
      · exact Json.required?_of_field? (.list Kind.toJson) (by simp [toFields]) hSources
  | ambiguousStructure reason =>
    simp only [ofFields?, Option.bind_eq_bind, Option.bind_eq_some_iff]
    refine ⟨.ambiguousStructure, ?_, ?_⟩
    · exact Json.required?_of_field? (fun code => .str code.name) (by simp [toFields])
        (DiagnosticCode.ofTag?_name _)
    · simp only [Option.bind_eq_some_iff]
      exact ⟨reason, Json.required?_of_field? .str (by simp [toFields]) rfl, rfl⟩

end Finding

namespace Diagnostic

/-- The node and the spans are such that documents can hold them. -/
@[mk_iff]
structure Representable (d : Diagnostic) : Prop where
  node : d.node.Representable
  outputSpan : d.outputSpan.Representable
  sourceSpan : ∀ s ∈ d.sourceSpan, s.Representable

/-- The fields of a diagnostic that do not depend on the finding. -/
def framing (d : Diagnostic) : List (String × Json) :=
  [("severity", d.severity.toJson), ("node", d.node.toJson), ("outputSpan", d.outputSpan.toJson)] ++
    Json.fieldIfSome "sourceSpan" Span.toJson d.sourceSpan

theorem toJson_eq (d : Diagnostic) : d.toJson = .obj (d.finding.toFields ++ d.framing) := by
  rw [toJson, List.append_assoc]
  rfl

theorem isReadable_of_mem_framing {d : Diagnostic} {field : String × Json}
    (h : field ∈ d.framing) : field.2.isReadable = true := by
  simp only [framing, List.mem_append, List.mem_cons, List.not_mem_nil, or_false] at h
  rcases h with (rfl | rfl | rfl) | hSource
  · rfl
  · rfl
  · exact d.outputSpan.isReadable_toJson
  · exact Json.isReadable_of_mem_fieldIfSome Span.isReadable_toJson hSource

theorem ofJson?_toJson {d : Diagnostic} (h : d.Representable) : ofJson? d.toJson = some d := by
  have hWhole : d.toJson.asWholeFields? = some (d.finding.toFields ++ d.framing) := by
    rw [toJson_eq]
    apply Json.asWholeFields?_obj
    exact List.forall_mem_append.mpr
      ⟨fun _ => Finding.isReadable_of_mem_toFields, fun _ => isReadable_of_mem_framing⟩
  simp only [ofJson?, Option.bind_eq_bind, Option.bind_eq_some_iff]
  refine ⟨_, hWhole, d.finding, d.finding.ofFields?_append _, d.severity, ?_, d.node, ?_,
    d.outputSpan, ?_, d.sourceSpan, ?_, rfl⟩
  · exact Json.required?_of_field? Severity.toJson (by simp [framing, Finding.field?_toFields])
      (Severity.ofJson?_toJson d.severity)
  · exact Json.required?_of_field? NodeId.toJson (by simp [framing, Finding.field?_toFields])
      (NodeId.ofJson?_toJson h.node)
  · exact Json.required?_of_field? Span.toJson (by simp [framing, Finding.field?_toFields])
      (Span.ofJson?_toJson h.outputSpan)
  · exact Json.optional?_of_field? Span.toJson (Or.inl (by simp [framing, Finding.field?_toFields]))
      rfl fun s hs => Span.ofJson?_toJson (h.sourceSpan s hs)

end Diagnostic

/-! ## Alignments -/

namespace SynthesizedNode

/-- The node and its span are such that documents can hold them. -/
@[mk_iff]
structure Representable (n : SynthesizedNode) : Prop where
  node : n.node.Representable
  output : n.output.Representable

theorem ofJson?_toJson {n : SynthesizedNode} (h : n.Representable) :
    ofJson? n.toJson = some n := by
  simp only [ofJson?, Option.bind_eq_bind, Option.bind_eq_some_iff]
  refine ⟨_, rfl, n.node, ?_, n.kind, ?_, n.output, ?_, n.steps, ?_, rfl⟩
  · exact Json.required?_of_field? NodeId.toJson (by simp) (NodeId.ofJson?_toJson h.node)
  · exact Json.required?_of_field? Kind.toJson (by simp) (Kind.ofJson?_toJson n.kind)
  · exact Json.required?_of_field? Span.toJson (by simp) (Span.ofJson?_toJson h.output)
  · exact Json.defaulted?_of_field? (.list Step.toJson) (by simp) (Step.asList?_toJson n.steps)

end SynthesizedNode

namespace Alignment

/-- Every part of the alignment is one that documents can hold. -/
@[mk_iff]
structure Representable (a : Alignment) : Prop where
  ranges : a.ranges.Representable
  classes : a.classes.Representable
  diagnostics : ∀ d ∈ a.diagnostics, d.Representable
  synthesized : ∀ n ∈ a.synthesized, n.Representable

theorem ofJson?_toJson {a : Alignment} (h : a.Representable) : ofJson? a.toJson = some a := by
  have hDiagnostics : (Json.list Diagnostic.toJson a.diagnostics).asList? Diagnostic.ofJson? =
      some a.diagnostics :=
    Json.asList?_list fun d hd => Diagnostic.ofJson?_toJson (h.diagnostics d hd)
  have hSynthesized : (Json.list SynthesizedNode.toJson a.synthesized).asList?
      SynthesizedNode.ofJson? = some a.synthesized :=
    Json.asList?_list fun n hn => SynthesizedNode.ofJson?_toJson (h.synthesized n hn)
  simp only [ofJson?, Option.bind_eq_bind, Option.bind_eq_some_iff]
  refine ⟨_, rfl, a.ranges, ?_, a.classes, ?_, a.diagnostics, ?_, a.synthesized, ?_, rfl⟩
  · exact Json.required?_of_field? RangeSet.toJson (by simp [toFields])
      (RangeSet.ofJson?_toJson h.ranges)
  · exact Json.required?_of_field? Classes.toJson (by simp [toFields])
      (Classes.ofJson?_toJson h.classes)
  · exact Json.defaulted?_of_field? (.list Diagnostic.toJson) (by simp [toFields]) hDiagnostics
  · exact Json.defaulted?_of_field? (.list SynthesizedNode.toJson) (by simp [toFields])
      hSynthesized

end Alignment

/-! ## Fixtures -/

namespace Fixture

/-- Both trees and the table are such that documents can hold them. -/
@[mk_iff]
structure Representable (f : Fixture) : Prop where
  sourceTree : f.sourceTree.Representable
  outputTree : f.outputTree.Representable
  provenance : ∀ t ∈ f.provenance, t.Representable

theorem ofJson?_toJson {f : Fixture} (h : f.Representable) : ofJson? f.toJson = some f := by
  simp only [ofJson?, Option.bind_eq_bind, Option.bind_eq_some_iff]
  refine ⟨_, rfl, f.source, ?_, f.output, ?_, f.sourceTree, ?_, f.outputTree, ?_, f.provenance, ?_,
    f.zip, ?_, rfl⟩
  · exact Json.required?_of_field? .str (by simp) rfl
  · exact Json.required?_of_field? .str (by simp) rfl
  · exact Json.required?_of_field? Tree.toJson (by simp) (Tree.ofJson?_toJson h.sourceTree)
  · exact Json.required?_of_field? Tree.toJson (by simp) (Tree.ofJson?_toJson h.outputTree)
  · exact Json.optional?_of_field? Table.toJson (Or.inl (by simp)) rfl
      fun t ht => Table.ofJson?_toJson (h.provenance t ht)
  · exact Json.defaulted?_of_field? .bool (by simp) rfl

end Fixture

/-- **Reading undoes writing.** Whatever documents can hold is read back as it was
written, in every part of the format. -/
theorem readsBack_of_representable :
    (∀ n : Node, n.Representable → Node.ofJson? n.toJson = some n) ∧
      (∀ t : Tree, t.Representable → Tree.ofJson? t.toJson = some t) ∧
      (∀ l : Link, l.Representable → Link.ofJson? l.toJson = some l) ∧
      (∀ t : Table, t.Representable → Table.ofJson? t.toJson = some t) ∧
      (∀ a : Anchor, a.Representable → Anchor.ofJson? a.toJson = some a) ∧
      (∀ r : Range, r.Representable → Range.ofJson? r.toJson = some r) ∧
      (∀ c : Classes, c.Representable → Classes.ofJson? c.toJson = some c) ∧
      (∀ d : Diagnostic, d.Representable → Diagnostic.ofJson? d.toJson = some d) ∧
      (∀ a : Alignment, a.Representable → Alignment.ofJson? a.toJson = some a) ∧
      (∀ f : Fixture, f.Representable → Fixture.ofJson? f.toJson = some f) :=
  ⟨fun _ => Node.ofJson?_toJson, fun _ => Tree.ofJson?_toJson, fun _ => Link.ofJson?_toJson,
    fun _ => Table.ofJson?_toJson, fun _ => Anchor.ofJson?_toJson, fun _ => Range.ofJson?_toJson,
    fun _ => Classes.ofJson?_toJson, fun _ => Diagnostic.ofJson?_toJson,
    fun _ => Alignment.ofJson?_toJson, fun _ => Fixture.ofJson?_toJson⟩

/-- An array with a hole and an entry in parentheses, of which the first entry is kept. -/
def Fixture.holedArray : Fixture where
  source := "[a,,(b)]"
  output := "[a]"
  sourceTree := ⟨⟨0⟩, #[⟨.upTo 8, false, ⟨.arrayExpression, ⟨[some ⟨1⟩, none, some ⟨2⟩]⟩⟩⟩,
    ⟨⟨1, 2, by decide⟩, false, ⟨.identifier, ⟨"a"⟩⟩⟩,
    ⟨⟨5, 6, by decide⟩, true, ⟨.identifier, ⟨"b"⟩⟩⟩]⟩
  outputTree := ⟨⟨0⟩, #[⟨.upTo 3, false, ⟨.arrayExpression, ⟨[some ⟨1⟩]⟩⟩⟩,
    ⟨⟨1, 2, by decide⟩, false, ⟨.identifier, ⟨"a"⟩⟩⟩]⟩
  provenance := some ⟨[(⟨0⟩, ⟨[⟨.arrayExpression, .upTo 8, none⟩], [⟨"compact", none⟩]⟩)],
    by simp [Ascending]⟩
  zip := true

theorem Fixture.representable_holedArray : holedArray.Representable := by
  simp [holedArray, Fixture.representable_iff, Tree.representable_iff, Node.representable_iff,
    Predecessor.representable_iff, Link.Representable, Table.Representable,
    Construct.Representable, Construct.references, Construct.fields, Payload.fields,
    FieldValue.references, Span.Representable, NodeId.Representable, Span.upTo, offsetBound]

/-- An alignment of a name that became a string, beside a node that was made up. -/
def Alignment.quotedName : Alignment where
  ranges := ⟨[⟨.upTo 1, .upTo 3, ⟨0⟩, .stringLiteral, [⟨0, 0, some ⟨none, some 'q'⟩⟩, .plain 0 1],
    [⟨.jsxIdentifier, .upTo 1, some ⟨0⟩⟩], []⟩]⟩
  classes := ⟨[⟨1, 2, by decide⟩], [.upTo 1], [⟨2, 5, by decide⟩], []⟩
  diagnostics := [⟨.unsupportedPairing .program [.identifier], .warning, ⟨1⟩, .upTo 3, none⟩]
  synthesized := [⟨⟨2⟩, .nullLiteral, ⟨3, 5, by decide⟩, [⟨"wrap", some "1"⟩]⟩]

theorem Alignment.representable_quotedName : quotedName.Representable := by
  simp [quotedName, Alignment.representable_iff, RangeSet.Representable, Range.representable_iff,
    Anchor.representable_iff, Anchor.plain, Predecessor.representable_iff,
    Classes.representable_iff, Diagnostic.representable_iff, SynthesizedNode.representable_iff,
    Span.Representable, NodeId.Representable, Span.upTo, offsetBound]

theorem readsBack_holedArray_quotedName :
    Fixture.holedArray.Representable ∧ Alignment.quotedName.Representable ∧
      Fixture.ofJson? Fixture.holedArray.toJson = some .holedArray ∧
      Alignment.ofJson? Alignment.quotedName.toJson = some .quotedName := by
  obtain ⟨-, -, -, -, -, -, -, -, hAlignment, hFixture⟩ := readsBack_of_representable
  exact ⟨Fixture.representable_holedArray, Alignment.representable_quotedName,
    hFixture _ Fixture.representable_holedArray, hAlignment _ Alignment.representable_quotedName⟩

end Retrace
