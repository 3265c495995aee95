import Retrace.Proofs.Truthful.Rules
import Retrace.Proofs.TwoRuns

/-!
# Anchors of unchanged leaves

Whether unchanged leaves are anchored is read in one place, `Rule.identity`, and a
rule comes there only if the two nodes are leaves of one kind with the same text. So
the rules give the same outcome with the anchors of leaves and without, or the
pairing is such a leaf, and then the one outcome is empty and the other one has plain
anchors only (`Rule.dropped_sameKind`). In particular no rule goes on to look at
quotes, slashes or digits of a leaf because its anchors were switched off.

The rest is about what happens to a sublist of the anchors of a range. Those outside
of its spans are left out, the others are sorted and repetitions are removed, and
each of these steps takes sublists to sublists: a stable sort puts a new anchor
somewhere among the others and moves none of these, and dropping repetitions keeps
one anchor of every run. The classes of the bytes depend on the anchors only through
their substitutions, which plain anchors do not have.
-/

namespace Retrace

/-! ## Sorted sublists -/

section

variable {α : Type} {le : α → α → Bool}

/-- A stable sort puts the first entry of a list in front of those that are not
before it. -/
theorem mergeSort_cons_eq (hTrans : ∀ a b c, le a b = true → le b c = true → le a c = true)
    (hTotal : ∀ a b, (le a b || le b a) = true) (a : α) (xs : List α) :
    (a :: xs).mergeSort le =
      (xs.mergeSort le).filter (fun b => !le a b) ++ a :: (xs.mergeSort le).filter (le a) := by
  obtain ⟨front, back, hSort, hRest, hFront⟩ := List.mergeSort_cons hTrans hTotal a xs
  have hSorted := List.pairwise_mergeSort hTrans hTotal (a :: xs)
  rw [hSort, List.pairwise_append, List.pairwise_cons] at hSorted
  have hBack : ∀ b ∈ back, le a b = true := hSorted.2.1.1
  have hFrontNot : ∀ b ∈ front, le a b = false := by
    intro b hb
    simpa using hFront b hb
  have hLeft : (front ++ back).filter (fun b => !le a b) = front := by
    rw [List.filter_append, List.filter_eq_self.mpr hFront,
      List.filter_eq_nil_iff.mpr (by simpa using hBack), List.append_nil]
  have hRight : (front ++ back).filter (le a) = back := by
    rw [List.filter_append, List.filter_eq_nil_iff.mpr (by simpa using hFrontNot),
      List.filter_eq_self.mpr hBack, List.nil_append]
  rw [hSort, hRest, hLeft, hRight]

theorem sublist_mergeSort_of_sublist
    (hTrans : ∀ a b c, le a b = true → le b c = true → le a c = true)
    (hTotal : ∀ a b, (le a b || le b a) = true) {xs ys : List α} (h : xs.Sublist ys) :
    (xs.mergeSort le).Sublist (ys.mergeSort le) := by
  induction h with
  | slnil => exact List.Sublist.refl _
  | @cons xs ys a _ ih =>
    obtain ⟨front, back, hSort, hRest, -⟩ := List.mergeSort_cons hTrans hTotal a ys
    rw [hSort]
    rw [hRest] at ih
    exact ih.trans ((List.sublist_cons_self a back).append_left front)
  | @cons_cons xs ys a _ ih =>
    -- both sorts put `a` where it cuts the sorted rest in two
    rw [mergeSort_cons_eq hTrans hTotal, mergeSort_cons_eq hTrans hTotal]
    exact (ih.filter _).append ((ih.filter _).cons_cons a)

end

/-! ## Repetitions -/

/-- The anchors that differ from the one before them, given the one before the
first. -/
def dropRepeats : Option Anchor → List Anchor → List Anchor
  | _, [] => []
  | last, a :: rest =>
    if last = some a then dropRepeats last rest else a :: dropRepeats (some a) rest

theorem eraseReps_eq_dropRepeats (anchors : List Anchor) :
    anchors.eraseReps = dropRepeats none anchors := by
  have hLoop : ∀ (rest kept : List Anchor) (last : Anchor),
      List.eraseRepsBy.loop (· == ·) last rest kept =
        kept.reverse ++ last :: dropRepeats (some last) rest := by
    intro rest
    induction rest with
    | nil =>
      intro kept last
      simp [List.eraseRepsBy.loop, dropRepeats]
    | cons a rest ih =>
      intro kept last
      by_cases hSame : last = a
      · simp [List.eraseRepsBy.loop, dropRepeats, hSame, ih]
      · have hNot : (last == a) = false := beq_eq_false_iff_ne.mpr hSame
        simp [List.eraseRepsBy.loop, dropRepeats, hSame, hNot, ih]
  cases anchors with
  | nil => rfl
  | cons a rest => simpa [List.eraseReps, List.eraseRepsBy, dropRepeats] using hLoop rest [] a

/-- An anchor in front stands in for the first of those that repeat it. -/
theorem dropRepeats_sublist_cons (last : Option Anchor) (a : Anchor) (anchors : List Anchor) :
    (dropRepeats last anchors).Sublist (a :: dropRepeats (some a) anchors) := by
  cases anchors with
  | nil => exact List.nil_sublist _
  | cons b rest =>
    have hCons : (dropRepeats last (b :: rest)).Sublist (b :: dropRepeats (some b) rest) := by
      rw [dropRepeats]
      split_ifs with hLast
      · rw [hLast]
        exact List.sublist_cons_self _ _
      · exact List.Sublist.refl _
    by_cases hSame : a = b
    · subst hSame
      rwa [dropRepeats.eq_2 (some a), if_pos rfl]
    · rw [dropRepeats.eq_2 (some a), if_neg (by simpa using hSame)]
      exact hCons.cons a

theorem dropRepeats_sublist {xs ys : List Anchor} (h : xs.Sublist ys) (last : Option Anchor) :
    (dropRepeats last xs).Sublist (dropRepeats last ys) := by
  induction h generalizing last with
  | slnil => exact List.Sublist.refl _
  | @cons xs ys a _ ih =>
    rw [dropRepeats]
    split_ifs
    · exact ih last
    · exact (dropRepeats_sublist_cons last a xs).trans ((ih (some a)).cons_cons a)
  | @cons_cons xs ys a _ ih =>
    simp only [dropRepeats]
    split_ifs
    · exact ih last
    · exact (ih (some a)).cons_cons a

/-- Settling respects sublists. -/
theorem Alignment.settle_sublist {xs ys : List Anchor} (h : xs.Sublist ys)
    (source output : Span) : (settle source output xs).Sublist (settle source output ys) := by
  unfold settle
  rw [eraseReps_eq_dropRepeats, eraseReps_eq_dropRepeats]
  apply dropRepeats_sublist
  exact sublist_mergeSort_of_sublist Anchor.le_trans Anchor.le_total (h.filter _)

/-! ## The rules with and without the anchors of leaves -/

/-- The options with unchanged leaves anchored. -/
def Options.withLeaves (o : Options) : Options := { o with identityLeaves := true }

/-- The options with unchanged leaves not anchored. -/
def Options.withoutLeaves (o : Options) : Options := { o with identityLeaves := false }

/-- No anchor is a substitution. -/
def Plain (anchors : List Anchor) : Prop := ∀ a ∈ anchors, a.substitution = none

/-- The two nodes are leaves of one kind with the same text. -/
structure Pairing.SameLeaf (p : Pairing) : Prop where
  kind : p.source.node.kind = p.output.node.kind
  leaf : p.output.node.kind.isLeaf = true
  text : Rule.sameText p = true

/-- What a pairing gives without the anchors of leaves, and with them: no other
problems, and no other anchors unless the pairing is an unchanged leaf. -/
structure Dropped (p : Pairing) (off on : Outcome) : Prop where
  problems : off.problems = on.problems
  anchors : off.anchors = on.anchors ∨ off.anchors = [] ∧ Plain on.anchors ∧ p.SameLeaf

namespace Rule

theorem plain_run (p : Pairing) (s o length : Nat) : Plain (p.run s o length) := by
  intro a ha
  unfold Pairing.run at ha
  split at ha
  · split_ifs at ha
    · obtain ⟨_, -, rfl⟩ := List.mem_map.mp ha
      rfl
    · cases ha
  · cases ha

theorem plain_identity (o : Options) (p : Pairing) : Plain (identity o p) := by
  unfold identity
  split
  · exact plain_run p _ _ _
  · intro a ha
    cases ha

/-- A rule that starts with the identity of leaves. What it does with a text that has
changed does not depend on whether leaves are anchored. -/
theorem dropped_identity (o : Options) {p : Pairing}
    (hKind : p.source.node.kind = p.output.node.kind)
    (hLeaf : p.output.node.kind.isLeaf = true) (changed : List Anchor) :
    Dropped p (.ofAnchors (if sameText p then identity o.withoutLeaves p else changed))
      (.ofAnchors (if sameText p then identity o.withLeaves p else changed)) := by
  refine ⟨rfl, ?_⟩
  by_cases hText : sameText p = true
  · rw [if_pos hText, if_pos hText]
    exact Or.inr ⟨rfl, plain_identity o.withLeaves p, hKind, hLeaf, hText⟩
  · rw [if_neg hText, if_neg hText]
    exact Or.inl rfl

theorem dropped_sameKind (o : Options) {p : Pairing} {kind : Kind}
    (hSource : p.source.node.kind = kind) (hOutput : p.output.node.kind = kind)
    (s t : Payload kind) :
    Dropped p (sameKind o.withoutLeaves p kind s t) (sameKind o.withLeaves p kind s t) := by
  have hKind := hSource.trans hOutput.symm
  cases kind
  case identifier | numericLiteral | bigIntLiteral | stringLiteral | booleanLiteral | nullLiteral |
      regExpLiteral | templateElement | thisExpression | super | emptyStatement |
      debuggerStatement | jsxIdentifier | jsxText =>
    exact dropped_identity o hKind (by rw [hOutput]; rfl) _
  all_goals exact ⟨rfl, Or.inl rfl⟩

end Rule

theorem Pairing.dropped_align (p : Pairing) (o : Options) :
    Dropped p (p.align o.withoutLeaves) (p.align o.withLeaves) := by
  unfold Pairing.align Rule.outcome
  split_ifs with hProgram hKind
  · exact ⟨rfl, Or.inl rfl⟩
  · exact Rule.dropped_sameKind o hKind rfl _ _
  · exact ⟨rfl, Or.inl rfl⟩

/-! ## Ranges with and without the anchors of leaves -/

namespace Alignment

/-- The range of a leaf whose only predecessor is a leaf of the same kind with the
same text. -/
def IsSameLeaf (input : AlignmentInput) (r : Range) : Prop :=
  ∃ predecessor id source n piece,
    r.predecessors = [predecessor] ∧ predecessor.node = some id ∧
      input.sourceTree.node? id = some source ∧ input.outputTree.node? r.node = some n ∧
      source.kind = n.kind ∧ n.kind.isLeaf = true ∧
      input.source.slice? source.span = some piece ∧ input.output.slice? n.span = some piece

/-- The range `off` is the range `on`, but for plain anchors of an unchanged leaf that
it may lack. -/
structure LeafAnchorsDropped (input : AlignmentInput) (off on : Range) : Prop where
  source : off.source = on.source
  output : off.output = on.output
  node : off.node = on.node
  outputKind : off.outputKind = on.outputKind
  predecessors : off.predecessors = on.predecessors
  steps : off.steps = on.steps
  sublist : off.anchors.Sublist on.anchors
  added : off.anchors ≠ on.anchors → Plain on.anchors ∧ IsSameLeaf input on

theorem sole?_eq_some_iff {link : Link} {predecessor : Predecessor} :
    link.sole? = some predecessor ↔ link.predecessors = [predecessor] := by
  unfold Link.sole?
  split <;> simp_all

/-- What `bounds` gives without the anchors of leaves, and with them. -/
theorem dropped_bounds (o : Options) (hull : Span) (n : Node) (pairing : Option Pairing) :
    ∃ source output off on,
      bounds o.withoutLeaves hull n pairing = (source, output, off) ∧
        bounds o.withLeaves hull n pairing = (source, output, on) ∧
        off.problems = on.problems ∧ off.anchors.Sublist on.anchors ∧
        (off.anchors = on.anchors ∨ Plain on.anchors ∧ ∃ p, pairing = some p ∧ p.SameLeaf) := by
  cases pairing with
  | none => exact ⟨_, _, _, _, rfl, rfl, rfl, List.Sublist.refl _, Or.inl rfl⟩
  | some p =>
    obtain ⟨hProblems, hAnchors⟩ := p.dropped_align o
    have hParens : parens? o.withoutLeaves p = parens? o.withLeaves p := rfl
    cases hFound : parens? o.withLeaves p with
    | none =>
      simp only [bounds, hParens, hFound]
      refine ⟨_, _, _, _, rfl, rfl, hProblems, ?_, ?_⟩
      · rcases hAnchors with hSame | ⟨hNone, -, -⟩
        · rw [hSame]
        · rw [hNone]
          exact List.nil_sublist _
      · refine hAnchors.imp_right ?_
        rintro ⟨-, hPlain, hLeaf⟩
        exact ⟨hPlain, p, rfl, hLeaf⟩
    | some parens =>
      -- the parentheses are anchored either way, behind the anchors of the rule
      simp only [bounds, hParens, hFound]
      refine ⟨_, _, _, _, rfl, rfl, hProblems, ?_, ?_⟩
      · rcases hAnchors with hSame | ⟨hNone, -, -⟩
        · rw [hSame]
        · rw [hNone]
          exact List.sublist_append_right _ _
      · rcases hAnchors with hSame | ⟨-, hPlain, hLeaf⟩
        · exact Or.inl (by rw [hSame])
        · refine Or.inr ⟨List.forall_mem_append.mpr ⟨hPlain, ?_⟩, p, rfl, hLeaf⟩
          simp [Anchor.plain]

theorem dropped_rangeOf? {o : Options} {input : AlignmentInput} {id : NodeId} {n : Node}
    {link : Link} {r : Range} {problems : List Problem}
    (hNode : input.outputTree.node? id = some n)
    (h : rangeOf? o.withoutLeaves input id n link = some (r, problems)) :
    ∃ s, rangeOf? o.withLeaves input id n link = some (s, problems) ∧
      LeafAnchorsDropped input r s := by
  obtain ⟨hull, hHull, source, output, off, hOff, rfl, rfl⟩ := rangeOf?_eq_some_iff.mp h
  obtain ⟨source', output', off', on, hOff', hOn, hProblems, hSublist, hLeaf⟩ :=
    dropped_bounds o hull n (pairing? input n link)
  obtain ⟨rfl, rfl, rfl⟩ : source' = source ∧ output' = output ∧ off' = off := by
    simpa [hOff'] using hOff
  rw [hProblems]
  refine ⟨_, rangeOf?_eq_some_iff.mpr ⟨hull, hHull, source', output', on, hOn, rfl, rfl⟩,
    rfl, rfl, rfl, rfl, rfl, rfl, settle_sublist hSublist _ _, ?_⟩
  intro hNe
  rcases hLeaf with hSame | ⟨hPlain, p, hPairing, hKind, hLeafKind, hText⟩
  · rw [hSame] at hNe
    exact absurd rfl hNe
  · refine ⟨fun a ha => hPlain a (mem_of_mem_settle ha).1, ?_⟩
    obtain ⟨predecessor, sourceId, s, hSole, hId, hSource, rfl⟩ := pairing?_eq_some_iff.mp hPairing
    obtain ⟨piece, hPiece, hOther⟩ := Rule.exists_slice_of_sameText hText
    exact ⟨predecessor, sourceId, s, n, piece, sole?_eq_some_iff.mp hSole, hId, hSource, hNode,
      hKind, hLeafKind, hPiece, hOther⟩

/-- The run without the anchors of leaves is in step with the run with them. -/
theorem inStep_leaves (o : Options) (input : AlignmentInput) :
    InStep o.withoutLeaves o.withLeaves input (LeafAnchorsDropped input) some where
  place := fun _ _ h => ⟨h.source, h.output, h.node⟩
  range := fun _ _ _ _ _ hNode _ hRange => dropped_rangeOf? hNode hRange
  report := by
    intro r s finding h
    have hLevel : o.withoutLeaves.level finding.code = o.withLeaves.level finding.code := by
      cases finding <;> rfl
    simp only [report?, h.source, h.output, h.node, hLevel, Option.bind_fun_some]

/-! ## Classes -/

section

variable {input : AlignmentInput} {xs ys : List Range}

theorem flatMap_eq_of_forall₂ {α β : Type} {R : α → α → Prop} {xs ys : List α} {f : α → List β}
    (h : List.Forall₂ R xs ys) (hf : ∀ a b, R a b → f a = f b) : xs.flatMap f = ys.flatMap f := by
  induction h with
  | nil => rfl
  | cons hHead _ ih => rw [List.flatMap_cons, List.flatMap_cons, hf _ _ hHead, ih]

theorem filterMap_replacement?_eq_nil {β : Type} {anchors : List Anchor} (h : Plain anchors)
    (f : Anchor → Char → β) :
    anchors.filterMap (fun a => a.replacement?.map (f a)) = [] := by
  rw [List.filterMap_eq_nil_iff]
  intro a ha
  simp [Anchor.replacement?, h a ha]

theorem hasNode_eq (h : List.Forall₂ (LeafAnchorsDropped input) xs ys) :
    RangeSet.hasNode ⟨xs⟩ = RangeSet.hasNode ⟨ys⟩ := by
  funext id
  simp only [RangeSet.hasNode]
  induction h with
  | nil => rfl
  | cons hHead _ ih => rw [List.any_cons, List.any_cons, hHead.node, ih]

/-- Only plain anchors are dropped, so the same characters are replaced. -/
theorem replacements_eq (h : List.Forall₂ (LeafAnchorsDropped input) xs ys) :
    RangeSet.replacements ⟨xs⟩ = RangeSet.replacements ⟨ys⟩ := by
  refine flatMap_eq_of_forall₂ h ?_
  intro off on hDropped
  by_cases hSame : off.anchors = on.anchors
  · rw [hSame]
  · have hPlain : Plain on.anchors := (hDropped.added hSame).1
    have hPlainOff : Plain off.anchors := fun a ha => hPlain a (hDropped.sublist.subset ha)
    rw [filterMap_replacement?_eq_nil hPlain, filterMap_replacement?_eq_nil hPlainOff]

theorem classes_eq (h : List.Forall₂ (LeafAnchorsDropped input) xs ys) (source output : Tree)
    (sourceSize outputSize : Nat) :
    Classes.ofRanges source output sourceSize outputSize ⟨xs⟩ =
      Classes.ofRanges source output sourceSize outputSize ⟨ys⟩ := by
  have hMapped : RangeSet.mappedNodes ⟨xs⟩ = RangeSet.mappedNodes ⟨ys⟩ :=
    flatMap_eq_of_forall₂ h fun _ _ hDropped => by rw [hDropped.predecessors]
  have hUnresolved : RangeSet.unresolvedSpans ⟨xs⟩ = RangeSet.unresolvedSpans ⟨ys⟩ :=
    flatMap_eq_of_forall₂ h fun _ _ hDropped => by rw [hDropped.predecessors]
  simp only [Classes.ofRanges, outputClassOf, hasNode_eq h, replacements_eq h, hMapped,
    hUnresolved]

end

/-- **Switching the anchors of leaves off drops such anchors and does nothing else.**
The diagnostics, the made-up nodes and the classes are the same. So are the ranges,
one by one, but for their anchors: those without the anchors of leaves are a sublist
of those with them, and where the two differ, the range is that of an unchanged leaf
and has plain anchors only. -/
theorem align_withoutLeaves (o : Options) (input : AlignmentInput) :
    (align o.withoutLeaves input).diagnostics = (align o.withLeaves input).diagnostics ∧
      (align o.withoutLeaves input).synthesized = (align o.withLeaves input).synthesized ∧
      (align o.withoutLeaves input).classes = (align o.withLeaves input).classes ∧
      List.Forall₂ (LeafAnchorsDropped input) (align o.withoutLeaves input).ranges.ranges
        (align o.withLeaves input).ranges.ranges := by
  have hRun := related_progress (inStep_leaves o input)
  refine ⟨?_, hRun.synthesized, classes_eq hRun.ranges _ _ _ _, hRun.ranges⟩
  have hDiagnostics := hRun.diagnostics
  rwa [List.filterMap_some] at hDiagnostics

end Alignment

end Retrace
