import Retrace.Proofs.Preorder
import Retrace.Proofs.Problems
import Retrace.Proofs.RangeSet

/-!
# Runs of an alignment

The range of a node takes its bounds in one of three ways (`Bounded`). An alignment
visits the output nodes one after the other, and `Progress.Visited` says all that
one visit can do: pass over a node without a link, list a node that was made up,
take in the range of a linked node, or refuse that range and report the conflict.
Every statement about whole alignments follows from these by `progress_induction`,
which also hands over the nodes visited so far.

The set of ranges of the result is what becomes of the ranges offered to it in the
order of the walk (`ranges_align`), so whatever is known of sets built by
insertions is known of it. Every diagnostic is made for a problem of a rule or for
a clash of two of those ranges (`caused_of_mem_align`).
-/

namespace Retrace

theorem mem_of_mem_eraseReps {anchors : List Anchor} {a : Anchor} (h : a ∈ anchors.eraseReps) :
    a ∈ anchors := by
  have hLoop : ∀ (rest kept : List Anchor) (last : Anchor),
      a ∈ List.eraseRepsBy.loop (· == ·) last rest kept → a = last ∨ a ∈ rest ∨ a ∈ kept := by
    intro rest
    induction rest with
    | nil =>
      intro kept last hMem
      simpa [List.eraseRepsBy.loop, or_comm] using hMem
    | cons next rest ih =>
      intro kept last hMem
      rw [List.eraseRepsBy.loop] at hMem
      split at hMem
      · rcases ih kept last hMem with h | h | h <;> simp [h]
      · rcases ih (last :: kept) next hMem with h | h | h
        · simp [h]
        · simp [h]
        · rcases List.mem_cons.mp h with h | h <;> simp [h]
  cases anchors with
  | nil => exact h
  | cons first rest => simpa using hLoop rest [] first h

namespace Anchor

theorem le_iff {a b : Anchor} :
    a.le b = true ↔ a.output < b.output ∨ a.output = b.output ∧ a.source ≤ b.source := by
  simp [le]

theorem le_trans (a b c : Anchor) (hab : a.le b = true) (hbc : b.le c = true) :
    a.le c = true := by
  rw [le_iff] at *
  omega

theorem le_total (a b : Anchor) : (a.le b || b.le a) = true := by
  rw [Bool.or_eq_true, le_iff, le_iff]
  omega

end Anchor

namespace Alignment

/-! ## The range of a node -/

theorem rangeOf?_eq_some_iff {options : Options} {input : AlignmentInput} {id : NodeId} {n : Node}
    {link : Link} {r : Range} {problems : List Problem} :
    rangeOf? options input id n link = some (r, problems) ↔
      ∃ hull, link.hull? = some hull ∧ ∃ source output outcome,
        bounds options hull n (pairing? input n link) = (source, output, outcome) ∧
          r = ⟨source, output, id, n.kind, settle source output outcome.anchors,
            link.predecessors, link.steps⟩ ∧
          problems = outcome.problems := by
  unfold rangeOf?
  simp only [Option.bind_eq_bind, Option.bind_eq_some_iff, Option.pure_def, Option.some.injEq,
    Prod.mk.injEq]
  constructor
  · rintro ⟨hull, hHull, rfl, rfl⟩
    exact ⟨hull, hHull, _, _, _, rfl, rfl, rfl⟩
  · rintro ⟨hull, hHull, source, output, outcome, hBounds, rfl, rfl⟩
    exact ⟨hull, hHull, by rw [hBounds], by rw [hBounds]⟩

/-- A link with predecessors has a hull, so its node has a range. -/
theorem exists_rangeOf? (options : Options) (input : AlignmentInput) (id : NodeId) (n : Node)
    {link : Link} (hLinked : link.isSynthesized = false) :
    ∃ r problems, rangeOf? options input id n link = some (r, problems) := by
  obtain ⟨predecessors, steps⟩ := link
  cases predecessors with
  | nil => simp [Link.isSynthesized] at hLinked
  | cons first rest =>
    exact ⟨_, _, rangeOf?_eq_some_iff.mpr ⟨_, rfl, _, _, _, rfl, rfl, rfl⟩⟩

theorem rangeOf?_node {options : Options} {input : AlignmentInput} {id : NodeId} {n : Node}
    {link : Link} {r : Range} {problems : List Problem}
    (h : rangeOf? options input id n link = some (r, problems)) : r.node = id := by
  obtain ⟨_, -, _, _, _, -, rfl, -⟩ := rangeOf?_eq_some_iff.mp h
  rfl

/-- What the bounds of a node can be: those of a node without a pairing, of one
without parentheses and of one with parentheses on both sides. -/
inductive Bounded (options : Options) (hull : Span) (n : Node) (pairing : Option Pairing) :
    Span → Span → Outcome → Prop where
  | unpaired (hPairing : pairing = none) :
    Bounded options hull n pairing hull n.span (.ofAnchors [])
  | plain {p : Pairing} (hPairing : pairing = some p) (hParens : parens? options p = none) :
    Bounded options hull n pairing hull n.span (p.align options)
  | widened {p : Pairing} {source output : Nat × Nat} (hPairing : pairing = some p)
    (hParens : parens? options p = some (source, output)) :
    Bounded options hull n pairing (hull.widen source) (n.span.widen output)
      ⟨(p.align options).anchors ++ [.plain source.1 output.1, .plain source.2 output.2],
        (p.align options).problems⟩

theorem bounded_of_bounds {options : Options} {hull source output : Span} {n : Node}
    {pairing : Option Pairing} {outcome : Outcome}
    (h : bounds options hull n pairing = (source, output, outcome)) :
    Bounded options hull n pairing source output outcome := by
  cases pairing with
  | none =>
    cases h
    exact .unpaired rfl
  | some p =>
    cases hParens : parens? options p with
    | none =>
      simp only [bounds, hParens] at h
      cases h
      exact .plain rfl hParens
    | some parens =>
      simp only [bounds, hParens] at h
      cases h
      exact .widened rfl hParens

/-- Settling anchors only leaves out some of them. -/
theorem mem_of_mem_settle {source output : Span} {anchors : List Anchor} {a : Anchor}
    (h : a ∈ settle source output anchors) :
    a ∈ anchors ∧ source.contains a.source = true ∧ output.contains a.output = true := by
  have hSorted := mem_of_mem_eraseReps h
  rw [List.mem_mergeSort, List.mem_filter, Bool.and_eq_true] at hSorted
  exact hSorted

/-- Anchors in strict order are what settling makes of them in any order. -/
theorem settle_eq_of_perm {source output : Span} {anchors settled : List Anchor}
    (hPerm : (anchors.filter fun a => source.contains a.source && output.contains a.output).Perm
      settled)
    (hStrict : settled.Pairwise fun a b => a.le b = true ∧ b.le a = false)
    (hReps : settled.eraseReps = settled) : settle source output anchors = settled := by
  have hTied : settled.Pairwise fun a b => a.le b = true → b.le a = true → a = b := by
    refine hStrict.imp ?_
    rintro a b ⟨-, hNotBack⟩ - hBack
    rw [hNotBack] at hBack
    cases hBack
  have hSame := List.Pairwise.forall_of_forall_of_flip (fun _ _ _ _ => rfl) hTied
    (hTied.imp fun h hBack hForth => (h hForth hBack).symm)
  have hMerged := (List.mergeSort_perm _ Anchor.le).trans hPerm
  have hSorted := List.Perm.eq_of_pairwise
    (fun a b ha hb hForth hBack => hSame (hMerged.subset ha) hb hForth hBack)
    (List.pairwise_mergeSort Anchor.le_trans Anchor.le_total _) (hStrict.imp And.left) hMerged
  rw [settle, hSorted, hReps]

/-- The range of a node whose rule leaves `anchors`, given what is left of them in order. -/
theorem rangeOf?_of_settled {options : Options} {input : AlignmentInput} {id : NodeId} {n : Node}
    {link : Link} {hull source output : Span} {settled : List Anchor} {problems : List Problem}
    (anchors : List Anchor) (hHull : link.hull? = some hull)
    (hBounds : bounds options hull n (pairing? input n link) =
      (source, output, ⟨anchors, problems⟩))
    (hPerm : (anchors.filter fun a => source.contains a.source && output.contains a.output).Perm
      settled)
    (hStrict : settled.Pairwise fun a b => a.le b = true ∧ b.le a = false)
    (hReps : settled.eraseReps = settled) :
    rangeOf? options input id n link =
      some (⟨source, output, id, n.kind, settled, link.predecessors, link.steps⟩, problems) := by
  refine rangeOf?_eq_some_iff.mpr ⟨hull, hHull, source, output, _, hBounds, ?_, rfl⟩
  rw [settle_eq_of_perm hPerm hStrict hReps]

theorem pairing?_eq_some_iff {input : AlignmentInput} {n : Node} {link : Link} {p : Pairing} :
    pairing? input n link = some p ↔
      ∃ predecessor id source, link.sole? = some predecessor ∧ predecessor.node = some id ∧
        input.sourceTree.node? id = some source ∧
        p = ⟨⟨input.source, input.sourceTree, source⟩, ⟨input.output, input.outputTree, n⟩⟩ := by
  unfold pairing?
  simp only [Option.bind_eq_bind, Option.bind_eq_some_iff, Option.pure_def, Option.some.injEq]
  constructor
  · rintro ⟨predecessor, hSole, id, hId, source, hSource, rfl⟩
    exact ⟨predecessor, id, source, hSole, hId, hSource, rfl⟩
  · rintro ⟨predecessor, id, source, hSole, hId, hSource, rfl⟩
    exact ⟨predecessor, hSole, id, hId, source, hSource, rfl⟩

theorem parens?_eq_some_iff {options : Options} {p : Pairing} {source output : Nat × Nat} :
    parens? options p = some (source, output) ↔
      (options.parentheses && p.source.node.parenthesized && p.output.node.parenthesized) = true ∧
        p.source.text.wrappingParens? p.source.node.span = some source ∧
        p.output.text.wrappingParens? p.output.node.span = some output := by
  unfold parens?
  split
  · rename_i hBoth
    simp [hBoth, Option.bind_eq_some_iff]
  · rename_i hNot
    simp [hNot]

/-- Where parentheses are not looked at, a range joins the hull of the predecessors
and the span of the node. -/
theorem spans_of_rangeOf? {options : Options} {input : AlignmentInput} {id : NodeId} {n : Node}
    {link : Link} {r : Range} {problems : List Problem} (hParens : options.parentheses = false)
    (h : rangeOf? options input id n link = some (r, problems)) :
    link.hull? = some r.source ∧ r.output = n.span := by
  obtain ⟨hull, hHull, source, output, outcome, hBounds, rfl, -⟩ := rangeOf?_eq_some_iff.mp h
  cases bounded_of_bounds hBounds with
  | unpaired _ => exact ⟨hHull, rfl⟩
  | plain _ _ => exact ⟨hHull, rfl⟩
  | widened _ hFound =>
    obtain ⟨hOn, -⟩ := parens?_eq_some_iff.mp hFound
    simp [hParens] at hOn

/-- The problems of a range are those of the rule for its pairing. -/
theorem problem_of_rangeOf? {options : Options} {input : AlignmentInput} {id : NodeId} {n : Node}
    {link : Link} {r : Range} {problems : List Problem} {problem : Problem}
    (h : rangeOf? options input id n link = some (r, problems)) (hProblem : problem ∈ problems) :
    ∃ p, pairing? input n link = some p ∧ problem ∈ (p.align options).problems := by
  obtain ⟨hull, -, source, output, outcome, hBounds, -, rfl⟩ := rangeOf?_eq_some_iff.mp h
  cases bounded_of_bounds hBounds with
  | unpaired _ => cases hProblem
  | plain hPairing _ => exact ⟨_, hPairing, hProblem⟩
  | widened hPairing _ => exact ⟨_, hPairing, hProblem⟩

/-! ## One visit -/

/-- The diagnostics about the problems of a rule. -/
def reports (options : Options) (n : Node) (link : Link) (r : Range) (problems : List Problem) :
    List Diagnostic :=
  problems.filterMap fun problem => report? options r (findingOf n link problem)

theorem finding_of_report? {options : Options} {r : Range} {finding : Finding} {d : Diagnostic}
    (h : report? options r finding = some d) : d.finding = finding := by
  obtain ⟨severity, -, rfl⟩ := Option.map_eq_some_iff.mp h
  rfl

/-- What the visit of a node makes of the progress before it. -/
inductive Progress.Visited (options : Options) (input : AlignmentInput) (before : Progress)
    (id : NodeId) : Progress → Prop where
  | unlinked (hNone : input.outputTree.node? id = none ∨ input.provenance.get? id = none) :
    Visited options input before id before
  | madeUp {n : Node} {link : Link} (hNode : input.outputTree.node? id = some n)
    (hLink : input.provenance.get? id = some link) (hMadeUp : link.isSynthesized = true) :
    Visited options input before id
      ⟨before.ranges, before.diagnostics,
        before.synthesized ++ [⟨id, n.kind, n.span, link.steps⟩]⟩
  | taken {n : Node} {link : Link} {r : Range} {problems : List Problem} {ranges : RangeSet}
    (hNode : input.outputTree.node? id = some n)
    (hLink : input.provenance.get? id = some link) (hLinked : link.isSynthesized = false)
    (hRange : rangeOf? options input id n link = some (r, problems))
    (hInsert : before.ranges.insert r = .ok ranges) :
    Visited options input before id
      ⟨ranges, before.diagnostics ++ reports options n link r problems, before.synthesized⟩
  | refused {n : Node} {link : Link} {r : Range} {problems : List Problem} {conflict : Conflict}
    (hNode : input.outputTree.node? id = some n)
    (hLink : input.provenance.get? id = some link) (hLinked : link.isSynthesized = false)
    (hRange : rangeOf? options input id n link = some (r, problems))
    (hInsert : before.ranges.insert r = .error conflict) :
    Visited options input before id
      ⟨before.ranges,
        before.diagnostics ++ reports options n link r problems ++
          (report? options r (.ambiguousStructure conflict.message)).toList,
        before.synthesized⟩

theorem Progress.visit_spec (options : Options) (input : AlignmentInput) (before : Progress)
    (id : NodeId) : Visited options input before id (before.visit options input id) := by
  unfold Progress.visit
  cases hNode : input.outputTree.node? id with
  | none => exact .unlinked (Or.inl hNode)
  | some n =>
    cases hLink : input.provenance.get? id with
    | none => exact .unlinked (Or.inr hLink)
    | some link =>
      simp only [visitLinked]
      cases hMadeUp : link.isSynthesized with
      | true => exact .madeUp hNode hLink hMadeUp
      | false =>
        obtain ⟨r, problems, hRange⟩ := exists_rangeOf? options input id n hMadeUp
        simp only [hRange, Bool.false_eq_true, if_false, splice]
        cases hInsert : before.ranges.insert r with
        | ok ranges => exact .taken hNode hLink hMadeUp hRange hInsert
        | error conflict => exact .refused hNode hLink hMadeUp hRange hInsert

/-- A visit that takes the range of its node in. -/
theorem Progress.visit_of_insert {options : Options} {input : AlignmentInput} {before : Progress}
    {id : NodeId} {n : Node} {link : Link} {r : Range} {problems : List Problem} {ranges : RangeSet}
    (hNode : input.outputTree.node? id = some n) (hLink : input.provenance.get? id = some link)
    (hLinked : link.isSynthesized = false)
    (hRange : rangeOf? options input id n link = some (r, problems))
    (hInsert : before.ranges.insert r = .ok ranges) :
    before.visit options input id =
      ⟨ranges, before.diagnostics ++ reports options n link r problems, before.synthesized⟩ := by
  simp only [visit, hNode, hLink, visitLinked, hLinked, Bool.false_eq_true, if_false, hRange,
    splice, hInsert]
  rfl

/-! ## Whole runs -/

/-- What holds before the first visit and is kept by every visit holds of the
whole run. The list is that of the nodes visited so far. -/
theorem progress_induction (options : Options) (input : AlignmentInput)
    (P : List NodeId → Progress → Prop) (start : P [] ⟨.empty, [], []⟩)
    (step : ∀ done id rest before after, input.outputTree.preorder = done ++ id :: rest →
      P done before → Progress.Visited options input before id after → P (done ++ [id]) after) :
    P input.outputTree.preorder (progress options input) := by
  have hRun : ∀ todo done before, input.outputTree.preorder = done ++ todo → P done before →
      P input.outputTree.preorder (todo.foldl (Progress.visit options input) before) := by
    intro todo
    induction todo with
    | nil =>
      intro done before hOrder hBefore
      rw [hOrder, List.append_nil]
      exact hBefore
    | cons id rest ih =>
      intro done before hOrder hBefore
      refine ih (done ++ [id]) _ (by simpa using hOrder) ?_
      exact step done id rest before _ hOrder hBefore (Progress.visit_spec options input before id)
  exact hRun _ [] _ rfl start

/-! ## The ranges of the result -/

/-- The range that is offered for a node: none if the node has no link or was made
up. -/
def candidate? (options : Options) (input : AlignmentInput) (id : NodeId) : Option Range := do
  let n ← input.outputTree.node? id
  let link ← input.provenance.get? id
  let (r, _) ← rangeOf? options input id n link
  return r

/-- The ranges that are offered to the set, in the order of the walk. -/
def candidates (options : Options) (input : AlignmentInput) : List Range :=
  input.outputTree.preorder.filterMap (candidate? options input)

theorem candidate?_eq_some_iff {options : Options} {input : AlignmentInput} {id : NodeId}
    {r : Range} :
    candidate? options input id = some r ↔
      ∃ n link problems, input.outputTree.node? id = some n ∧
        input.provenance.get? id = some link ∧
        rangeOf? options input id n link = some (r, problems) := by
  unfold candidate?
  simp only [Option.bind_eq_bind, Option.bind_eq_some_iff, Option.pure_def, Option.some.injEq]
  constructor
  · rintro ⟨n, hNode, link, hLink, ⟨_, problems⟩, hRange, rfl⟩
    exact ⟨n, link, problems, hNode, hLink, hRange⟩
  · rintro ⟨n, link, problems, hNode, hLink, hRange⟩
    exact ⟨n, hNode, link, hLink, (r, problems), hRange, rfl⟩

theorem candidate?_node {options : Options} {input : AlignmentInput} {id : NodeId} {r : Range}
    (h : candidate? options input id = some r) : r.node = id := by
  obtain ⟨_, _, _, -, -, hRange⟩ := candidate?_eq_some_iff.mp h
  exact rangeOf?_node hRange

theorem exists_candidate? (options : Options) {input : AlignmentInput} {id : NodeId} {link : Link}
    (hId : id ∈ input.outputTree.preorder) (hLink : input.provenance.get? id = some link)
    (hLinked : link.predecessors ≠ []) : ∃ r, candidate? options input id = some r := by
  obtain ⟨-, n, hNode⟩ := Tree.mem_preorder_iff.mp hId
  have hNotMadeUp : link.isSynthesized = false := by simpa [Link.isSynthesized] using hLinked
  obtain ⟨r, problems, hRange⟩ := exists_rangeOf? options input id n hNotMadeUp
  exact ⟨r, candidate?_eq_some_iff.mpr ⟨n, link, problems, hNode, hLink, hRange⟩⟩

theorem link_of_candidate? {options : Options} {input : AlignmentInput} {id : NodeId} {r : Range}
    (h : candidate? options input id = some r) :
    ∃ link, input.provenance.get? id = some link ∧ link.predecessors ≠ [] := by
  obtain ⟨n, link, problems, -, hLink, hRange⟩ := candidate?_eq_some_iff.mp h
  obtain ⟨hull, hHull, -⟩ := rangeOf?_eq_some_iff.mp hRange
  refine ⟨link, hLink, ?_⟩
  intro hEmpty
  simp [Link.hull?, hEmpty, Span.hull] at hHull

/-- Each node is offered one range at most. -/
theorem map_node_candidates (options : Options) (input : AlignmentInput) :
    (candidates options input).map (·.node) =
      input.outputTree.preorder.filter fun id => (candidate? options input id).isSome := by
  unfold candidates
  induction input.outputTree.preorder with
  | nil => rfl
  | cons id rest ih =>
    cases hCandidate : candidate? options input id with
    | none => simp [hCandidate, ih]
    | some r => simp [hCandidate, ih, candidate?_node hCandidate]

theorem countP_node_eq (ranges : List Range) (id : NodeId) :
    ranges.countP (fun r => r.node = id) = (ranges.map (·.node)).count id := by
  rw [List.count, List.countP_map]
  rfl

theorem countP_node_candidates (options : Options) (input : AlignmentInput) (id : NodeId) :
    (candidates options input).countP (fun r => r.node = id) =
      if id ∈ input.outputTree.preorder ∧ (candidate? options input id).isSome = true
        then 1 else 0 := by
  have hNodup : (input.outputTree.preorder.filter fun id =>
      (candidate? options input id).isSome).Nodup :=
    List.Pairwise.filter _ input.outputTree.nodup_preorder
  rw [countP_node_eq, map_node_candidates, List.Nodup.count hNodup]
  simp only [List.mem_filter]

/-- A visit offers the range of its node to the set, if there is one. -/
theorem Progress.Visited.ranges_eq {options : Options} {input : AlignmentInput}
    {before after : Progress} {id : NodeId} (h : Visited options input before id after) :
    after.ranges =
      (candidate? options input id).toList.foldl RangeSet.afterInsert before.ranges := by
  cases h with
  | unlinked hNone =>
    have hCandidate : candidate? options input id = none := by
      unfold candidate?
      rcases hNone with h | h <;> simp [h]
    simp [hCandidate]
  | @madeUp n link hNode hLink hMadeUp =>
    have hCandidate : candidate? options input id = none := by
      have hHull : link.hull? = none := by
        simp only [Link.isSynthesized, List.isEmpty_iff] at hMadeUp
        simp [Link.hull?, hMadeUp, Span.hull]
      simp [candidate?, hNode, hLink, rangeOf?, hHull]
    simp [hCandidate]
  | taken hNode hLink _ hRange hInsert =>
    simp [candidate?_eq_some_iff.mpr ⟨_, _, _, hNode, hLink, hRange⟩, RangeSet.afterInsert,
      hInsert]
  | refused hNode hLink _ hRange hInsert =>
    simp [candidate?_eq_some_iff.mpr ⟨_, _, _, hNode, hLink, hRange⟩, RangeSet.afterInsert,
      hInsert]

/-- The set of the result is what becomes of the candidates, inserted one after the
other. -/
theorem ranges_align (options : Options) (input : AlignmentInput) :
    (align options input).ranges = RangeSet.afterInserts (candidates options input) := by
  refine progress_induction options input
    (fun done p => p.ranges = RangeSet.afterInserts (done.filterMap (candidate? options input)))
    rfl ?_
  intro done id rest before after _ hBefore hVisited
  rw [hVisited.ranges_eq, hBefore]
  cases hCandidate : candidate? options input id <;>
    simp [RangeSet.afterInserts, List.filterMap_append, hCandidate]

/-- Candidates that can all stand together are all taken in. -/
theorem perm_candidates {options : Options} {input : AlignmentInput}
    (h : ∀ a ∈ candidates options input, ∀ b ∈ candidates options input, a.Compatible b) :
    (align options input).ranges.ranges.Perm (candidates options input) := by
  have hTaken : RangeSet.empty.takenFrom (candidates options input) = candidates options input :=
    RangeSet.takenFrom_eq_self (by simp [RangeSet.empty]) h
  have hMembers := (RangeSet.invariant_afterInserts (candidates options input)).members
  rwa [hTaken, ← ranges_align] at hMembers

/-- Every range of the result is the range of its node. -/
theorem exists_rangeOf?_of_mem {options : Options} {input : AlignmentInput} {r : Range}
    (h : r ∈ (align options input).ranges.ranges) :
    ∃ n link problems, input.outputTree.node? r.node = some n ∧
      input.provenance.get? r.node = some link ∧
      rangeOf? options input r.node n link = some (r, problems) := by
  rw [ranges_align] at h
  obtain ⟨id, -, hCandidate⟩ := List.mem_filterMap.mp (RangeSet.mem_of_mem_afterInserts h)
  rw [← candidate?_node hCandidate] at hCandidate
  exact candidate?_eq_some_iff.mp hCandidate

theorem mem_preorder_of_mem_align {options : Options} {input : AlignmentInput} {r : Range}
    (h : r ∈ (align options input).ranges.ranges) : r.node ∈ input.outputTree.preorder := by
  rw [ranges_align] at h
  obtain ⟨id, hId, hCandidate⟩ := List.mem_filterMap.mp (RangeSet.mem_of_mem_afterInserts h)
  rwa [candidate?_node hCandidate]

/-! ## The diagnostics of the result -/

/-- What a diagnostic is made for: a problem of the rule for a node, or a clash of
two candidates. -/
inductive Caused (options : Options) (input : AlignmentInput) (d : Diagnostic) : Prop where
  | rule {id : NodeId} {n : Node} {link : Link} {r : Range} {problems : List Problem}
    (hNode : input.outputTree.node? id = some n)
    (hLink : input.provenance.get? id = some link)
    (hRange : rangeOf? options input id n link = some (r, problems))
    (hReport : d ∈ reports options n link r problems)
  | clash {r existing : Range} {c : Conflict} (hNew : r ∈ candidates options input)
    (hExisting : existing ∈ candidates options input) (hClash : r.Clash existing c)
    (hReport : report? options r (.ambiguousStructure c.message) = some d)

/-- The ranges and the diagnostics so far all come from candidates. -/
structure Progress.Accounted (options : Options) (input : AlignmentInput) (p : Progress) :
    Prop where
  ranges : ∀ r ∈ p.ranges.ranges, r ∈ candidates options input
  diagnostics : ∀ d ∈ p.diagnostics, Caused options input d

theorem Progress.Accounted.visited {options : Options} {input : AlignmentInput}
    {before after : Progress} {id : NodeId} (h : before.Accounted options input)
    (hId : id ∈ input.outputTree.preorder) (hVisited : Visited options input before id after) :
    after.Accounted options input := by
  cases hVisited with
  | unlinked _ => exact h
  | madeUp _ _ _ => exact ⟨h.ranges, h.diagnostics⟩
  | taken hNode hLink _ hRange hInsert =>
    have hCandidate := candidate?_eq_some_iff.mpr ⟨_, _, _, hNode, hLink, hRange⟩
    refine ⟨fun e he => ?_, List.forall_mem_append.mpr ⟨h.diagnostics, ?_⟩⟩
    · rcases RangeSet.mem_of_insert hInsert he with rfl | hOld
      · exact List.mem_filterMap.mpr ⟨id, hId, hCandidate⟩
      · exact h.ranges e hOld
    · intro d hd
      exact .rule hNode hLink hRange hd
  | refused hNode hLink _ hRange hInsert =>
    have hCandidate := candidate?_eq_some_iff.mpr ⟨_, _, _, hNode, hLink, hRange⟩
    obtain ⟨front, existing, back, hRanges, -, hClash⟩ := RangeSet.insert_eq_error_iff.mp hInsert
    have hExisting : existing ∈ before.ranges.ranges := by simp [hRanges]
    refine ⟨h.ranges, List.forall_mem_append.mpr
      ⟨List.forall_mem_append.mpr ⟨h.diagnostics, ?_⟩, ?_⟩⟩
    · intro d hd
      exact .rule hNode hLink hRange hd
    · intro d hd
      exact .clash (List.mem_filterMap.mpr ⟨id, hId, hCandidate⟩) (h.ranges _ hExisting) hClash
        (Option.mem_toList.mp hd)

theorem caused_of_mem_align {options : Options} {input : AlignmentInput} {d : Diagnostic}
    (h : d ∈ (align options input).diagnostics) : Caused options input d := by
  have hRun : (progress options input).Accounted options input := by
    refine progress_induction options input (fun _ p => p.Accounted options input)
      ⟨by simp [RangeSet.empty], by simp⟩ ?_
    intro done id rest before after hOrder hBefore hVisited
    exact hBefore.visited (by simp [hOrder]) hVisited
  exact hRun.diagnostics d h

/-- Where candidates can all stand together, no diagnostic has the wording of a
conflict: no rule reports anything that reads like one. -/
theorem finding_ne_message {options : Options} {input : AlignmentInput}
    (hCompatible : ∀ a ∈ candidates options input, ∀ b ∈ candidates options input,
      a.Compatible b)
    {d : Diagnostic} (h : d ∈ (align options input).diagnostics) (c : Conflict) :
    d.finding ≠ .ambiguousStructure c.message := by
  cases caused_of_mem_align h with
  | clash hNew hExisting hClash _ =>
    exact absurd (hCompatible _ hNew _ hExisting) (Range.exists_clash_iff.mp ⟨_, hClash⟩)
  | rule _ _ hRange hReport =>
    obtain ⟨problem, hProblem, hSome⟩ := List.mem_filterMap.mp hReport
    obtain ⟨p, -, hRule⟩ := problem_of_rangeOf? hRange hProblem
    rw [finding_of_report? hSome]
    rcases Pairing.problem_of_mem_align hRule with rfl | ⟨i, rfl⟩
    · simp [findingOf]
    · intro hEqual
      exact sparseReason_ne_message i c (Finding.ambiguousStructure.inj hEqual)

end Alignment

end Retrace
