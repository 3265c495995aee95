import Retrace.Proofs.Run

/-!
# What becomes of every output node

An alignment looks at each node that can be reached from the root of the output
once, in the order of the walk. A node without a link leaves no trace. A node that
was made up is listed as such. A node with predecessors is offered one range, and
that range is in the result or clashes with the range of a node visited before it;
a clash is reported unless such reports are switched off. `Accounts` puts this
together, and it holds of every alignment.

The induction is over the nodes visited so far (`Progress.Settled`). A range that
was taken in stays in the set, so the range that an earlier node was refused for is
still there at the end.
-/

namespace Retrace

theorem RangeSet.Invariant.mem_insert_iff {taken : List Range} {s t : RangeSet} {r x : Range}
    (h : Invariant taken s) (hInsert : s.insert r = .ok t) :
    x ∈ t.ranges ↔ x = r ∨ x ∈ s.ranges := by
  have hAfter := (h.insert hInsert).members.mem_iff (a := x)
  have hBefore := h.members.mem_iff (a := x)
  rw [hAfter, hBefore, List.mem_append, List.mem_singleton, or_comm]

namespace Alignment

/-! ## Reports about a node -/

/-- The link of the node has no predecessors. -/
def isMadeUp (input : AlignmentInput) (id : NodeId) : Bool :=
  (input.provenance.get? id).any fun link => link.predecessors.isEmpty

theorem node_of_report? {options : Options} {r : Range} {finding : Finding} {d : Diagnostic}
    (h : report? options r finding = some d) : d.node = r.node := by
  obtain ⟨severity, -, rfl⟩ := Option.map_eq_some_iff.mp h
  rfl

theorem node_of_mem_reports {options : Options} {n : Node} {link : Link} {r : Range}
    {problems : List Problem} {d : Diagnostic} (h : d ∈ reports options n link r problems) :
    d.node = r.node := by
  obtain ⟨problem, -, hReport⟩ := List.mem_filterMap.mp h
  exact node_of_report? hReport

/-- A finding about an ambiguous structure is reported unless that is switched
off. -/
theorem exists_report? {options : Options} (hOn : options.ambiguousStructure ≠ .off) (r : Range)
    (reason : String) : ∃ d, report? options r (.ambiguousStructure reason) = some d := by
  have hSeverity : (options.ambiguousStructure).severity?.isSome = true := by
    cases hLevel : options.ambiguousStructure with
    | off => exact absurd hLevel hOn
    | info => rfl
    | warn => rfl
    | error => rfl
  obtain ⟨severity, hSome⟩ := Option.isSome_iff_exists.mp hSeverity
  refine ⟨_, Option.map_eq_some_iff.mpr ⟨severity, ?_, rfl⟩⟩
  exact hSome

/-! ## One visit and whole runs -/

/-- The range of a node clashes with one of `ranges` that belongs to an earlier node,
and the clash is among the diagnostics unless such reports are switched off. -/
def Refused (options : Options) (input : AlignmentInput) (ranges : List Range)
    (diagnostics : List Diagnostic) (id : NodeId) (r : Range) : Prop :=
  ∃ e ∈ ranges, ∃ c, input.outputTree.Precedes e.node id ∧ r.Clash e c ∧
    (options.ambiguousStructure ≠ .off →
      ∃ d ∈ diagnostics, d.node = id ∧ d.finding = .ambiguousStructure c.message)

theorem Refused.mono {options : Options} {input : AlignmentInput} {ranges ranges' : List Range}
    {diagnostics diagnostics' : List Diagnostic} {id : NodeId} {r : Range}
    (h : Refused options input ranges diagnostics id r) (hRanges : ranges ⊆ ranges')
    (hDiagnostics : diagnostics ⊆ diagnostics') :
    Refused options input ranges' diagnostics' id r := by
  obtain ⟨e, he, c, hPrecedes, hClash, hReport⟩ := h
  refine ⟨e, hRanges he, c, hPrecedes, hClash, fun hOn => ?_⟩
  obtain ⟨d, hd, hNode, hFinding⟩ := hReport hOn
  exact ⟨d, hDiagnostics hd, hNode, hFinding⟩

/-- One diagnostic is made for an earlier node than the other, or for the same. -/
def InOrder (input : AlignmentInput) (d e : Diagnostic) : Prop :=
  d.node = e.node ∨ input.outputTree.Precedes d.node e.node

/-- What the visits of the nodes `done` have come to. -/
structure Progress.Settled (options : Options) (input : AlignmentInput) (done : List NodeId)
    (p : Progress) : Prop where
  invariant : ∃ taken, RangeSet.Invariant taken p.ranges
  offered : ∀ r ∈ p.ranges.ranges, r.node ∈ done ∧ candidate? options input r.node = some r
  settled : ∀ id ∈ done, ∀ r, candidate? options input id = some r →
    r ∈ p.ranges.ranges ∨ Refused options input p.ranges.ranges p.diagnostics id r
  madeUp : p.synthesized.map (·.node) = done.filter (isMadeUp input)
  reported : ∀ d ∈ p.diagnostics, d.node ∈ done
  ordered : p.diagnostics.Pairwise (InOrder input)

/-- New diagnostics for the node that is visited go behind those for earlier
nodes. -/
theorem ordered_append {input : AlignmentInput} {done rest : List NodeId} {id : NodeId}
    {old new : List Diagnostic} (hOrder : input.outputTree.preorder = done ++ id :: rest)
    (hOld : ∀ d ∈ old, d.node ∈ done) (hPairwise : old.Pairwise (InOrder input))
    (hNew : ∀ d ∈ new, d.node = id) : (old ++ new).Pairwise (InOrder input) := by
  refine List.pairwise_append.mpr ⟨hPairwise, ?_, ?_⟩
  · refine List.pairwise_of_forall_mem_list fun d hd e he => Or.inl ?_
    rw [hNew d hd, hNew e he]
  · intro d hd e he
    refine Or.inr ?_
    rw [hNew e he]
    exact ⟨done, rest, hOrder, hOld d hd⟩

/-- A node that is offered no range leaves the ranges and the diagnostics as they
are. -/
theorem Progress.Settled.concat {options : Options} {input : AlignmentInput}
    {done : List NodeId} {before : Progress} {id : NodeId}
    {synthesized : List SynthesizedNode} (h : before.Settled options input done)
    (hNone : candidate? options input id = none)
    (hMadeUp : synthesized.map (·.node) = (done ++ [id]).filter (isMadeUp input)) :
    (⟨before.ranges, before.diagnostics, synthesized⟩ : Progress).Settled options input
      (done ++ [id]) where
  invariant := h.invariant
  offered := fun r hr => ⟨List.mem_append_left _ (h.offered r hr).1, (h.offered r hr).2⟩
  settled := by
    refine List.forall_mem_append.mpr ⟨h.settled, ?_⟩
    rw [List.forall_mem_singleton]
    intro r hCandidate
    rw [hNone] at hCandidate
    cases hCandidate
  madeUp := hMadeUp
  reported := fun d hd => List.mem_append_left _ (h.reported d hd)
  ordered := h.ordered

/-- A node that is offered a range: what matters is that old ranges and diagnostics
are kept, that the new ones belong to the node, and that its range is taken in or
refused. -/
theorem Progress.Settled.offer {options : Options} {input : AlignmentInput}
    {done rest : List NodeId} {before : Progress} {id : NodeId} {r : Range} {ranges : RangeSet}
    {new : List Diagnostic} (h : before.Settled options input done)
    (hOrder : input.outputTree.preorder = done ++ id :: rest)
    (hCandidate : candidate? options input id = some r)
    (hInvariant : ∃ taken, RangeSet.Invariant taken ranges)
    (hKept : before.ranges.ranges ⊆ ranges.ranges)
    (hRanges : ∀ x ∈ ranges.ranges, x = r ∨ x ∈ before.ranges.ranges)
    (hNew : ∀ d ∈ new, d.node = id)
    (hFate : r ∈ ranges.ranges ∨
      Refused options input ranges.ranges (before.diagnostics ++ new) id r) :
    (⟨ranges, before.diagnostics ++ new, before.synthesized⟩ : Progress).Settled options input
      (done ++ [id]) where
  invariant := hInvariant
  offered := by
    intro x hx
    rcases hRanges x hx with rfl | hOld
    · rw [candidate?_node hCandidate]
      exact ⟨by simp, hCandidate⟩
    · exact ⟨List.mem_append_left _ (h.offered x hOld).1, (h.offered x hOld).2⟩
  settled := by
    refine List.forall_mem_append.mpr ⟨?_, ?_⟩
    · intro other hOther x hx
      rcases h.settled other hOther x hx with hIn | hRefused
      · exact Or.inl (hKept hIn)
      · exact Or.inr (hRefused.mono hKept (List.subset_append_left _ _))
    · rw [List.forall_mem_singleton]
      intro x hx
      obtain rfl : r = x := Option.some.inj (hCandidate.symm.trans hx)
      exact hFate
  madeUp := by
    obtain ⟨link, hLink, hLinked⟩ := link_of_candidate? hCandidate
    have hNot : isMadeUp input id = false := by simpa [isMadeUp, hLink] using hLinked
    simp [List.filter_append, hNot, h.madeUp]
  reported := by
    refine List.forall_mem_append.mpr ⟨fun d hd => List.mem_append_left _ (h.reported d hd), ?_⟩
    intro d hd
    rw [hNew d hd]
    simp
  ordered := ordered_append hOrder h.reported h.ordered hNew

theorem Progress.Settled.visited {options : Options} {input : AlignmentInput}
    {done rest : List NodeId} {before after : Progress} {id : NodeId}
    (h : before.Settled options input done)
    (hOrder : input.outputTree.preorder = done ++ id :: rest)
    (hVisited : Visited options input before id after) :
    after.Settled options input (done ++ [id]) := by
  obtain ⟨taken, hInvariant⟩ := h.invariant
  cases hVisited with
  | unlinked hNone =>
    have hId : id ∈ input.outputTree.preorder := by simp [hOrder]
    obtain ⟨-, n, hNode⟩ := Tree.mem_preorder_iff.mp hId
    have hLink : input.provenance.get? id = none := by simpa [hNode] using hNone
    refine h.concat (by simp [candidate?, hLink]) ?_
    simp [List.filter_append, isMadeUp, hLink, h.madeUp]
  | @madeUp n link hNode hLink hMadeUp =>
    have hCandidate : candidate? options input id = none := by
      cases hSome : candidate? options input id with
      | none => rfl
      | some r =>
        obtain ⟨link', hLink', hLinked⟩ := link_of_candidate? hSome
        obtain rfl : link = link' := Option.some.inj (hLink.symm.trans hLink')
        exact absurd (List.isEmpty_iff.mp hMadeUp) hLinked
    have hIs : isMadeUp input id = true := by
      simpa [isMadeUp, hLink, Link.isSynthesized] using hMadeUp
    refine h.concat hCandidate ?_
    simp [List.filter_append, hIs, h.madeUp]
  | @taken n link r problems ranges hNode hLink hLinked hRange hInsert =>
    have hMem := fun x => hInvariant.mem_insert_iff (x := x) hInsert
    refine h.offer hOrder (candidate?_eq_some_iff.mpr ⟨n, link, problems, hNode, hLink, hRange⟩)
      ⟨_, hInvariant.insert hInsert⟩ ?_ ?_ ?_ ?_
    · exact fun x hx => (hMem x).mpr (Or.inr hx)
    · exact fun x hx => (hMem x).mp hx
    · exact fun d hd => (node_of_mem_reports hd).trans (rangeOf?_node hRange)
    · exact Or.inl ((hMem r).mpr (Or.inl rfl))
  | @refused n link r problems conflict hNode hLink hLinked hRange hInsert =>
    have hNode' : r.node = id := rangeOf?_node hRange
    obtain ⟨front, existing, back, hRanges, -, hClash⟩ := RangeSet.insert_eq_error_iff.mp hInsert
    have hExisting : existing ∈ before.ranges.ranges := by simp [hRanges]
    rw [List.append_assoc]
    refine h.offer hOrder (candidate?_eq_some_iff.mpr ⟨n, link, problems, hNode, hLink, hRange⟩)
      ⟨taken, hInvariant⟩ (List.Subset.refl _) (fun x hx => Or.inr hx) ?_ ?_
    · refine List.forall_mem_append.mpr ⟨fun d hd => (node_of_mem_reports hd).trans hNode', ?_⟩
      intro d hd
      exact (node_of_report? (Option.mem_toList.mp hd)).trans hNode'
    · refine Or.inr ⟨existing, hExisting, conflict, ?_, hClash, fun hOn => ?_⟩
      · exact ⟨done, rest, hOrder, (h.offered existing hExisting).1⟩
      · obtain ⟨d, hReport⟩ := exists_report? hOn r conflict.message
        refine ⟨d, ?_, (node_of_report? hReport).trans hNode', finding_of_report? hReport⟩
        simp [hReport]

theorem settled_progress (options : Options) (input : AlignmentInput) :
    (progress options input).Settled options input input.outputTree.preorder := by
  refine progress_induction options input (fun done p => p.Settled options input done) ?_ ?_
  · exact ⟨⟨[], RangeSet.invariant_empty⟩, by simp [RangeSet.empty], by simp, rfl, by simp,
      List.Pairwise.nil⟩
  · intro done id rest before after hOrder hBefore hVisited
    exact hBefore.visited hOrder hVisited

/-! ## The result -/

/-- No two ranges of the result belong to one node. -/
theorem nodup_node_align (options : Options) (input : AlignmentInput) :
    ((align options input).ranges.ranges.map (·.node)).Nodup := by
  have hMembers := (RangeSet.invariant_afterInserts (candidates options input)).members
  have hCandidates : ((candidates options input).map (·.node)).Nodup := by
    rw [map_node_candidates]
    exact List.Pairwise.filter _ input.outputTree.nodup_preorder
  have hTaken : ((RangeSet.empty.takenFrom (candidates options input)).map (·.node)).Nodup :=
    List.Pairwise.sublist ((RangeSet.takenFrom_sublist _ _).map _) hCandidates
  rw [ranges_align]
  exact (hMembers.map (·.node)).nodup_iff.mpr hTaken

/-- What an alignment owes to the output nodes: ranges belong to different linked
nodes, the nodes that were made up are listed in the order of the walk, a linked node
has its range or is refused it, a node without a link is left out, and the
diagnostics are in the order of the walk. -/
structure Accounts (options : Options) (input : AlignmentInput) (a : Alignment) : Prop where
  distinct : (a.ranges.ranges.map (·.node)).Nodup
  linked : ∀ r ∈ a.ranges.ranges, r.node ∈ input.outputTree.preorder ∧
    ∃ link, input.provenance.get? r.node = some link ∧ link.predecessors ≠ []
  madeUp : a.synthesized.map (·.node) =
    input.outputTree.preorder.filter fun id =>
      (input.provenance.get? id).any fun link => link.predecessors.isEmpty
  madeUpOnce : (a.synthesized.map (·.node)).Nodup
  settled : ∀ id ∈ input.outputTree.preorder, ∀ link, input.provenance.get? id = some link →
    link.predecessors ≠ [] → ∃ r, candidate? options input id = some r ∧
      (r ∈ a.ranges.ranges ∧ a.ranges.ranges.countP (fun x => x.node = id) = 1 ∨
        a.ranges.ranges.countP (fun x => x.node = id) = 0 ∧
          Refused options input a.ranges.ranges a.diagnostics id r)
  unlinked : ∀ id, input.provenance.get? id = none →
    (∀ r ∈ a.ranges.ranges, r.node ≠ id) ∧ ∀ s ∈ a.synthesized, s.node ≠ id
  reported : ∀ d ∈ a.diagnostics, d.node ∈ input.outputTree.preorder
  ordered : a.diagnostics.Pairwise (InOrder input)

/-- **Every output node is accounted for once**, whatever the texts, the trees, the
links and the options are. -/
theorem accounts_align (options : Options) (input : AlignmentInput) :
    (align options input).Accounts options input := by
  have hRun := settled_progress options input
  have hDistinct := nodup_node_align options input
  have hLinked : ∀ r ∈ (align options input).ranges.ranges,
      r.node ∈ input.outputTree.preorder ∧
        ∃ link, input.provenance.get? r.node = some link ∧ link.predecessors ≠ [] :=
    fun r hr => ⟨(hRun.offered r hr).1, link_of_candidate? (hRun.offered r hr).2⟩
  have hOnce : ((align options input).synthesized.map (·.node)).Nodup :=
    hRun.madeUp ▸ List.Pairwise.filter _ input.outputTree.nodup_preorder
  refine ⟨hDistinct, hLinked, hRun.madeUp, hOnce, ?_, ?_, hRun.reported, hRun.ordered⟩
  · intro id hId link hLink hPredecessors
    obtain ⟨r, hCandidate⟩ := exists_candidate? options hId hLink hPredecessors
    refine ⟨r, hCandidate, ?_⟩
    by_cases hIn : r ∈ (align options input).ranges.ranges
    · have hNode : id ∈ (align options input).ranges.ranges.map (·.node) := by
        rw [← candidate?_node hCandidate]
        exact List.mem_map_of_mem hIn
      refine Or.inl ⟨hIn, ?_⟩
      rw [countP_node_eq, List.Nodup.count hDistinct, if_pos hNode]
    · refine Or.inr ⟨?_, (hRun.settled id hId r hCandidate).resolve_left hIn⟩
      rw [List.countP_eq_zero]
      intro x hx hNode
      have hSame := (hRun.offered x hx).2
      rw [of_decide_eq_true hNode, hCandidate] at hSame
      exact hIn (Option.some.inj hSame ▸ hx)
  · intro id hNone
    refine ⟨?_, ?_⟩
    · rintro r hr rfl
      obtain ⟨-, link, hLink, -⟩ := hLinked r hr
      rw [hNone] at hLink
      cases hLink
    · rintro s hs rfl
      have hMem : s.node ∈ (progress options input).synthesized.map (·.node) :=
        List.mem_map_of_mem hs
      rw [hRun.madeUp, List.mem_filter, isMadeUp, hNone] at hMem
      simp at hMem

end Alignment

end Retrace
