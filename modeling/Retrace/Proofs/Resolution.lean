import Retrace.Proofs.Subtree
import Retrace.Proofs.Table

/-!
# Resolving snapshots

A snapshot that names no source node is looked up by kind and span among the nodes that can
be reached from the root. Kind and span need not be unique: a wrapper and its only child can
share both, and then the walk decides. It lists a node before everything below it, so the
node that is found has no other one with the same kind and span above it
(`WellFormed.not_shows_above`). This takes a checked tree, in which only one path leads to a
node. In an arbitrary arena the walk may come to a node on another path first.

Nodes that cannot be reached are never found, and a snapshot that names a node is left alone,
even if the tree has no such node. So the second look-up finds nothing new
(`Table.resolve_resolve`): what was found is named now, and what was not found was looked for
in the same tree.
-/

namespace Retrace

namespace Tree

/-- The node is there and has the given kind and span. -/
def Shows (t : Tree) (kind : Kind) (span : Span) (id : NodeId) : Prop :=
  ∃ n, t.node? id = some n ∧ n.kind = kind ∧ n.span = span

theorem matches?_iff {t : Tree} {kind : Kind} {span : Span} {id : NodeId} :
    t.matches? kind span id = true ↔ t.Shows kind span id := by
  unfold matches? Shows
  rw [Option.any_eq_true]
  simp only [Bool.and_eq_true, decide_eq_true_eq]

/-- What is found is the first node of the walk with the kind and the span. -/
theorem locate?_eq_some_iff {t : Tree} {kind : Kind} {span : Span} {id : NodeId} :
    t.locate? kind span = some id ↔ t.Reachable id ∧ t.Shows kind span id ∧
      ∀ earlier, t.Precedes earlier id → ¬ t.Shows kind span earlier := by
  unfold locate? locateIn?
  rw [List.find?_eq_some_iff_append, matches?_iff]
  constructor
  · intro h
    obtain ⟨hShows, front, back, hOrder, hFront⟩ := h
    have hMem : id ∈ t.preorder := by
      rw [hOrder]
      exact List.mem_append_right front List.mem_cons_self
    refine ⟨(mem_preorder_iff.mp hMem).1, hShows, ?_⟩
    intro earlier hEarlier hMatch
    have hNot := hFront earlier ((precedes_iff_mem_front hOrder).mp hEarlier)
    rw [matches?_iff.mpr hMatch] at hNot
    cases hNot
  · intro h
    obtain ⟨hReachable, hShows, hFirst⟩ := h
    have ⟨n, hNode, _⟩ := hShows
    have hMem : id ∈ t.preorder := mem_preorder_iff.mpr ⟨hReachable, n, hNode⟩
    obtain ⟨front, back, hOrder⟩ := List.append_of_mem hMem
    refine ⟨hShows, front, back, hOrder, ?_⟩
    intro earlier hEarlier
    rw [Bool.not_eq_true', ← Bool.not_eq_true, matches?_iff]
    exact hFirst earlier ⟨front, back, hOrder, hEarlier⟩

theorem locate?_eq_none_iff {t : Tree} {kind : Kind} {span : Span} :
    t.locate? kind span = none ↔ ∀ id, t.Reachable id → ¬ t.Shows kind span id := by
  unfold locate? locateIn?
  rw [List.find?_eq_none]
  simp only [matches?_iff]
  constructor
  · intro hNone id hReachable hShows
    have ⟨n, hNode, _⟩ := hShows
    exact hNone id (mem_preorder_iff.mpr ⟨hReachable, n, hNode⟩) hShows
  · intro hNone id hMem
    exact hNone id (mem_preorder_iff.mp hMem).1

namespace WellFormed

/-- Everything above a reachable node can be reached, since each node has one parent only. -/
theorem reachable_of_leads {t : Tree} {size : Nat} (h : t.WellFormed size) {above id : NodeId}
    (hPath : t.Leads above id) (hId : t.Reachable id) : t.Reachable above := by
  induction hPath with
  | refl => exact hId
  | @tail middle last _ hStep ih =>
    apply ih
    cases hId with
    | root => exact absurd rfl (h.ne_root_of_mem_childrenOf hStep)
    | child hParent hChild =>
      rw [h.parent_unique hStep hChild]
      exact hParent

theorem not_shows_above {t : Tree} {size : Nat} (h : t.WellFormed size) {kind : Kind}
    {span : Span} {above id : NodeId} (hFound : t.locate? kind span = some id)
    (hPath : t.Leads above id) (hNe : above ≠ id) : ¬ t.Shows kind span above := by
  obtain ⟨hReachable, -, hFirst⟩ := locate?_eq_some_iff.mp hFound
  have hAbove : above ∈ t.preorder :=
    h.mem_preorder_of_reachable (h.reachable_of_leads hPath hReachable)
  apply hFirst
  exact (h.precedes_of_leads hAbove hPath).2.resolve_left hNe

end WellFormed

end Tree

/-! ## Snapshots, links and tables -/

/-- What becomes of a snapshot when it is looked up in the source tree. -/
structure Predecessor.Resolved (source : Tree) (before after : Predecessor) : Prop where
  kind : after.kind = before.kind
  span : after.span = before.span
  kept : ∀ id, before.node = some id → after.node = some id
  filled : before.node = none → ((∃ id, after.node = some id) ↔
    ∃ id, source.Reachable id ∧ source.Shows before.kind before.span id)
  first : before.node = none → ∀ id, after.node = some id ↔
    source.Reachable id ∧ source.Shows before.kind before.span id ∧
      ∀ earlier, source.Precedes earlier id → ¬ source.Shows before.kind before.span earlier
  outermost : before.node = none → ∀ id, after.node = some id →
    ∀ size, source.validate size = .ok () → ∀ above, source.Leads above id → above ≠ id →
      ¬ source.Shows before.kind before.span above
  missing : before.node = none → after.node = none →
    ∀ id, source.Reachable id → ¬ source.Shows before.kind before.span id

/-- The link has the same steps and the same snapshots, each of them looked up. -/
structure Link.Resolved (source : Tree) (before after : Link) : Prop where
  steps : after.steps = before.steps
  predecessors : List.Forall₂ (Predecessor.Resolved source) before.predecessors
    after.predecessors

namespace Table

theorem resolvePredecessor_of_named {source : Tree} {walk : List NodeId} {p : Predecessor}
    {id : NodeId} (h : p.node = some id) : resolvePredecessor source walk p = p := by
  unfold resolvePredecessor
  rw [h]

theorem resolvePredecessor_of_unnamed {source : Tree} {p : Predecessor} (h : p.node = none) :
    resolvePredecessor source source.preorder p =
      ⟨p.kind, p.span, source.locate? p.kind p.span⟩ := by
  unfold resolvePredecessor
  rw [h]
  rfl

theorem resolved_resolvePredecessor (source : Tree) (p : Predecessor) :
    p.Resolved source (resolvePredecessor source source.preorder p) := by
  cases hNamed : p.node with
  | some id =>
    rw [resolvePredecessor_of_named hNamed]
    constructor
    case kind => rfl
    case span => rfl
    case kept => exact fun _ h => h
    all_goals
      intro hNone
      rw [hNamed] at hNone
      cases hNone
  | none =>
    rw [resolvePredecessor_of_unnamed hNamed]
    constructor
    case kind => rfl
    case span => rfl
    case kept =>
      intro id hSome
      rw [hNamed] at hSome
      cases hSome
    case filled =>
      intro _
      rw [← Option.ne_none_iff_exists', ne_eq, Tree.locate?_eq_none_iff]
      push Not
      rfl
    case first => exact fun _ id => Tree.locate?_eq_some_iff
    case outermost =>
      intro _ id hFound size hValid above hPath hNe
      exact (Tree.validate_eq_ok_iff.mp hValid).not_shows_above hFound hPath hNe
    case missing => exact fun _ hNone => Tree.locate?_eq_none_iff.mp hNone

theorem resolvePredecessor_twice (source : Tree) (p : Predecessor) :
    resolvePredecessor source source.preorder (resolvePredecessor source source.preorder p) =
      resolvePredecessor source source.preorder p := by
  cases hNamed : p.node with
  | some id =>
    have hSame : resolvePredecessor source source.preorder p = p :=
      resolvePredecessor_of_named hNamed
    rw [hSame, hSame]
  | none =>
    rw [resolvePredecessor_of_unnamed hNamed]
    cases hFound : source.locate? p.kind p.span with
    | some id => exact resolvePredecessor_of_named rfl
    | none =>
      -- the second look-up asks the same tree for the same kind and span
      rw [resolvePredecessor_of_unnamed rfl, hFound]

theorem entries_resolve (t : Table) (source : Tree) :
    (t.resolve source).entries = t.entries.map fun e =>
      (e.1, ⟨e.2.predecessors.map (resolvePredecessor source source.preorder), e.2.steps⟩) :=
  rfl

theorem resolve_resolve (t : Table) (source : Tree) :
    (t.resolve source).resolve source = t.resolve source := by
  apply Table.ext
  rw [entries_resolve, entries_resolve, List.map_map]
  apply List.map_congr_left
  intro e _
  simp only [Function.comp_apply, List.map_map, Prod.mk.injEq, Link.mk.injEq, true_and, and_true]
  apply List.map_congr_left
  intro p _
  exact resolvePredecessor_twice source p

/-- **Resolving names the outermost match and nothing else.** The links of the table keep
their nodes, their steps and their snapshots in order. A snapshot that names a node is kept.
One that names none is given the first reachable node of its kind and span, which in a
checked tree has no such node above it, and stays without one only if there is none. Doing it
again changes nothing. -/
theorem resolved_resolve (t : Table) (source : Tree) :
    List.Forall₂
        (fun before after : NodeId × Link => after.1 = before.1 ∧ before.2.Resolved source after.2)
        t.entries (t.resolve source).entries ∧
      (t.resolve source).resolve source = t.resolve source := by
  refine ⟨?_, resolve_resolve t source⟩
  rw [entries_resolve, List.forall₂_map_right_iff]
  apply List.forall₂_same.mpr
  intro e _
  refine ⟨rfl, rfl, ?_⟩
  apply List.forall₂_map_right_iff.mpr
  apply List.forall₂_same.mpr
  intro p _
  exact resolved_resolvePredecessor source p

end Table

end Retrace
