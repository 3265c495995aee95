import Mathlib.Data.List.Induction
import Mathlib.Data.List.Infix
import Mathlib.Logic.Relation
import Retrace.Classes
import Retrace.Proofs.Subtree
import Retrace.Proofs.Zip

/-!
# The zip in terms of paths

The zip walks down both trees at once, with a stack of pairs and a mark on each output
node it has met. What it links can be said without the walk. A path of child positions is
taken in both trees, from the roots on; if the two nodes have the same kind at every point
of the path (`SharedPath`), the nodes at its end are linked, and nothing else is.

That every link comes from such a path needs no assumption (`zipped_iff_exists_path`). The
other direction could fail in two ways. A pair might be passed over because its output node
was met before, in another pair; but the output tree is checked, so only one path leads to
the node, and one path has only one end in the source tree (`zipped_unique`). And a pair
might never be put on the stack; but the pair above it was linked, and a linked pair puts
its children on the stack (`get?_zip_of_zipped`).

Of the source tree nothing is assumed. If it shares nodes, several output nodes are linked
to one source node.
-/

namespace Retrace.Table

/-- The table has a link of the output node that names the source node. -/
def Links (table : Table) (outputId sourceId : NodeId) : Prop :=
  ∃ link, table.get? outputId = some link ∧ ∃ p ∈ link.predecessors, p.node = some sourceId

/-- At every point of the path, the start and the end included, the path has led from the
two roots to two nodes of the same kind. -/
def SharedPath (source output : Tree) (path : List Nat) : Prop :=
  ∀ front, front <+: path → ∃ sourceId outputId, source.follow source.root front = some sourceId ∧
    output.follow output.root front = some outputId ∧ Matching source output (sourceId, outputId)

/-! ## Paths to zipped pairs -/

theorem SharedPath.of_prefix {source output : Tree} {path front : List Nat}
    (h : SharedPath source output path) (hFront : front <+: path) :
    SharedPath source output front :=
  fun part hPart => h part (hPart.trans hFront)

theorem SharedPath.matching {source output : Tree} {path : List Nat} {sourceId outputId : NodeId}
    (h : SharedPath source output path) (hSource : source.follow source.root path = some sourceId)
    (hOutput : output.follow output.root path = some outputId) :
    Matching source output (sourceId, outputId) := by
  obtain ⟨s, o, hs, ho, hMatching⟩ := h path List.prefix_rfl
  rw [hSource, Option.some.injEq] at hs
  rw [hOutput, Option.some.injEq] at ho
  rwa [hs, ho]

theorem SharedPath.concat {source output : Tree} {path : List Nat} {i : Nat}
    {sourceId outputId : NodeId} (h : SharedPath source output path)
    (hSource : source.follow source.root (path ++ [i]) = some sourceId)
    (hOutput : output.follow output.root (path ++ [i]) = some outputId)
    (hMatching : Matching source output (sourceId, outputId)) :
    SharedPath source output (path ++ [i]) := by
  intro front hFront
  rcases List.prefix_concat_iff.mp hFront with rfl | hFront
  · exact ⟨sourceId, outputId, hSource, hOutput, hMatching⟩
  · exact h front hFront

/-- The pairs that are reached from the roots lie at the ends of the shared paths. -/
theorem zipped_iff_exists_path {source output : Tree} {sourceId outputId : NodeId} :
    Zipped source output (sourceId, outputId) ↔
      ∃ path, source.follow source.root path = some sourceId ∧
        output.follow output.root path = some outputId ∧ SharedPath source output path := by
  constructor
  · intro h
    obtain ⟨hRoots, hDescent⟩ := h
    generalize hPair : (sourceId, outputId) = pair at hDescent
    induction hDescent generalizing sourceId outputId with
    | refl =>
      obtain ⟨rfl, rfl⟩ := Prod.mk.inj hPair
      refine ⟨[], rfl, rfl, ?_⟩
      intro front hFront
      rw [List.prefix_nil.mp hFront]
      exact ⟨source.root, output.root, rfl, rfl, hRoots⟩
    | @tail above below _ hStep ih =>
      subst hPair
      obtain ⟨path, hSource, hOutput, hShared⟩ := ih rfl
      obtain ⟨hMatching, i, hLeft, hRight⟩ := hStep
      have hSourceEnd : source.follow source.root (path ++ [i]) = some sourceId :=
        Tree.follow_concat_eq_some_iff.mpr ⟨above.1, hSource, hLeft⟩
      have hOutputEnd : output.follow output.root (path ++ [i]) = some outputId :=
        Tree.follow_concat_eq_some_iff.mpr ⟨above.2, hOutput, hRight⟩
      exact ⟨path ++ [i], hSourceEnd, hOutputEnd,
        hShared.concat hSourceEnd hOutputEnd hMatching⟩
  · intro h
    obtain ⟨path, hSource, hOutput, hShared⟩ := h
    have hMatching := hShared.matching hSource hOutput
    -- the path is taken from its end, since `Descends` is put together from the roots on
    induction path using List.reverseRecOn generalizing sourceId outputId with
    | nil =>
      obtain rfl : source.root = sourceId := Option.some.inj hSource
      obtain rfl : output.root = outputId := Option.some.inj hOutput
      exact ⟨hMatching, .refl⟩
    | append_singleton front i ih =>
      obtain ⟨s, hSourceFront, hLeft⟩ := Tree.follow_concat_eq_some_iff.mp hSource
      obtain ⟨o, hOutputFront, hRight⟩ := Tree.follow_concat_eq_some_iff.mp hOutput
      have hFront := hShared.of_prefix (List.prefix_append front [i])
      obtain ⟨hRoots, hDescent⟩ :=
        ih hSourceFront hOutputFront hFront (hFront.matching hSourceFront hOutputFront)
      exact ⟨hRoots, hDescent.tail ⟨hMatching, i, hLeft, hRight⟩⟩

/-! ## The links of a zip -/

theorem zipped_unique {source output : Tree} {size : Nat} (h : output.WellFormed size)
    {sourceId other outputId : NodeId} (hFirst : Zipped source output (sourceId, outputId))
    (hSecond : Zipped source output (other, outputId)) : sourceId = other := by
  obtain ⟨path, hSource, hOutput, -⟩ := zipped_iff_exists_path.mp hFirst
  obtain ⟨path', hSource', hOutput', -⟩ := zipped_iff_exists_path.mp hSecond
  obtain rfl : path = path' := h.follow_injective hOutput hOutput'
  exact Option.some.inj (hSource.symm.trans hSource')

/-- A link of an output node can only be the one to its partner. -/
theorem eq_carried_of_get?_zip {source output : Tree} {size : Nat} (h : output.WellFormed size)
    {sourceId outputId : NodeId} {s : Node} {link : Link}
    (hZipped : Zipped source output (sourceId, outputId)) (hNode : source.node? sourceId = some s)
    (hLink : (zip source output).get? outputId = some link) :
    link = .carried s.kind s.span sourceId := by
  obtain ⟨other, n, hOther, hThere, rfl⟩ := exists_zipped_of_get? hLink
  obtain rfl : sourceId = other := zipped_unique h hZipped hOther
  obtain rfl : s = n := Option.some.inj (hNode.symm.trans hThere)
  rfl

/-- Every pair that is reached from the roots is linked. The induction goes down from the
roots: the link of a pair shows that its children were put on the stack. -/
theorem get?_zip_of_zipped {source output : Tree} {size : Nat} (h : output.WellFormed size)
    {pair : NodeId × NodeId} {s : Node} (hZipped : Zipped source output pair)
    (hNode : source.node? pair.1 = some s) :
    (zip source output).get? pair.2 = some (.carried s.kind s.span pair.1) := by
  have hLinked : ∃ link, (zip source output).get? pair.2 = some link := by
    obtain ⟨hRoots, hDescent⟩ := hZipped
    induction hDescent generalizing s with
    | refl =>
      have ⟨_, o, _, ho, _⟩ := hRoots
      have hUnmet : output.root ∈ output.ids := Tree.mem_ids_iff.mpr ⟨o, ho⟩
      obtain ⟨link, hMem⟩ := exists_mem_zipFrom_of_mem_stack
        (List.mem_singleton_self (source.root, output.root)) hRoots hUnmet
      exact ⟨link, get?_zip_iff.mpr hMem⟩
    | @tail above below hFront hStep ih =>
      obtain ⟨a, b, ha, -, -⟩ := Zipped.matching ⟨hRoots, hFront⟩
      obtain ⟨link, hLink⟩ := ih ha
      rw [eq_carried_of_get?_zip h ⟨hRoots, hFront⟩ ha hLink] at hLink
      obtain ⟨-, o, -, ho, -⟩ := hStep.1
      have hUnmet : below.2 ∈ output.ids := Tree.mem_ids_iff.mpr ⟨o, ho⟩
      obtain ⟨found, hMem⟩ :=
        exists_mem_zipFrom_of_descends hStep (get?_zip_iff.mp hLink) hUnmet
      exact ⟨found, get?_zip_iff.mpr hMem⟩
  obtain ⟨link, hLink⟩ := hLinked
  rw [hLink, eq_carried_of_get?_zip h hZipped hNode hLink]

theorem links_zip_iff {source output : Tree} {size : Nat} (h : output.WellFormed size)
    {outputId sourceId : NodeId} :
    (zip source output).Links outputId sourceId ↔ Zipped source output (sourceId, outputId) := by
  constructor
  · intro hLinks
    obtain ⟨link, hLink, p, hp, hName⟩ := hLinks
    obtain ⟨other, n, hZipped, -, rfl⟩ := exists_zipped_of_get? hLink
    rw [Link.carried, List.mem_singleton] at hp
    subst hp
    obtain rfl : other = sourceId := Option.some.inj hName
    exact hZipped
  · intro hZipped
    obtain ⟨s, -, hNode, -⟩ := hZipped.matching
    exact ⟨_, get?_zip_of_zipped h hZipped hNode, _, List.mem_singleton_self _, rfl⟩

/-- The links of a table are those of the nodes at the ends of shared paths. -/
structure LinkedAlongPaths (source output : Tree) (table : Table) : Prop where
  linked : ∀ outputId sourceId, table.Links outputId sourceId ↔
    ∃ path, source.follow source.root path = some sourceId ∧
      output.follow output.root path = some outputId ∧ SharedPath source output path
  carried : ∀ outputId sourceId, table.Links outputId sourceId →
    ∃ s, source.node? sourceId = some s ∧
      table.get? outputId = some ⟨[⟨s.kind, s.span, some sourceId⟩], []⟩
  named : ∀ outputId link, table.get? outputId = some link →
    ∃ sourceId, table.Links outputId sourceId
  once : (table.entries.map (·.1)).Nodup
  upward : ∀ parent child, child ∈ output.childrenOf parent →
    (∃ link, table.get? child = some link) → ∃ link, table.get? parent = some link

/-- **What the zip links.** An output node is linked to a source node exactly if one path
leads to both, through nodes of the same kind all the way. The link shows that one source
node and no steps, no node has two links, and the parent of a linked node is linked. -/
theorem linkedAlongPaths_zip (source output : Tree) (size : Nat)
    (hOutput : output.validate size = .ok ()) :
    LinkedAlongPaths source output (zip source output) := by
  have h : output.WellFormed size := Tree.validate_eq_ok_iff.mp hOutput
  constructor
  case linked =>
    intro outputId sourceId
    rw [links_zip_iff h, zipped_iff_exists_path]
  case carried =>
    intro outputId sourceId hLinks
    have hZipped := (links_zip_iff h).mp hLinks
    obtain ⟨s, -, hNode, -⟩ := hZipped.matching
    exact ⟨s, hNode, get?_zip_of_zipped h hZipped hNode⟩
  case named =>
    intro outputId link hLink
    obtain ⟨sourceId, -, hZipped, -⟩ := exists_zipped_of_get? hLink
    exact ⟨sourceId, (links_zip_iff h).mpr hZipped⟩
  case once =>
    rw [List.Nodup, List.pairwise_map]
    apply (zip source output).ascending.imp
    intro a b hLess hSame
    exact Nat.ne_of_lt hLess (congrArg NodeId.index hSame)
  case upward =>
    intro parent child hChild hLinked
    obtain ⟨link, hLink⟩ := hLinked
    have hNotRoot := h.ne_root_of_mem_childrenOf hChild
    obtain ⟨_, _, above, _, _, -, -, -, -, -, hAbove, -, _, -, hListed⟩ :=
      exists_above_of_get? hLink hNotRoot
    obtain rfl : parent = above.2 := h.parent_unique hChild (List.mem_of_getElem? hListed)
    exact ⟨_, hAbove⟩

/-- The list `[[a],b]`. -/
def nestedList : Tree :=
  ⟨⟨0⟩, #[⟨.upTo 7, false, ⟨.arrayExpression, ⟨[some ⟨1⟩, some ⟨3⟩]⟩⟩⟩,
    ⟨⟨1, 4, by decide⟩, false, ⟨.arrayExpression, ⟨[some ⟨2⟩]⟩⟩⟩,
    ⟨.byte 2, false, ⟨.identifier, ⟨"a"⟩⟩⟩,
    ⟨.byte 5, false, ⟨.identifier, ⟨"b"⟩⟩⟩]⟩

/-- The list `[[a,c],[]]`, with one name added and another one replaced. -/
def regrownList : Tree :=
  ⟨⟨0⟩, #[⟨.upTo 10, false, ⟨.arrayExpression, ⟨[some ⟨1⟩, some ⟨4⟩]⟩⟩⟩,
    ⟨⟨1, 6, by decide⟩, false, ⟨.arrayExpression, ⟨[some ⟨2⟩, some ⟨3⟩]⟩⟩⟩,
    ⟨.byte 2, false, ⟨.identifier, ⟨"a"⟩⟩⟩,
    ⟨.byte 4, false, ⟨.identifier, ⟨"c"⟩⟩⟩,
    ⟨⟨7, 9, by decide⟩, false, ⟨.arrayExpression, ⟨[]⟩⟩⟩]⟩

/-- The first name of the inner list is linked, and so is the list around it. The empty list
stands where the source has a name, and it is not linked. -/
theorem linkedAlongPaths_regrownList :
    nestedList.validate 7 = .ok () ∧ regrownList.validate 10 = .ok () ∧
      (zip nestedList regrownList).Links ⟨2⟩ ⟨2⟩ ∧
      (∃ link, (zip nestedList regrownList).get? ⟨1⟩ = some link) ∧
      ∀ sourceId, ¬ (zip nestedList regrownList).Links ⟨4⟩ sourceId := by
  have hValid : regrownList.validate 10 = .ok () := rfl
  have hPaths := linkedAlongPaths_zip nestedList regrownList 10 hValid
  have hShared : SharedPath nestedList regrownList [0, 0] := by
    intro front hFront
    have hParts : front = [] ∨ front = [0] ∨ front = [0, 0] := by
      simpa using (List.mem_inits front [0, 0]).mpr hFront
    rcases hParts with rfl | rfl | rfl
    · exact ⟨_, _, rfl, rfl, _, _, rfl, rfl, rfl⟩
    · exact ⟨_, _, rfl, rfl, _, _, rfl, rfl, rfl⟩
    · exact ⟨_, _, rfl, rfl, _, _, rfl, rfl, rfl⟩
  have hInner : (zip nestedList regrownList).Links ⟨2⟩ ⟨2⟩ :=
    (hPaths.linked ⟨2⟩ ⟨2⟩).mpr ⟨[0, 0], rfl, rfl, hShared⟩
  have hAbove : ∃ link, (zip nestedList regrownList).get? ⟨1⟩ = some link := by
    obtain ⟨link, hLink, -⟩ := hInner
    exact hPaths.upward ⟨1⟩ ⟨2⟩ (by decide) ⟨link, hLink⟩
  refine ⟨rfl, hValid, hInner, hAbove, ?_⟩
  -- the only path to the empty list leads to a name in the source
  intro sourceId hLinks
  obtain ⟨path, hSource, hOutput, hPath⟩ := (hPaths.linked ⟨4⟩ sourceId).mp hLinks
  have hWellFormed := Tree.validate_eq_ok_iff.mp hValid
  obtain rfl : path = [1] := hWellFormed.follow_injective hOutput rfl
  obtain ⟨s, o, hs, ho, hKind⟩ := hPath.matching rfl rfl
  cases hs
  cases ho
  cases hKind

end Retrace.Table
