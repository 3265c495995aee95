import Retrace.Proofs.Checked.Walk

/-!
# Walks that end

A walk is a loop over a stack. A pass takes an entry off the stack and may put others on it,
and nothing in the type of an arena keeps these from being nodes that were met before, nodes
higher up or no nodes at all. So the stack may be longer after a pass than before.

What goes down with every pass is the stack together with the references of the nodes that are
not met yet: a node is met once, and its references move to the stack then. A walk therefore
makes at most one pass for the root and one for each reference of its arena
(`Tree.exists_endsWithin`). When two trees are zipped, only the output side is marked, and only
the references of the output count (`Table.exists_endsWithin`); how often a source node comes
up does not matter.

The loops keep flags where `Tree.preorder` and `Table.zip` keep the list of unmet nodes, and
they give the same answers. What these answers are is known from `Tree.mem_preorder_iff` and
`Table.exists_zipped_of_get?`.
-/

namespace Retrace

/-- A loop that is in state `s` ends in state `final` after at most `n` passes. A pass gives
the next state, or nothing if there is nothing left to do. -/
inductive EndsWithin {σ : Type} (pass : σ → Option σ) : Nat → σ → σ → Prop where
  | done {n : Nat} {s : σ} (h : pass s = none) : EndsWithin pass n s s
  | next {n : Nat} {s s' final : σ} (h : pass s = some s') (hRest : EndsWithin pass n s' final) :
    EndsWithin pass (n + 1) s final

namespace EndsWithin

variable {σ : Type} {pass : σ → Option σ} {n m : Nat} {s s' final : σ}

theorem mono (h : EndsWithin pass n s final) (hLe : n ≤ m) : EndsWithin pass m s final := by
  induction h generalizing m with
  | done hDone => exact .done hDone
  | @next n s s' final hPass _ ih =>
    obtain ⟨m, rfl⟩ : ∃ k, m = k + 1 := ⟨m - 1, by omega⟩
    exact .next hPass (ih (by omega))

theorem step (h : pass s = some s') (hRest : EndsWithin pass n s' final) (hLess : n < m) :
    EndsWithin pass m s final :=
  (EndsWithin.next h hRest).mono hLess

end EndsWithin

namespace Tree

/-- The number of references that some nodes hold. -/
def referenceCount (t : Tree) (ids : List NodeId) : Nat := (ids.flatMap t.childrenOf).length

theorem referenceCount_erase {t : Tree} {ids : List NodeId} {id : NodeId} (h : id ∈ ids) :
    t.referenceCount ids = (t.childrenOf id).length + t.referenceCount (ids.erase id) := by
  have hPerm := (List.perm_cons_erase h).flatMap_right t.childrenOf
  rw [referenceCount, hPerm.length_eq, List.flatMap_cons, List.length_append, referenceCount]

/-! ## The walk of a tree -/

/-- Where a walk stands between two passes. -/
structure WalkState where
  seen : List Bool
  stack : List NodeId
  listed : List NodeId

/-- No node is met, and the root is on the stack. -/
def walkStart (t : Tree) : WalkState := ⟨List.replicate t.nodes.size false, [t.root], []⟩

/-- One pass of the walk: a node that is there and not seen yet is listed, and its children go
on the stack. -/
def walkPass (t : Tree) (s : WalkState) : Option WalkState :=
  match s.stack with
  | [] => none
  | id :: rest =>
    match t.node? id with
    | none => some { s with stack := rest }
    | some n =>
      if s.seen[id.index]? = some true then some { s with stack := rest }
      else some ⟨s.seen.set id.index true, n.children ++ rest, s.listed ++ [id]⟩

variable {t : Tree} {seen : List Bool} {unmet rest listed : List NodeId} {id : NodeId}

theorem walkPass_of_unmet (h : Tracks t seen unmet) (hMem : id ∈ unmet) :
    t.walkPass ⟨seen, id :: rest, listed⟩ =
      some ⟨seen.set id.index true, t.childrenOf id ++ rest, listed ++ [id]⟩ := by
  obtain ⟨n, hNode⟩ := h.exists_node hMem
  simp only [walkPass, hNode, childrenOf, Option.map_some, Option.getD_some]
  rw [if_neg (h.ne_true hMem)]

/-- What is not unmet is no node of the arena or a node that was seen. -/
theorem walkPass_of_met (h : Tracks t seen unmet) (hMet : id ∉ unmet) :
    t.walkPass ⟨seen, id :: rest, listed⟩ = some ⟨seen, rest, listed⟩ := by
  cases hNode : t.node? id with
  | none => simp only [walkPass, hNode]
  | some n =>
    simp only [walkPass, hNode]
    rw [if_pos (h.eq_true hNode hMet)]

/-- From any stack, the walk ends and lists what `walkFrom` gives. -/
theorem exists_endsWithin (h : Tracks t seen unmet) (stack listed : List NodeId) :
    ∃ final, EndsWithin t.walkPass (stack.length + t.referenceCount unmet)
        ⟨seen, stack, listed⟩ final ∧
      final.listed = listed ++ t.walkFrom unmet stack := by
  -- the induction follows the plain walk, and the flags go along with its unmet nodes
  fun_induction walkFrom t unmet stack generalizing seen listed with
  | case1 => exact ⟨_, .done rfl, (List.append_nil listed).symm⟩
  | case2 unmet id rest hMem ih =>
    obtain ⟨final, hEnds, hListed⟩ := ih (h.mark id) (listed ++ [id])
    refine ⟨final, hEnds.step (walkPass_of_unmet h hMem) ?_, by simpa using hListed⟩
    -- the references of the node have moved to the stack
    rw [referenceCount_erase hMem, List.length_append, List.length_cons]
    omega
  | case3 unmet id rest hMet ih =>
    obtain ⟨final, hEnds, hListed⟩ := ih h listed
    refine ⟨final, hEnds.step (walkPass_of_met h hMet) ?_, hListed⟩
    rw [List.length_cons]
    omega

/-- What can be said of the walk of any arena. -/
structure WalkedExactly (t : Tree) : Prop where
  ends : ∃ final, EndsWithin t.walkPass (1 + t.referenceCount t.ids) t.walkStart final ∧
    final.listed = t.preorder
  once : t.preorder.Nodup
  reached : ∀ id, id ∈ t.preorder ↔ t.Reachable id ∧ ∃ n, t.node? id = some n
  below : ∀ front id back, t.preorder = front ++ id :: back → front ≠ [] →
    ∃ parent ∈ front, id ∈ t.childrenOf parent

end Tree

namespace Table

/-! ## The walk of two trees -/

/-- Where the walk of two trees stands between two passes. -/
structure ZipState where
  visited : List Bool
  stack : List (NodeId × NodeId)
  links : Table

/-- No output node is met, and the two roots are on the stack. -/
def zipStart (source output : Tree) : ZipState :=
  ⟨List.replicate output.nodes.size false, [(source.root, output.root)], .empty⟩

/-- One pass of the walk: two nodes that are there and of the same kind are linked, if the output
node was not visited yet, and their children go on the stack in pairs. -/
def zipPass (source output : Tree) (state : ZipState) : Option ZipState :=
  match state.stack with
  | [] => none
  | (sourceId, outputId) :: rest =>
    match source.node? sourceId, output.node? outputId with
    | some s, some o =>
      if s.kind = o.kind then
        if state.visited[outputId.index]? = some true then some { state with stack := rest }
        else
          some ⟨state.visited.set outputId.index true, (s.children.zip o.children).reverse ++ rest,
            state.links.insert outputId (.carried s.kind s.span sourceId)⟩
      else some { state with stack := rest }
    | _, _ => some { state with stack := rest }

variable {source output : Tree} {visited : List Bool} {unmet : List NodeId}
  {rest : List (NodeId × NodeId)} {links : Table}

theorem zipPass_of_linked {sourceId outputId : NodeId} {s o : Node}
    (hs : source.node? sourceId = some s) (ho : output.node? outputId = some o)
    (hKind : s.kind = o.kind) (hNew : visited[outputId.index]? ≠ some true) :
    zipPass source output ⟨visited, (sourceId, outputId) :: rest, links⟩ =
      some ⟨visited.set outputId.index true, (s.children.zip o.children).reverse ++ rest,
        links.insert outputId (.carried s.kind s.span sourceId)⟩ := by
  simp only [zipPass, hs, ho]
  rw [if_pos hKind, if_neg hNew]

/-- A pair that does not match, or whose output node was visited, is passed over. -/
theorem zipPass_of_passed {pair : NodeId × NodeId}
    (h : Matching source output pair → visited[pair.2.index]? = some true) :
    zipPass source output ⟨visited, pair :: rest, links⟩ = some ⟨visited, rest, links⟩ := by
  obtain ⟨sourceId, outputId⟩ := pair
  simp only [zipPass]
  split
  · rename_i s o hs ho
    split
    · rename_i hKind
      rw [if_pos (h ⟨s, o, hs, ho, hKind⟩)]
    · rfl
  · rfl

theorem exists_endsWithin_of_passed {pair : NodeId × NodeId} {count : Nat} {result : Table}
    (h : Matching source output pair → visited[pair.2.index]? = some true)
    (hRest : ∃ final, EndsWithin (zipPass source output) (rest.length + count)
      ⟨visited, rest, links⟩ final ∧ final.links = result) :
    ∃ final, EndsWithin (zipPass source output) ((pair :: rest).length + count)
      ⟨visited, pair :: rest, links⟩ final ∧ final.links = result := by
  obtain ⟨final, hEnds, hLinks⟩ := hRest
  refine ⟨final, hEnds.step (zipPass_of_passed h) ?_, hLinks⟩
  rw [List.length_cons]
  omega

/-- From any stack, the walk ends and inserts the links that `zipFrom` gives. -/
theorem exists_endsWithin (h : Tracks output visited unmet) (stack : List (NodeId × NodeId))
    (links : Table) :
    ∃ final, EndsWithin (zipPass source output) (stack.length + output.referenceCount unmet)
        ⟨visited, stack, links⟩ final ∧
      final.links =
        (zipFrom source output unmet stack).foldl (fun t e => t.insert e.1 e.2) links := by
  fun_induction zipFrom source output unmet stack generalizing visited links with
  | case1 => exact ⟨_, .done rfl, rfl⟩
  | case2 unmet sourceId outputId rest s o ho hs hKind hMem ih =>
    obtain ⟨final, hEnds, hLinks⟩ :=
      ih (h.mark outputId) (links.insert outputId (.carried s.kind s.span sourceId))
    refine ⟨final, hEnds.step (zipPass_of_linked hs ho hKind (h.ne_true hMem)) ?_, hLinks⟩
    -- no more pairs are put on the stack than the output node has references
    have hChildren : (output.childrenOf outputId).length = o.children.length := by
      rw [Tree.childrenOf, ho, Option.map_some, Option.getD_some]
    rw [Tree.referenceCount_erase hMem, hChildren, List.length_append, List.length_reverse,
      List.length_zip, List.length_cons]
    omega
  | case3 unmet sourceId outputId rest s o ho hs hKind hMet ih =>
    exact exists_endsWithin_of_passed (fun _ => h.eq_true ho hMet) (ih h links)
  | case4 unmet sourceId outputId rest s o ho hs hKind ih =>
    refine exists_endsWithin_of_passed (fun hMatching => ?_) (ih h links)
    obtain ⟨s', o', hs', ho', hSame⟩ := hMatching
    rw [hs, Option.some.injEq] at hs'
    rw [ho, Option.some.injEq] at ho'
    subst hs' ho'
    exact absurd hSame hKind
  | case5 unmet sourceId outputId rest hNone ih =>
    refine exists_endsWithin_of_passed (fun hMatching => ?_) (ih h links)
    obtain ⟨s, o, hs, ho, -⟩ := hMatching
    exact (hNone s o hs ho).elim

/-- What can be said of the links between any two arenas. -/
structure LinkedSoundly (source output : Tree) : Prop where
  ends : ∃ final, EndsWithin (zipPass source output) (1 + output.referenceCount output.ids)
    (zipStart source output) final ∧ final.links = zip source output
  reached : ∀ id link, (zip source output).get? id = some link → output.Reachable id
  matched : ∀ id link, (zip source output).get? id = some link →
    ∃ sourceId s o, source.node? sourceId = some s ∧ output.node? id = some o ∧
      s.kind = o.kind ∧ link = .carried s.kind s.span sourceId

theorem exists_matched_of_get? {id : NodeId} {link : Link}
    (h : (zip source output).get? id = some link) :
    ∃ sourceId s o, source.node? sourceId = some s ∧ output.node? id = some o ∧
      s.kind = o.kind ∧ link = .carried s.kind s.span sourceId := by
  obtain ⟨sourceId, s, hZipped, hs, rfl⟩ := exists_zipped_of_get? h
  obtain ⟨s', o, hs', ho, hKind⟩ := hZipped.matching
  rw [hs, Option.some.injEq] at hs'
  subst hs'
  exact ⟨sourceId, s, o, hs, ho, hKind, rfl⟩

/-- **Walks end and meet what can be reached**, whatever references the arenas have. The walk of
a tree lists the nodes of the arena that can be reached from the root, each once, and each but
the first behind a node that has it among its children. The walk of two trees links output nodes
that can be reached, each to a source node of the arena that has the same kind. -/
theorem walkedExactly_and_linkedSoundly (t source output : Tree) :
    t.WalkedExactly ∧ LinkedSoundly source output := by
  constructor
  · exact
      { ends := Tree.exists_endsWithin (Tracks.start t) [t.root] []
        once := t.nodup_preorder
        reached := fun _ => Tree.mem_preorder_iff
        below := fun _ _ _ hOrder hFront => Tree.exists_parent_of_front hOrder hFront }
  · constructor
    case ends => exact exists_endsWithin (Tracks.start output) [(source.root, output.root)] .empty
    case reached =>
      intro id link hLink
      obtain ⟨sourceId, s, hZipped, -, -⟩ := exists_zipped_of_get? hLink
      exact (Tree.mem_preorder_iff.mp hZipped.mem_preorder).1
    case matched => exact fun _ _ hLink => exists_matched_of_get? hLink

/-- A program with two blocks. The first one refers back to the program and to the other block,
the second one to itself and to a place outside the arena. -/
def tangled : Tree :=
  ⟨⟨0⟩, #[⟨.upTo 0, false, ⟨.program, ⟨[⟨1⟩, ⟨2⟩]⟩⟩⟩,
    ⟨.upTo 0, false, ⟨.blockStatement, ⟨[⟨0⟩, ⟨2⟩]⟩⟩⟩,
    ⟨.upTo 0, false, ⟨.blockStatement, ⟨[⟨2⟩, ⟨7⟩]⟩⟩⟩]⟩

example : tangled.preorder = [⟨0⟩, ⟨1⟩, ⟨2⟩] ∧ tangled.referenceCount tangled.ids = 6 := by
  constructor <;> cbv

end Table

end Retrace
