import Mathlib.Tactic.SplitIfs
import Retrace.Fixture
import Retrace.Proofs.Checked.Basic
import Retrace.Proofs.Preorder
import Retrace.Proofs.Zip

/-!
# Checked walks

A walk marks the nodes it has met in a list of flags with one flag for each node of
the arena, and asks for the flag of a node only after it has found the node in the
arena. So there is a flag wherever one is asked for.

The plain walks keep the list of the nodes that are still unmet, and the two agree as
long as the unmet nodes are those whose flag is not set (`Tracks`). Marking a node and
taking it off the list keeps this up. Each flag is set once, which is also why a walk
with flags ends.
-/

namespace Retrace

/-! ## Flags -/

theorem count_false_set_lt {flags : List Bool} {i : Nat} (h : flags[i]? = some false) :
    (flags.set i true).count false < flags.count false := by
  induction flags generalizing i with
  | nil => cases h
  | cons flag flags ih =>
    cases i with
    | zero =>
      obtain rfl : flag = false := by simpa using h
      simp
    | succ i =>
      have hRest := ih (by simpa using h)
      cases flag <;> simp [hRest]

theorem flag_eq_false {flag : Option Bool} (hNone : flag ≠ none) (hTrue : flag ≠ some true) :
    flag = some false := by
  rcases flag with _ | _ | _
  · exact absurd rfl hNone
  · rfl
  · exact absurd rfl hTrue

/-- The flags of an arena are set for all nodes but the unmet ones. -/
structure Tracks (t : Tree) (flags : List Bool) (unmet : List NodeId) : Prop where
  length : flags.length = t.nodes.size
  nodup : unmet.Nodup
  mem : ∀ id, id ∈ unmet ↔ flags[id.index]? = some false

namespace Tracks

variable {t : Tree} {flags : List Bool} {unmet : List NodeId}

theorem start (t : Tree) : Tracks t (List.replicate t.nodes.size false) t.ids where
  length := List.length_replicate
  nodup := t.nodup_ids
  mem := by
    intro id
    rw [Tree.mem_ids_iff, List.getElem?_replicate]
    simp only [Tree.node?, Option.ite_none_right_eq_some, and_true]
    constructor
    · rintro ⟨n, hNode⟩
      exact (Array.getElem?_eq_some_iff.mp hNode).1
    · intro hIndex
      exact ⟨_, Array.getElem?_eq_getElem hIndex⟩

/-- A node of the arena has a flag. -/
theorem ne_none (h : Tracks t flags unmet) {id : NodeId} {n : Node} (hNode : t.node? id = some n) :
    flags[id.index]? ≠ none := by
  obtain ⟨hIndex, -⟩ := Array.getElem?_eq_some_iff.mp hNode
  rw [← h.length] at hIndex
  rw [List.getElem?_eq_getElem hIndex]
  exact Option.some_ne_none _

theorem ne_true (h : Tracks t flags unmet) {id : NodeId} (hMem : id ∈ unmet) :
    flags[id.index]? ≠ some true := by
  rw [(h.mem id).mp hMem]
  simp

theorem eq_true (h : Tracks t flags unmet) {id : NodeId} {n : Node} (hNode : t.node? id = some n)
    (hMet : id ∉ unmet) : flags[id.index]? = some true := by
  rcases hFlag : flags[id.index]? with _ | _ | _
  · exact absurd hFlag (h.ne_none hNode)
  · exact absurd ((h.mem id).mpr hFlag) hMet
  · rfl

theorem exists_node (h : Tracks t flags unmet) {id : NodeId} (hMem : id ∈ unmet) :
    ∃ n, t.node? id = some n := by
  obtain ⟨hIndex, -⟩ := List.getElem?_eq_some_iff.mp ((h.mem id).mp hMem)
  rw [h.length] at hIndex
  exact ⟨_, Array.getElem?_eq_getElem hIndex⟩

/-- Setting a flag is taking the node off the list. -/
theorem mark (h : Tracks t flags unmet) (id : NodeId) :
    Tracks t (flags.set id.index true) (unmet.erase id) where
  length := by rw [List.length_set, h.length]
  nodup := h.nodup.erase id
  mem := by
    intro other
    rw [h.nodup.mem_erase_iff, h.mem other, List.getElem?_set]
    by_cases hSame : id.index = other.index
    · have hEqual : other = id := by
        cases id
        cases other
        simpa using hSame.symm
      simp [hSame, hEqual]
    · have hNe : other ≠ id := fun hEqual => hSame (by rw [hEqual])
      simp [hSame, hNe]

end Tracks

namespace Checked

/-! ## The walk of a tree -/

/-- Visits the nodes on a stack, and their children, as long as their flags are not
set. -/
def walkFrom (t : Tree) (seen : List Bool) (stack : List NodeId) : Checked (List NodeId) :=
  match stack with
  | [] => return []
  | id :: rest =>
    match t.node? id with
    | none => walkFrom t seen rest
    | some n =>
      if seen[id.index]? = none then .error .outOfRange
      else if seen[id.index]? = some true then walkFrom t seen rest
      else do
        return id :: (← walkFrom t (seen.set id.index true) (n.children ++ rest))
termination_by (seen.count false, stack.length)
decreasing_by
  · exact Prod.Lex.right _ (by simp)
  · exact Prod.Lex.right _ (by simp)
  · rename_i hNone hTrue
    exact Prod.Lex.left _ _ (count_false_set_lt (flag_eq_false hNone hTrue))

/-- The nodes that can be reached from the root. -/
def preorder (t : Tree) : Checked (List NodeId) :=
  walkFrom t (List.replicate t.nodes.size false) [t.root]

theorem walkFrom_eq {t : Tree} {seen : List Bool} {unmet stack : List NodeId}
    (h : Tracks t seen unmet) : walkFrom t seen stack = .ok (t.walkFrom unmet stack) := by
  fun_induction Tree.walkFrom t unmet stack generalizing seen with
  | case1 => rw [walkFrom, pure_eq_ok]
  | case2 unmet id rest hMem ih =>
    obtain ⟨n, hNode⟩ := h.exists_node hMem
    rw [walkFrom, hNode]
    dsimp only
    rw [if_neg (h.ne_none hNode), if_neg (h.ne_true hMem)]
    have hRest := ih (h.mark id)
    rw [Tree.childrenOf, hNode, Option.map_some, Option.getD_some] at hRest
    rw [hRest, ok_bind, pure_eq_ok, Tree.childrenOf, hNode, Option.map_some, Option.getD_some]
  | case3 unmet id rest hMet ih =>
    -- not unmet is either no node of the arena or a node whose flag is set
    rw [walkFrom]
    cases hNode : t.node? id with
    | none => exact ih h
    | some n =>
      dsimp only
      rw [if_neg (h.ne_none hNode), if_pos (h.eq_true hNode hMet)]
      exact ih h

@[simp]
theorem preorder_eq (t : Tree) : preorder t = .ok t.preorder := walkFrom_eq (.start t)

/-! ## The walk of two trees -/

/-- Pairs the nodes on a stack, and their children, as long as the kinds agree and the
flag of the output node is not set. -/
def zipFrom (source output : Tree) (visited : List Bool) (stack : List (NodeId × NodeId)) :
    Checked (List (NodeId × Link)) :=
  match stack with
  | [] => return []
  | (sourceId, outputId) :: rest =>
    match source.node? sourceId, output.node? outputId with
    | some s, some o =>
      if s.kind = o.kind then
        if visited[outputId.index]? = none then .error .outOfRange
        else if visited[outputId.index]? = some true then zipFrom source output visited rest
        else do
          let later ← zipFrom source output (visited.set outputId.index true)
            ((s.children.zip o.children).reverse ++ rest)
          return (outputId, Link.carried s.kind s.span sourceId) :: later
      else zipFrom source output visited rest
    | _, _ => zipFrom source output visited rest
termination_by (visited.count false, stack.length)
decreasing_by
  · exact Prod.Lex.right _ (by simp)
  · rename_i hNone hTrue
    exact Prod.Lex.left _ _ (count_false_set_lt (flag_eq_false hNone hTrue))
  · exact Prod.Lex.right _ (by simp)
  · exact Prod.Lex.right _ (by simp)

/-- The links between nodes in the same place of two trees. -/
def zip (source output : Tree) : Checked Table := do
  let entries ← zipFrom source output (List.replicate output.nodes.size false)
    [(source.root, output.root)]
  return .ofList entries

theorem zipFrom_eq {source output : Tree} {visited : List Bool} {unmet : List NodeId}
    {stack : List (NodeId × NodeId)} (h : Tracks output visited unmet) :
    zipFrom source output visited stack = .ok (Table.zipFrom source output unmet stack) := by
  fun_induction Table.zipFrom source output unmet stack generalizing visited with
  | case1 => rw [zipFrom, pure_eq_ok]
  | case2 unmet sourceId outputId rest s o ho hs hKind hMem ih =>
    rw [zipFrom, hs, ho]
    dsimp only
    rw [if_pos hKind, if_neg (h.ne_none ho), if_neg (h.ne_true hMem), ih (h.mark outputId),
      ok_bind, pure_eq_ok]
  | case3 unmet sourceId outputId rest s o ho hs hKind hMet ih =>
    rw [zipFrom, hs, ho]
    dsimp only
    rw [if_pos hKind, if_neg (h.ne_none ho), if_pos (h.eq_true ho hMet)]
    exact ih h
  | case4 unmet sourceId outputId rest s o ho hs hKind ih =>
    rw [zipFrom, hs, ho]
    dsimp only
    rw [if_neg hKind]
    exact ih h
  | case5 unmet sourceId outputId rest hNone ih =>
    rw [zipFrom]
    split
    · rename_i s o hs ho
      exact absurd ho (hNone s o hs)
    · exact ih h

@[simp]
theorem zip_eq (source output : Tree) : zip source output = .ok (Table.zip source output) := by
  rw [zip, zipFrom_eq (.start output), ok_bind, pure_eq_ok]
  rfl

/-! ## The links that count -/

/-- Names the source node of every snapshot that can be found in the tree. -/
def resolve (t : Table) (source : Tree) : Checked Table := do
  let walk ← preorder source
  return t.mapLinks fun link =>
    { link with predecessors := link.predecessors.map (Table.resolvePredecessor source walk) }

/-- The links of a fixture that count. -/
def table (f : Fixture) : Checked Table := do
  let base ← if f.zip then zip f.sourceTree f.outputTree else pure .empty
  let merged :=
    match f.provenance with
    | some recorded => base.overlay recorded
    | none => base
  resolve merged f.sourceTree

@[simp]
theorem resolve_eq (t : Table) (source : Tree) : resolve t source = .ok (t.resolve source) := by
  rw [resolve, preorder_eq, ok_bind, pure_eq_ok]
  rfl

@[simp]
theorem table_eq (f : Fixture) : table f = .ok f.table := by
  unfold table Fixture.table
  cases f.zip <;> cases f.provenance <;> simp

end Checked

end Retrace
