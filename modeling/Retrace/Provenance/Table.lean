import Retrace.Provenance.Link
import Retrace.Syntax.Tree

/-!
# Provenance tables

A table holds at most one link for each output node, in the order of the nodes.
The order is part of the type, so two tables that answer every look-up alike are
equal. Tables are made by insertion, by laying one over another and by zipping
two trees (`Retrace.Provenance.Zip`); `Table.resolve` looks up the source nodes
of snapshots that do not name one.
-/

namespace Retrace

/-- The keys of a list of entries go up from one entry to the next. -/
def Ascending (entries : List (NodeId × Link)) : Prop :=
  entries.Pairwise fun a b => a.1.index < b.1.index

/-- Puts an entry into its place; an entry with the same key gives way. -/
def insertEntry (id : NodeId) (link : Link) : List (NodeId × Link) → List (NodeId × Link)
  | [] => [(id, link)]
  | (key, held) :: rest =>
    if id.index < key.index then (id, link) :: (key, held) :: rest
    else if id.index = key.index then (id, link) :: rest
    else (key, held) :: insertEntry id link rest

/-- The key of every entry after an insertion is the new key or an old one. -/
theorem mem_insertEntry {id : NodeId} {link : Link} {entries : List (NodeId × Link)}
    {e : NodeId × Link} (h : e ∈ insertEntry id link entries) : e = (id, link) ∨ e ∈ entries := by
  induction entries with
  | nil => simpa [insertEntry] using h
  | cons head rest ih =>
    obtain ⟨key, held⟩ := head
    simp only [insertEntry] at h
    split at h
    · simpa using h
    · split at h
      · simp only [List.mem_cons] at h ⊢
        exact h.imp_right Or.inr
      · simp only [List.mem_cons] at h ⊢
        rcases h with h | h
        · exact Or.inr (Or.inl h)
        · exact (ih h).imp_right Or.inr

/-- An insertion keeps the keys in order. -/
theorem ascending_insertEntry {id : NodeId} {link : Link} {entries : List (NodeId × Link)}
    (h : Ascending entries) : Ascending (insertEntry id link entries) := by
  induction entries with
  | nil => simp [Ascending, insertEntry]
  | cons head rest ih =>
    obtain ⟨key, held⟩ := head
    obtain ⟨hHead, hRest⟩ := List.pairwise_cons.mp h
    simp only [insertEntry]
    split
    · rename_i hLess
      refine List.pairwise_cons.mpr ⟨fun e he => ?_, h⟩
      rcases List.mem_cons.mp he with rfl | he
      · exact hLess
      · exact Nat.lt_trans hLess (hHead e he)
    · split
      · rename_i hEqual
        exact List.pairwise_cons.mpr ⟨fun e he => hEqual ▸ hHead e he, hRest⟩
      · rename_i hNotLess hNotEqual
        refine List.pairwise_cons.mpr ⟨fun e he => ?_, ih hRest⟩
        rcases mem_insertEntry he with rfl | he
        · simp only
          omega
        · exact hHead e he

/-- A side table of links for the nodes of an output tree. -/
@[ext]
structure Table where
  entries : List (NodeId × Link)
  ascending : Ascending entries

namespace Table

/-- No links. -/
def empty : Table := ⟨[], List.Pairwise.nil⟩

/-- The link of an output node. -/
def get? (t : Table) (id : NodeId) : Option Link := t.entries.lookup id

/-- Sets the link of an output node. -/
def insert (t : Table) (id : NodeId) (link : Link) : Table :=
  ⟨insertEntry id link t.entries, ascending_insertEntry t.ascending⟩

/-- The number of links. -/
def size (t : Table) : Nat := t.entries.length

/-- There are no links. -/
def isEmpty (t : Table) : Bool := t.entries.isEmpty

/-- The table of a list of entries; of two entries for one node the later
counts. -/
def ofList (entries : List (NodeId × Link)) : Table :=
  entries.foldl (fun t e => t.insert e.1 e.2) empty

/-- This table with the links of another laid over it. -/
def overlay (base recorded : Table) : Table :=
  recorded.entries.foldl (fun t e => t.insert e.1 e.2) base

/-- Changes every link and keeps the nodes. -/
def mapLinks (t : Table) (f : Link → Link) : Table where
  entries := t.entries.map fun e => (e.1, f e.2)
  ascending := by simpa only [Ascending, List.pairwise_map] using t.ascending

/-- Names the source node of a snapshot, if that is not known yet and the source
tree has a node of the same kind and span. -/
def resolvePredecessor (source : Tree) (walk : List NodeId) (p : Predecessor) : Predecessor :=
  match p.node with
  | some _ => p
  | none => { p with node := source.locateIn? walk p.kind p.span }

/-- Names the source node of every snapshot that can be found in the tree. -/
def resolve (t : Table) (source : Tree) : Table :=
  let walk := source.preorder
  t.mapLinks fun link =>
    { link with predecessors := link.predecessors.map (resolvePredecessor source walk) }

end Table

/-- What can be wrong with a table. -/
inductive ProvenanceFault where
  | outputMissing (output : NodeId)
  | sourceMissing (output source : NodeId)
  | mismatch (output : NodeId) (snapshot actual : Kind × Span)
  | snapshotMissing (predecessor produced : Nat)
deriving DecidableEq

/-- The wording of a fault. -/
def ProvenanceFault.message : ProvenanceFault → String
  | .outputMissing output => "link for missing output node " ++ output.text
  | .sourceMissing output source =>
    "output node " ++ output.text ++ " points at missing source node " ++ source.text
  | .mismatch output snapshot actual =>
    "output node " ++ output.text ++ ": snapshot " ++ snapshot.1.name ++ " " ++
      snapshot.2.text ++ " does not match source " ++ actual.1.name ++ " " ++ actual.2.text
  | .snapshotMissing predecessor produced =>
    "host node " ++ toString predecessor ++ " has no snapshot but is the predecessor of " ++
      toString produced

namespace Table

/-- Checks that a predecessor which names a source node agrees with it. -/
def checkPredecessor (source : Tree) (output : NodeId) (p : Predecessor) :
    Except ProvenanceFault Unit :=
  match p.node with
  | none => .ok ()
  | some id =>
    match source.node? id with
    | none => .error (.sourceMissing output id)
    | some n =>
      if n.kind = p.kind ∧ n.span = p.span then .ok ()
      else .error (.mismatch output (p.kind, p.span) (n.kind, n.span))

/-- Checks the link of one output node. -/
def checkEntry (source output : Tree) (e : NodeId × Link) : Except ProvenanceFault Unit :=
  match output.node? e.1 with
  | none => .error (.outputMissing e.1)
  | some _ => e.2.predecessors.forM (checkPredecessor source e.1)

/-- Checks a table against the two trees: every link belongs to an output node
and every named source node is the one that the snapshot shows. -/
def validate (t : Table) (source output : Tree) : Except ProvenanceFault Unit :=
  t.entries.forM (checkEntry source output)

end Table

end Retrace
