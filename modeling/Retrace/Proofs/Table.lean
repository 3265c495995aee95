import Retrace.Provenance.Table

/-!
# Look-ups in a table

What each operation on a table does to its look-ups: `Table.get?` is the view
through which tables are spoken about, and nothing else is said of their entries.
The check of a table is a statement about its look-ups too (`Table.validate_eq_ok_iff`):
every link belongs to an output node, and a predecessor that names a source node shows
the kind and the span of that node. Of a predecessor that names none it asks nothing.
-/

namespace Retrace

theorem lookup_entry_cons (key held : NodeId) (link : Link) (rest : List (NodeId × Link)) :
    ((held, link) :: rest).lookup key = if key = held then some link else rest.lookup key := by
  rw [List.lookup_cons]
  by_cases hKey : key = held
  · simp [hKey]
  · simp only [beq_eq_false_iff_ne.mpr hKey, if_neg hKey]

theorem lookup_insertEntry {id key : NodeId} {link : Link} {entries : List (NodeId × Link)} :
    (insertEntry id link entries).lookup key =
      if key = id then some link else entries.lookup key := by
  induction entries with
  | nil => rw [insertEntry, lookup_entry_cons]
  | cons head rest ih =>
    obtain ⟨held, old⟩ := head
    rw [insertEntry]
    split
    · rw [lookup_entry_cons]
    · split
      · rename_i hEqual
        have hSame : id = held := by
          cases id
          cases held
          exact congrArg NodeId.mk hEqual
        subst hSame
        rw [lookup_entry_cons, lookup_entry_cons]
        by_cases hKey : key = id <;> simp [hKey]
      · rename_i hNotEqual
        have hNe : held ≠ id := fun h => hNotEqual (by rw [h])
        rw [lookup_entry_cons, lookup_entry_cons, ih]
        by_cases hHeld : key = held <;> simp [hHeld, hNe]

/-- In a list with ascending keys a look-up finds every entry. -/
theorem lookup_eq_some_iff {entries : List (NodeId × Link)} (h : Ascending entries) {id : NodeId}
    {link : Link} : entries.lookup id = some link ↔ (id, link) ∈ entries := by
  induction entries with
  | nil => simp
  | cons head rest ih =>
    obtain ⟨held, old⟩ := head
    obtain ⟨hHead, hRest⟩ := List.pairwise_cons.mp h
    rw [lookup_entry_cons, List.mem_cons, Prod.mk.injEq]
    by_cases hKey : id = held
    · have hLater : (id, link) ∉ rest := by
        intro hMem
        have hLess := hHead (id, link) hMem
        rw [hKey] at hLess
        exact Nat.lt_irrefl _ hLess
      rw [if_pos hKey, Option.some.injEq, or_iff_left hLater, and_iff_right hKey]
      exact eq_comm
    · rw [if_neg hKey, ih hRest]
      simp [hKey]

namespace Table

@[simp]
theorem get?_empty (id : NodeId) : empty.get? id = none := rfl

theorem get?_insert (t : Table) (id key : NodeId) (link : Link) :
    (t.insert id link).get? key = if key = id then some link else t.get? key :=
  lookup_insertEntry

theorem get?_mapLinks (t : Table) (f : Link → Link) (id : NodeId) :
    (t.mapLinks f).get? id = (t.get? id).map f := by
  have hEntries : ∀ entries : List (NodeId × Link),
      (entries.map fun e => (e.1, f e.2)).lookup id = (entries.lookup id).map f := by
    intro entries
    induction entries with
    | nil => rfl
    | cons head rest ih =>
      rw [List.map_cons, lookup_entry_cons, lookup_entry_cons]
      split
      · rfl
      · exact ih
  exact hEntries t.entries

/-- A link that is found in the table of a list is one of that list. -/
theorem mem_of_get?_ofList {entries : List (NodeId × Link)} {id : NodeId} {link : Link}
    (h : (ofList entries).get? id = some link) : (id, link) ∈ entries := by
  have hFold : ∀ (rest : List (NodeId × Link)) (t : Table),
      (rest.foldl (fun t e => t.insert e.1 e.2) t).get? id = some link →
        (id, link) ∈ rest ∨ t.get? id = some link := by
    intro rest
    induction rest with
    | nil => exact fun t h => Or.inr h
    | cons e rest ih =>
      intro t h
      rcases ih (t.insert e.1 e.2) h with hMem | hGet
      · exact Or.inl (List.mem_cons_of_mem _ hMem)
      · rw [get?_insert] at hGet
        split at hGet
        · rename_i hId
          cases hGet
          exact Or.inl (by simp [hId])
        · exact Or.inr hGet
  rcases hFold entries empty h with hMem | hNone
  · exact hMem
  · simp at hNone

/-- Every node of a list of entries has a link in the table of that list. -/
theorem exists_get?_ofList {entries : List (NodeId × Link)} {id : NodeId} {link : Link}
    (h : (id, link) ∈ entries) : ∃ found, (ofList entries).get? id = some found := by
  have hFold : ∀ (rest : List (NodeId × Link)) (t : Table),
      ((id, link) ∈ rest ∨ ∃ found, t.get? id = some found) →
        ∃ found, (rest.foldl (fun t e => t.insert e.1 e.2) t).get? id = some found := by
    intro rest
    induction rest with
    | nil =>
      intro t h
      exact h.resolve_left List.not_mem_nil
    | cons e rest ih =>
      intro t h
      refine ih (t.insert e.1 e.2) ?_
      rw [get?_insert]
      split
      · exact Or.inr ⟨e.2, rfl⟩
      · rename_i hNe
        refine h.imp_left fun hMem => ?_
        rcases List.mem_cons.mp hMem with rfl | hRest
        · exact absurd rfl hNe
        · exact hRest
  exact hFold entries empty (Or.inl h)

theorem mem_entries_iff {t : Table} {id : NodeId} {link : Link} :
    (id, link) ∈ t.entries ↔ t.get? id = some link :=
  (lookup_eq_some_iff t.ascending).symm

end Table

/-! ## The check of a table -/

/-- A source node that the snapshot names has the kind and the span of the snapshot. -/
def Predecessor.Agrees (p : Predecessor) (source : Tree) : Prop :=
  ∀ id, p.node = some id → ∃ n, source.node? id = some n ∧ n.kind = p.kind ∧ n.span = p.span

theorem forM_eq_ok_iff {α : Type} {items : List α} {check : α → Except ProvenanceFault Unit} :
    items.forM check = .ok () ↔ ∀ a ∈ items, check a = .ok () := by
  induction items with
  | nil => simp [pure, Except.pure]
  | cons a rest ih =>
    rw [List.forM, List.forall_mem_cons, ← ih]
    cases hCheck : check a with
    | error fault => simp [bind, Except.bind]
    | ok _ => simp [bind, Except.bind]

namespace Table

theorem checkPredecessor_eq_ok_iff {source : Tree} {output : NodeId} {p : Predecessor} :
    checkPredecessor source output p = .ok () ↔ p.Agrees source := by
  unfold checkPredecessor Predecessor.Agrees
  cases hNamed : p.node with
  | none => simp
  | some id =>
    cases hNode : source.node? id with
    | none => simp [hNode]
    | some n => simp [hNode]

theorem checkEntry_eq_ok_iff {source output : Tree} {id : NodeId} {link : Link} :
    checkEntry source output (id, link) = .ok () ↔
      (∃ n, output.node? id = some n) ∧ ∀ p ∈ link.predecessors, p.Agrees source := by
  unfold checkEntry
  cases hNode : output.node? id with
  | none => simp
  | some n =>
    simp only [forM_eq_ok_iff, checkPredecessor_eq_ok_iff, Option.some.injEq, exists_eq', true_and]

/-- The check accepts the tables whose links belong to output nodes and agree with the
source nodes they name. -/
theorem validate_eq_ok_iff {t : Table} {source output : Tree} :
    t.validate source output = .ok () ↔ ∀ id link, t.get? id = some link →
      (∃ n, output.node? id = some n) ∧ ∀ p ∈ link.predecessors, p.Agrees source := by
  unfold validate
  rw [forM_eq_ok_iff]
  constructor
  · intro h id link hGet
    exact checkEntry_eq_ok_iff.mp (h (id, link) (mem_entries_iff.mpr hGet))
  · rintro h ⟨id, link⟩ hMem
    exact checkEntry_eq_ok_iff.mpr (h id link (mem_entries_iff.mp hMem))

end Table

end Retrace
