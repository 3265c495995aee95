import Mathlib.Data.List.Sort
import Retrace.Fixture
import Retrace.Proofs.Resolution
import Retrace.Proofs.Wellformed
import Retrace.Proofs.Zip

/-!
# What the check of a fixture looks at

A fixture is checked with the links that count: those of the zip, with the recorded ones laid
over them, all of them resolved. Only the recorded ones can be at fault. The zip links nodes
that are there and shows them as they are; a node that was found for a snapshot was found by
the kind and the span that the check asks for; and laying the recorded links over others
hides none of them.

This holds of the fault that is reported too, not only of the outcome. The check reports the
first link in the order of the output nodes that it refuses, and the order of two tables is
the same where they have the same links, so a table may be changed in links that are not
refused (`Table.validate_congr`). Hence the whole check is that of the recorded table, as it
was recorded (`Fixture.validate_table`), whether the trees are zipped or not.
-/

namespace Retrace

namespace Table

/-! ## The outcome depends on refused links only -/

theorem forM_eq_forM_refused {α : Type} (items : List α)
    (check : α → Except ProvenanceFault Unit) :
    items.forM check = (items.filter fun a => !(check a).isOk).forM check := by
  induction items with
  | nil => rfl
  | cons a rest ih =>
    rw [List.filter_cons]
    cases hCheck : check a with
    | error fault =>
      -- both runs stop here
      show (check a >>= fun _ => rest.forM check) = (check a >>= fun _ => _)
      rw [hCheck]
      rfl
    | ok _ =>
      show (check a >>= fun _ => rest.forM check) = _
      rw [hCheck]
      exact ih

theorem eq_of_ascending {xs ys : List (NodeId × Link)} (hx : Ascending xs) (hy : Ascending ys)
    (h : ∀ e, e ∈ xs ↔ e ∈ ys) : xs = ys := by
  have hIrrefl : Std.Irrefl fun a b : NodeId × Link => a.1.index < b.1.index :=
    ⟨fun a => Nat.lt_irrefl a.1.index⟩
  have hAntisymm : Std.Antisymm fun a b : NodeId × Link => a.1.index < b.1.index :=
    ⟨fun a b hab hba => absurd hab (Nat.lt_asymm hba)⟩
  exact List.Pairwise.eq_of_mem_iff hx hy h

theorem validate_congr {t u : Table} {source output : Tree}
    (h : ∀ id link, checkEntry source output (id, link) ≠ .ok () →
      (t.get? id = some link ↔ u.get? id = some link)) :
    t.validate source output = u.validate source output := by
  have hRefused : (t.entries.filter fun e => !(checkEntry source output e).isOk) =
      u.entries.filter fun e => !(checkEntry source output e).isOk := by
    apply eq_of_ascending
    · exact t.ascending.filter _
    · exact u.ascending.filter _
    · intro e
      rw [List.mem_filter, List.mem_filter, mem_entries_iff, mem_entries_iff]
      apply and_congr_left
      intro hNotOk
      apply h
      intro hOk
      rw [hOk] at hNotOk
      cases hNotOk
  unfold validate
  rw [forM_eq_forM_refused t.entries, forM_eq_forM_refused u.entries, hRefused]

/-! ## Laying one table over another -/

theorem get?_overlay (base recorded : Table) (id : NodeId) :
    (base.overlay recorded).get? id = (recorded.get? id).or (base.get? id) := by
  have hFold : ∀ (entries : List (NodeId × Link)) (t : Table), Ascending entries →
      (entries.foldl (fun t e => t.insert e.1 e.2) t).get? id =
        (entries.lookup id).or (t.get? id) := by
    intro entries
    induction entries with
    | nil => exact fun t _ => rfl
    | cons head rest ih =>
      intro t hAscending
      obtain ⟨key, link⟩ := head
      obtain ⟨hHead, hRest⟩ := List.pairwise_cons.mp hAscending
      rw [List.foldl_cons, ih _ hRest, get?_insert, lookup_entry_cons]
      by_cases hKey : id = key
      · -- the keys go up, so nothing later replaces the link of the first entry
        have hLater : rest.lookup id = none := by
          cases hFound : rest.lookup id with
          | none => rfl
          | some later =>
            have hLess := hHead _ ((lookup_eq_some_iff hRest).mp hFound)
            rw [hKey] at hLess
            exact absurd hLess (Nat.lt_irrefl _)
        simp only [hLater, if_pos hKey, Option.none_or, Option.some_or]
      · simp only [if_neg hKey]
  exact hFold recorded.entries base recorded.ascending

theorem validate_overlay {base recorded : Table} {source output : Tree}
    (hBase : base.validate source output = .ok ()) :
    (base.overlay recorded).validate source output = recorded.validate source output := by
  apply validate_congr
  intro id link hRefused
  rw [get?_overlay, Option.or_eq_some_iff]
  apply or_iff_left
  intro hUnder
  apply hRefused
  exact checkEntry_eq_ok_iff.mpr (validate_eq_ok_iff.mp hBase id link hUnder.2)

/-! ## Links that were not recorded -/

theorem validate_zip (source output : Tree) :
    (zip source output).validate source output = .ok () := by
  apply validate_eq_ok_iff.mpr
  intro id link hLink
  obtain ⟨sourceId, n, hZipped, hNode, rfl⟩ := exists_zipped_of_get? hLink
  obtain ⟨-, o, -, ho, -⟩ := hZipped.matching
  refine ⟨⟨o, ho⟩, ?_⟩
  intro p hp named hNamed
  rw [Link.carried, List.mem_singleton] at hp
  subst hp
  obtain rfl : sourceId = named := Option.some.inj hNamed
  exact ⟨n, hNode, rfl, rfl⟩

theorem checkPredecessor_resolvePredecessor (source : Tree) (output : NodeId) (p : Predecessor) :
    checkPredecessor source output (resolvePredecessor source source.preorder p) =
      checkPredecessor source output p := by
  cases hNamed : p.node with
  | some id => rw [resolvePredecessor_of_named hNamed]
  | none =>
    have hUnnamed : p.Agrees source := by
      intro id hSome
      rw [hNamed] at hSome
      cases hSome
    have hFound : (resolvePredecessor source source.preorder p).Agrees source := by
      rw [resolvePredecessor_of_unnamed hNamed]
      intro id hLocated
      exact (Tree.locate?_eq_some_iff.mp hLocated).2.1
    rw [checkPredecessor_eq_ok_iff.mpr hUnnamed, checkPredecessor_eq_ok_iff.mpr hFound]

theorem validate_resolve (t : Table) (source output : Tree) :
    (t.resolve source).validate source output = t.validate source output := by
  have hEntry : ∀ (id : NodeId) (link : Link),
      checkEntry source output
          (id, ⟨link.predecessors.map (resolvePredecessor source source.preorder), link.steps⟩) =
        checkEntry source output (id, link) := by
    intro id link
    unfold checkEntry
    simp only [List.forM_eq_forM, List.forM_map, checkPredecessor_resolvePredecessor]
  unfold validate
  rw [entries_resolve, List.forM_eq_forM, List.forM_map]
  simp only [hEntry]

end Table

namespace Fixture

theorem validate_table (f : Fixture) :
    f.table.validate f.sourceTree f.outputTree =
      match f.provenance with
      | some recorded => recorded.validate f.sourceTree f.outputTree
      | none => .ok () := by
  have hBase : (if f.zip then Table.zip f.sourceTree f.outputTree else Table.empty).validate
      f.sourceTree f.outputTree = .ok () := by
    split
    · exact Table.validate_zip f.sourceTree f.outputTree
    · rfl
  unfold table
  simp only [Table.validate_resolve]
  cases f.provenance with
  | none => exact hBase
  | some recorded => exact Table.validate_overlay hBase

theorem validate_eq (f : Fixture) :
    f.validate =
      match f.sourceTree.validate (Text.ofString f.source).size,
        f.outputTree.validate (Text.ofString f.output).size, f.provenance with
      | .error fault, _, _ => .error (.tree .source fault)
      | .ok _, .error fault, _ => .error (.tree .output fault)
      | .ok _, .ok _, some recorded =>
        (recorded.validate f.sourceTree f.outputTree).mapError .provenance
      | .ok _, .ok _, none => .ok () := by
  unfold validate
  rw [validate_table]
  cases f.sourceTree.validate (Text.ofString f.source).size with
  | error fault => rfl
  | ok _ =>
    cases f.outputTree.validate (Text.ofString f.output).size with
    | error fault => rfl
    | ok _ => cases f.provenance <;> rfl

theorem validate_eq_ok_iff_recorded (f : Fixture) :
    f.validate = .ok () ↔ f.sourceTree.validate (Text.ofString f.source).size = .ok () ∧
      f.outputTree.validate (Text.ofString f.output).size = .ok () ∧
      ∀ recorded, f.provenance = some recorded →
        recorded.validate f.sourceTree f.outputTree = .ok () := by
  rw [validate_eq]
  cases f.sourceTree.validate (Text.ofString f.source).size with
  | error fault => simp
  | ok _ =>
    cases f.outputTree.validate (Text.ofString f.output).size with
    | error fault => simp
    | ok _ =>
      cases f.provenance with
      | none => simp
      | some recorded =>
        cases hCheck : recorded.validate f.sourceTree f.outputTree with
        | error fault => simp [hCheck, Except.mapError]
        | ok _ => simp [hCheck, Except.mapError]

theorem recorded_of_validate_eq_error {f : Fixture} {fault : ProvenanceFault}
    (h : f.validate = .error (.provenance fault)) :
    ∃ recorded, f.provenance = some recorded ∧
      recorded.validate f.sourceTree f.outputTree = .error fault := by
  rw [validate_eq] at h
  split at h
  · cases h
  · cases h
  · rename_i recorded _ _ hRecorded
    refine ⟨recorded, hRecorded, ?_⟩
    cases hCheck : recorded.validate f.sourceTree f.outputTree with
    | ok _ =>
      rw [hCheck] at h
      cases h
    | error found =>
      rw [hCheck] at h
      cases h
      rfl
  · cases h

/-- The check of a fixture is that of its trees and of the links as they were recorded. -/
structure CheckedAsRecorded (f : Fixture) : Prop where
  accepted : f.validate = .ok () ↔
    f.sourceTree.validate (Text.ofString f.source).size = .ok () ∧
      f.outputTree.validate (Text.ofString f.output).size = .ok () ∧
      ∀ recorded, f.provenance = some recorded → ∀ id link, recorded.get? id = some link →
        (∃ n, f.outputTree.node? id = some n) ∧
          ∀ p ∈ link.predecessors, ∀ named, p.node = some named →
            ∃ n, f.sourceTree.node? named = some n ∧ n.kind = p.kind ∧ n.span = p.span
  flag : ∀ zip, ({ f with zip } : Fixture).validate = f.validate
  zipped : (Table.zip f.sourceTree f.outputTree).validate f.sourceTree f.outputTree = .ok ()
  resolved : ∀ t : Table, (t.resolve f.sourceTree).validate f.sourceTree f.outputTree =
    t.validate f.sourceTree f.outputTree
  fault : ∀ fault, f.validate = .error (.provenance fault) → ∃ recorded,
    f.provenance = some recorded ∧ recorded.validate f.sourceTree f.outputTree = .error fault

/-- **Which fixtures are accepted.** Both trees have to be accepted, every recorded link has
to belong to an output node, and a source node that was recorded has to have the kind and the
span of its snapshot. Whether the trees are zipped makes no difference, not even to the fault
that is reported. No zipped link is refused and no node that was found for a snapshot, so a
link that is refused was recorded as it stands. -/
theorem checkedAsRecorded (f : Fixture) : f.CheckedAsRecorded := by
  constructor
  case accepted =>
    rw [validate_eq_ok_iff_recorded]
    simp only [Table.validate_eq_ok_iff]
    rfl
  case flag =>
    intro zip
    rw [validate_eq, validate_eq]
  case zipped => exact Table.validate_zip f.sourceTree f.outputTree
  case resolved => exact fun t => Table.validate_resolve t f.sourceTree f.outputTree
  case fault => exact fun fault h => recorded_of_validate_eq_error h

end Fixture

end Retrace
