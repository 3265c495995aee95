import Mathlib.Order.Bounds.Defs
import Retrace.Proofs.Resolution
import Retrace.Provenance.Recorder

/-!
# What a recorder keeps of its history

A recorder hears reports of three kinds, for many keys and in any order. What it has to
remember of them can be read off the list of the reports: the first snapshot of a key
(`firstSnapshot?`), the predecessors that were named for a node, each at its first mention,
and the steps that made the node (`madeFrom`). `Recorder.Holds` says that the recorder holds
exactly this. One report keeps it (`Holds.hear`), so it is so after every history
(`holds_after`).

The table is made from what is held, key by key in increasing order, and a later link takes
the place of an earlier one. So the link of an output node is that of the greatest key that
was placed there. Snapshots are asked for at the end only. A snapshot may be taken after its
key was named, and one that is missing matters only if the node made from it was placed.
-/

namespace Retrace

/-- A report of the program that transforms the source tree. -/
inductive Report where
  | snapshot (key : HostKey) (kind : Kind) (span : Span)
  | carry (produced source : HostKey)
  | record (produced : HostKey) (predecessor : Option HostKey) (step : Step)

namespace Report

/-- The snapshot of a key, if the report takes one. -/
def snapshot? (key : HostKey) : Report → Option Predecessor
  | snapshot k kind span => if k = key then some ⟨kind, span, none⟩ else none
  | _ => none

/-- The node that the report is about, if one is being made. -/
def produced? : Report → Option HostKey
  | snapshot _ _ _ => none
  | carry produced _ => some produced
  | record produced _ _ => some produced

/-- The predecessor that the report names for a node. -/
def mention? (produced : HostKey) : Report → Option HostKey
  | snapshot _ _ _ => none
  | carry k source => if k = produced then some source else none
  | record k predecessor _ => if k = produced then predecessor else none

/-- The step by which a node is made. -/
def step? (produced : HostKey) : Report → Option Step
  | record k _ step => if k = produced then some step else none
  | _ => none

end Report

/-! ## Histories -/

/-- Some report says that the node is being made. -/
def Produced (history : List Report) (key : HostKey) : Prop :=
  ∃ report ∈ history, report.produced? = some key

/-- The first snapshot of a key. -/
def firstSnapshot? (history : List Report) (key : HostKey) : Option Predecessor :=
  history.findSome? (Report.snapshot? key)

/-- The predecessors that are named for a node, as often as they are named. -/
def mentions (history : List Report) (produced : HostKey) : List HostKey :=
  history.filterMap (Report.mention? produced)

/-- What a history tells of a node: its predecessors, each once and in the order in which
they were first named, and its steps in the order in which they were taken. -/
def madeFrom (history : List Report) (produced : HostKey) : Pending where
  predecessors := (mentions history produced).eraseDups
  steps := history.filterMap (Report.step? produced)

/-- A node that was placed has `key` as a predecessor, of which no snapshot was ever taken. -/
structure Unshown (history : List Report) (place : HostKey → Option NodeId)
    (node key : HostKey) : Prop where
  produced : Produced history node
  placed : ∃ output, place node = some output
  named : key ∈ mentions history node
  missing : ∀ kind span, Report.snapshot key kind span ∉ history

theorem produced_concat {history : List Report} {report : Report} {key : HostKey} :
    Produced (history ++ [report]) key ↔ Produced history key ∨ report.produced? = some key := by
  unfold Produced
  simp only [List.mem_append, List.mem_singleton, or_and_right, exists_or, exists_eq_left]

theorem firstSnapshot?_concat (history : List Report) (report : Report) (key : HostKey) :
    firstSnapshot? (history ++ [report]) key =
      (firstSnapshot? history key).or (report.snapshot? key) := by
  unfold firstSnapshot?
  rw [List.findSome?_append, List.findSome?_cons]
  cases report.snapshot? key <;> rfl

theorem firstSnapshot?_eq_none_iff {history : List Report} {key : HostKey} :
    firstSnapshot? history key = none ↔
      ∀ kind span, Report.snapshot key kind span ∉ history := by
  unfold firstSnapshot?
  rw [List.findSome?_eq_none_iff]
  constructor
  · intro h kind span hMem
    have hNone := h _ hMem
    simp [Report.snapshot?] at hNone
  · intro h report hMem
    cases report with
    | snapshot k kind span =>
      have hNe : k ≠ key := by
        rintro rfl
        exact h kind span hMem
      simp [Report.snapshot?, hNe]
    | carry produced source => rfl
    | record produced predecessor step => rfl

/-- What is told of a node that is not being made is nothing. -/
theorem madeFrom_of_not_produced {history : List Report} {key : HostKey}
    (h : ¬ Produced history key) : madeFrom history key = ⟨[], []⟩ := by
  have hNone : ∀ report ∈ history,
      Report.mention? key report = none ∧ Report.step? key report = none := by
    intro report hMem
    have hNe : report.produced? ≠ some key := fun hSome => h ⟨report, hMem, hSome⟩
    cases report with
    | snapshot k kind span => exact ⟨rfl, rfl⟩
    | carry produced source =>
      have hKey : produced ≠ key := fun hKey => hNe (congrArg some hKey)
      simp [Report.mention?, Report.step?, hKey]
    | record produced predecessor step =>
      have hKey : produced ≠ key := fun hKey => hNe (congrArg some hKey)
      simp [Report.mention?, Report.step?, hKey]
  have hMentions : mentions history key = [] :=
    List.filterMap_eq_nil_iff.mpr fun report hMem => (hNone report hMem).1
  have hSteps : history.filterMap (Report.step? key) = [] :=
    List.filterMap_eq_nil_iff.mpr fun report hMem => (hNone report hMem).2
  unfold madeFrom
  rw [hMentions, hSteps]
  rfl

theorem eraseDups_concat (keys : List HostKey) (key : HostKey) :
    (keys ++ [key]).eraseDups = Recorder.addPredecessor keys.eraseDups key := by
  unfold Recorder.addPredecessor
  rw [List.eraseDups_append]
  by_cases hMem : key ∈ keys
  · rw [if_pos (List.mem_eraseDups.mpr hMem)]
    simp [List.removeAll, hMem]
  · rw [if_neg fun hErased => hMem (List.mem_eraseDups.mp hErased)]
    simp [List.removeAll, hMem, List.eraseDups_cons]

theorem madeFrom_concat (history : List Report) (report : Report) (key : HostKey) :
    madeFrom (history ++ [report]) key =
      { predecessors := (report.mention? key).elim (madeFrom history key).predecessors
          (Recorder.addPredecessor (madeFrom history key).predecessors)
        steps := (madeFrom history key).steps ++ (report.step? key).toList } := by
  unfold madeFrom mentions
  simp only [List.filterMap_append, List.filterMap_cons, List.filterMap_nil]
  cases hMention : report.mention? key with
  | none => cases hStep : report.step? key <;> simp
  | some source => cases hStep : report.step? key <;> simp [eraseDups_concat]

namespace Recorder

/-- Takes in one report. -/
def hear (r : Recorder) : Report → Recorder
  | .snapshot key kind span => (r.snapshot key kind span).1
  | .carry produced source => r.carry produced source
  | .record produced predecessor step => r.record produced predecessor step

/-- The recorder after a history. -/
def after (history : List Report) : Recorder := history.foldl hear empty

/-! ## Nodes being made -/

/-- The keys go up from one entry to the next. -/
def KeysAscend (pending : List (HostKey × Pending)) : Prop :=
  pending.Pairwise fun a b => a.1 < b.1

theorem lookup_key_cons {α : Type} (key held : HostKey) (a : α) (rest : List (HostKey × α)) :
    ((held, a) :: rest).lookup key = if key = held then some a else rest.lookup key := by
  rw [List.lookup_cons]
  by_cases hKey : key = held
  · simp [hKey]
  · simp only [beq_eq_false_iff_ne.mpr hKey, if_neg hKey]

theorem lookup_eq_none_of_lt {pending : List (HostKey × Pending)} {key : HostKey}
    (h : ∀ e ∈ pending, key < e.1) : pending.lookup key = none := by
  rw [List.lookup_eq_none_iff]
  intro e he
  rw [bne_iff_ne]
  exact Nat.ne_of_lt (h e he)

theorem lookup_pending_eq_some_iff {pending : List (HostKey × Pending)} (h : KeysAscend pending)
    {key : HostKey} {p : Pending} : pending.lookup key = some p ↔ (key, p) ∈ pending := by
  induction pending with
  | nil => simp
  | cons head rest ih =>
    obtain ⟨held, q⟩ := head
    obtain ⟨hHead, hRest⟩ := List.pairwise_cons.mp h
    rw [lookup_key_cons, List.mem_cons, Prod.mk.injEq]
    by_cases hKey : key = held
    · subst hKey
      have hLater : (key, p) ∉ rest := fun hMem => Nat.lt_irrefl _ (hHead (key, p) hMem)
      simp [hLater, eq_comm]
    · rw [if_neg hKey, ih hRest]
      simp [hKey]

theorem mem_update {key : HostKey} {f : Pending → Pending} {pending : List (HostKey × Pending)}
    {e : HostKey × Pending} (h : e ∈ update key f pending) : e.1 = key ∨ e ∈ pending := by
  induction pending with
  | nil =>
    rw [update, List.mem_singleton] at h
    exact Or.inl (congrArg Prod.fst h)
  | cons head rest ih =>
    obtain ⟨held, p⟩ := head
    rw [update] at h
    split_ifs at h with hLess hEqual
    · rcases List.mem_cons.mp h with rfl | hMem
      · exact Or.inl rfl
      · exact Or.inr hMem
    · rcases List.mem_cons.mp h with rfl | hMem
      · exact Or.inl hEqual.symm
      · exact Or.inr (List.mem_cons_of_mem _ hMem)
    · rcases List.mem_cons.mp h with rfl | hMem
      · exact Or.inr List.mem_cons_self
      · exact (ih hMem).imp_right (List.mem_cons_of_mem _)

theorem keysAscend_update {key : HostKey} {f : Pending → Pending}
    {pending : List (HostKey × Pending)} (h : KeysAscend pending) :
    KeysAscend (update key f pending) := by
  induction pending with
  | nil => exact List.pairwise_singleton _ _
  | cons head rest ih =>
    obtain ⟨held, p⟩ := head
    obtain ⟨hHead, hRest⟩ := List.pairwise_cons.mp h
    rw [update]
    split_ifs with hLess hEqual
    · refine List.pairwise_cons.mpr ⟨?_, h⟩
      intro e he
      rcases List.mem_cons.mp he with rfl | hMem
      · exact hLess
      · exact Nat.lt_trans hLess (hHead e hMem)
    · exact List.pairwise_cons.mpr ⟨hHead, hRest⟩
    · refine List.pairwise_cons.mpr ⟨?_, ih hRest⟩
      intro e he
      rcases mem_update he with hKey | hMem
      · rw [hKey]
        exact Nat.lt_of_le_of_ne (Nat.le_of_not_lt hLess) (Ne.symm hEqual)
      · exact hHead e hMem

/-- A change touches one key only, and starts from nothing if the key is new. -/
theorem lookup_update {key : HostKey} {f : Pending → Pending}
    {pending : List (HostKey × Pending)} (h : KeysAscend pending) (k : HostKey) :
    (update key f pending).lookup k =
      if k = key then some (f ((pending.lookup key).getD ⟨[], []⟩)) else pending.lookup k := by
  induction pending with
  | nil => rw [update, lookup_key_cons]; rfl
  | cons head rest ih =>
    obtain ⟨held, p⟩ := head
    obtain ⟨hHead, hRest⟩ := List.pairwise_cons.mp h
    rw [update]
    by_cases hLess : key < held
    · -- all keys of the list are greater, so the key is new
      have hNew : ((held, p) :: rest).lookup key = none := by
        apply lookup_eq_none_of_lt
        intro e he
        rcases List.mem_cons.mp he with rfl | hMem
        · exact hLess
        · exact Nat.lt_trans hLess (hHead e hMem)
      rw [if_pos hLess, lookup_key_cons, hNew]
      rfl
    · rw [if_neg hLess]
      by_cases hEqual : key = held
      · subst hEqual
        simp only [lookup_key_cons, if_true, Option.getD_some]
        by_cases hKey : k = key <;> simp [hKey]
      · rw [if_neg hEqual]
        simp only [lookup_key_cons, if_neg hEqual, ih hRest]
        by_cases hHeld : k = held
        · simp [hHeld, Ne.symm hEqual]
        · simp [hHeld]

/-! ## What is held after a history -/

/-- The recorder holds what the history tells, and nothing else. -/
structure Holds (r : Recorder) (history : List Report) : Prop where
  snapshots : ∀ key, r.snapshots.lookup key = firstSnapshot? history key
  ascend : KeysAscend r.pending
  produced : ∀ key, (∃ p, r.pending.lookup key = some p) ↔ Produced history key
  made : ∀ key p, r.pending.lookup key = some p → p = madeFrom history key

theorem holds_empty : empty.Holds [] where
  snapshots _ := rfl
  ascend := List.Pairwise.nil
  produced key := by simp [empty, Produced]
  made key p h := by cases h

namespace Holds

variable {r : Recorder} {history : List Report}

theorem getD_lookup (h : r.Holds history) (key : HostKey) :
    (r.pending.lookup key).getD ⟨[], []⟩ = madeFrom history key := by
  cases hFound : r.pending.lookup key with
  | some p => exact h.made key p hFound
  | none =>
    have hNot : ¬ Produced history key := by
      intro hProduced
      obtain ⟨p, hSome⟩ := (h.produced key).mpr hProduced
      rw [hFound] at hSome
      cases hSome
    exact (madeFrom_of_not_produced hNot).symm

theorem mem_pending_iff (h : r.Holds history) {key : HostKey} {p : Pending} :
    (key, p) ∈ r.pending ↔ Produced history key ∧ p = madeFrom history key := by
  rw [← lookup_pending_eq_some_iff h.ascend]
  constructor
  · intro hFound
    exact ⟨(h.produced key).mp ⟨p, hFound⟩, h.made key p hFound⟩
  · rintro ⟨hProduced, rfl⟩
    obtain ⟨p, hFound⟩ := (h.produced key).mpr hProduced
    rw [hFound, h.made key p hFound]

theorem snapshot (h : r.Holds history) (key : HostKey) (kind : Kind) (span : Span) :
    (r.snapshot key kind span).1.Holds (history ++ [.snapshot key kind span]) := by
  have hPending : (r.snapshot key kind span).1.pending = r.pending := by
    unfold Recorder.snapshot
    split <;> rfl
  constructor
  case snapshots =>
    intro k
    rw [firstSnapshot?_concat, ← h.snapshots k]
    unfold Recorder.snapshot
    split
    · -- the key has a snapshot already, so the report adds nothing to the look-up
      rename_i first hFirst
      by_cases hKey : key = k
      · subst hKey
        simp [hFirst]
      · simp [Report.snapshot?, hKey]
    · rw [List.lookup_append, lookup_key_cons]
      by_cases hKey : k = key
      · simp [Report.snapshot?, hKey]
      · simp [Report.snapshot?, hKey, Ne.symm hKey]
  case ascend => exact hPending ▸ h.ascend
  case produced =>
    intro k
    rw [hPending, produced_concat, h.produced]
    simp [Report.produced?]
  case made =>
    intro k p hFound
    rw [hPending] at hFound
    rw [h.made k p hFound, madeFrom_concat]
    simp [Report.mention?, Report.step?]

/-- A report about a node changes what is held of that node as `madeFrom` says, and nothing
else. -/
theorem update (h : r.Holds history) {report : Report} {key : HostKey} {f : Pending → Pending}
    (hSnapshot : ∀ k, report.snapshot? k = none) (hProduced : report.produced? = some key)
    (hMade : f (madeFrom history key) = madeFrom (history ++ [report]) key)
    (hOthers : ∀ k, k ≠ key → madeFrom history k = madeFrom (history ++ [report]) k) :
    { r with pending := Recorder.update key f r.pending : Recorder }.Holds
      (history ++ [report]) := by
  constructor
  case snapshots =>
    intro k
    rw [firstSnapshot?_concat, hSnapshot k, Option.or_none]
    exact h.snapshots k
  case ascend => exact keysAscend_update h.ascend
  case produced =>
    intro k
    rw [lookup_update h.ascend, produced_concat, hProduced, ← h.produced]
    by_cases hKey : k = key
    · simp [hKey]
    · simp [hKey, Ne.symm hKey]
  case made =>
    intro k p hFound
    rw [lookup_update h.ascend, h.getD_lookup] at hFound
    by_cases hKey : k = key
    · rw [if_pos hKey] at hFound
      cases hFound
      rw [hMade, hKey]
    · rw [if_neg hKey] at hFound
      rw [h.made k p hFound]
      exact hOthers k hKey

theorem hear (h : r.Holds history) (report : Report) :
    (r.hear report).Holds (history ++ [report]) := by
  cases report with
  | snapshot key kind span => exact h.snapshot key kind span
  | carry produced source =>
    refine h.update (fun _ => rfl) rfl ?_ ?_
    · rw [madeFrom_concat]
      simp [Report.mention?, Report.step?]
    · intro k hKey
      rw [madeFrom_concat]
      simp [Report.mention?, Report.step?, Ne.symm hKey]
  | record produced predecessor step =>
    refine h.update (fun _ => rfl) rfl ?_ ?_
    · rw [madeFrom_concat]
      simp [Report.mention?, Report.step?]
    · intro k hKey
      rw [madeFrom_concat]
      simp [Report.mention?, Report.step?, Ne.symm hKey]

end Holds

theorem holds_after (history : List Report) : (after history).Holds history := by
  induction history using List.reverseRecOn with
  | nil => exact holds_empty
  | append_singleton history report ih =>
    unfold after
    rw [List.foldl_append]
    exact ih.hear report

/-! ## The links of what is held -/

/-- The link lists the snapshots of the predecessors that are known of a node, and its
steps. -/
structure Shows (r : Recorder) (p : Pending) (link : Link) : Prop where
  predecessors : List.Forall₂ (fun key found => r.snapshots.lookup key = some found)
    p.predecessors link.predecessors
  steps : link.steps = p.steps

theorem Shows.exists_lookup {r : Recorder} {p : Pending} {link : Link} (h : r.Shows p link)
    {key : HostKey} (hMem : key ∈ p.predecessors) :
    ∃ found, r.snapshots.lookup key = some found := by
  obtain ⟨⟨i, hi⟩, rfl⟩ := List.mem_iff_get.mp hMem
  exact ⟨_, h.predecessors.get hi (h.predecessors.length_eq ▸ hi)⟩

theorem forall₂_of_mapM_snapshotOf {r : Recorder} {produced : HostKey} {keys : List HostKey}
    {found : List Predecessor} (h : keys.mapM (r.snapshotOf produced) = .ok found) :
    List.Forall₂ (fun key p => r.snapshots.lookup key = some p) keys found := by
  induction keys generalizing found with
  | nil =>
    cases h
    exact List.Forall₂.nil
  | cons key rest ih =>
    rw [List.mapM_cons, snapshotOf] at h
    cases hFirst : r.snapshots.lookup key with
    | none =>
      rw [hFirst] at h
      cases h
    | some p =>
      rw [hFirst] at h
      cases hRest : rest.mapM (r.snapshotOf produced) with
      | error fault =>
        rw [hRest] at h
        cases h
      | ok others =>
        rw [hRest] at h
        cases h
        exact List.Forall₂.cons hFirst (ih hRest)

theorem exists_of_mapM_snapshotOf {r : Recorder} {produced : HostKey} {keys : List HostKey}
    {fault : ProvenanceFault} (h : keys.mapM (r.snapshotOf produced) = .error fault) :
    ∃ key ∈ keys, r.snapshots.lookup key = none ∧ fault = .snapshotMissing key produced := by
  induction keys with
  | nil => cases h
  | cons key rest ih =>
    rw [List.mapM_cons, snapshotOf] at h
    cases hFirst : r.snapshots.lookup key with
    | none =>
      rw [hFirst] at h
      cases h
      exact ⟨key, List.mem_cons_self, hFirst, rfl⟩
    | some p =>
      rw [hFirst] at h
      cases hRest : rest.mapM (r.snapshotOf produced) with
      | error other =>
        rw [hRest] at h
        cases h
        obtain ⟨missing, hMem, hMissing⟩ := ih hRest
        exact ⟨missing, List.mem_cons_of_mem _ hMem, hMissing⟩
      | ok others =>
        rw [hRest] at h
        cases h

variable {r : Recorder} {place : HostKey → Option NodeId}

/-- What one entry adds to a table that is made without a fault. -/
theorem links_cons_eq_ok {table t : Table} {e : HostKey × Pending}
    {rest : List (HostKey × Pending)} (h : links r place table (e :: rest) = .ok t) :
    (place e.1 = none ∧ links r place table rest = .ok t) ∨
      ∃ output link, place e.1 = some output ∧ r.Shows e.2 link ∧
        links r place (table.insert output link) rest = .ok t := by
  obtain ⟨produced, p⟩ := e
  rw [links] at h
  split at h
  · rename_i hPlace
    exact Or.inl ⟨hPlace, h⟩
  · rename_i output hPlace
    split at h
    · cases h
    · rename_i found hFound
      exact Or.inr ⟨output, ⟨found, p.steps⟩, hPlace, ⟨forall₂_of_mapM_snapshotOf hFound, rfl⟩, h⟩

theorem exists_of_links_eq_error {table : Table} {pending : List (HostKey × Pending)}
    {fault : ProvenanceFault} (h : links r place table pending = .error fault) :
    ∃ e ∈ pending, ∃ output, place e.1 = some output ∧ ∃ key ∈ e.2.predecessors,
      r.snapshots.lookup key = none ∧ fault = .snapshotMissing key e.1 := by
  induction pending generalizing table with
  | nil => cases h
  | cons e rest ih =>
    obtain ⟨produced, p⟩ := e
    have hLater : ∀ {t : Table}, links r place t rest = .error fault →
        ∃ e ∈ (produced, p) :: rest, ∃ output, place e.1 = some output ∧
          ∃ key ∈ e.2.predecessors,
            r.snapshots.lookup key = none ∧ fault = .snapshotMissing key e.1 := by
      intro t hRest
      obtain ⟨e, hMem, hFault⟩ := ih hRest
      exact ⟨e, List.mem_cons_of_mem _ hMem, hFault⟩
    rw [links] at h
    split at h
    · exact hLater h
    · rename_i output hPlace
      split at h
      · rename_i other hOther
        cases h
        exact ⟨(produced, p), List.mem_cons_self, output, hPlace, exists_of_mapM_snapshotOf hOther⟩
      · exact hLater h

theorem exists_shows_of_links {table t : Table} {pending : List (HostKey × Pending)}
    (h : links r place table pending = .ok t) {e : HostKey × Pending} (hMem : e ∈ pending)
    {output : NodeId} (hPlace : place e.1 = some output) : ∃ link, r.Shows e.2 link := by
  induction pending generalizing table with
  | nil => cases hMem
  | cons head rest ih =>
    rcases links_cons_eq_ok h with ⟨hNone, hRest⟩ | ⟨first, link, -, hShows, hRest⟩
    · rcases List.mem_cons.mp hMem with rfl | hLater
      · rw [hPlace] at hNone
        cases hNone
      · exact ih hRest hLater
    · rcases List.mem_cons.mp hMem with rfl | hLater
      · exact ⟨link, hShows⟩
      · exact ih hRest hLater

theorem exists_get?_of_links {table t : Table} {pending : List (HostKey × Pending)} {id : NodeId}
    (h : links r place table pending = .ok t)
    (hLinked : (∃ link, table.get? id = some link) ∨ ∃ e ∈ pending, place e.1 = some id) :
    ∃ link, t.get? id = some link := by
  induction pending generalizing table with
  | nil =>
    cases h
    exact hLinked.resolve_right (by simp)
  | cons head rest ih =>
    rcases links_cons_eq_ok h with ⟨hNone, hRest⟩ | ⟨output, link, hPlace, -, hRest⟩
    · apply ih hRest
      apply hLinked.imp_right
      rintro ⟨e, hMem, hPlaced⟩
      rcases List.mem_cons.mp hMem with rfl | hLater
      · rw [hPlaced] at hNone
        cases hNone
      · exact ⟨e, hLater, hPlaced⟩
    · apply ih hRest
      rw [Table.get?_insert]
      by_cases hId : id = output
      · exact Or.inl ⟨link, if_pos hId⟩
      · rw [if_neg hId]
        apply hLinked.imp_right
        rintro ⟨e, hMem, hPlaced⟩
        rcases List.mem_cons.mp hMem with rfl | hLater
        · rw [hPlaced] at hPlace
          cases hPlace
          exact absurd rfl hId
        · exact ⟨e, hLater, hPlaced⟩

/-- A link of the table is that of the last entry that was placed at its node. -/
theorem last_of_get?_links {table t : Table} {pending : List (HostKey × Pending)} {id : NodeId}
    {link : Link} (h : links r place table pending = .ok t) (hGet : t.get? id = some link) :
    (table.get? id = some link ∧ ∀ e ∈ pending, place e.1 ≠ some id) ∨
      ∃ front e back, pending = front ++ e :: back ∧ place e.1 = some id ∧
        (∀ later ∈ back, place later.1 ≠ some id) ∧ r.Shows e.2 link := by
  induction pending generalizing table with
  | nil =>
    cases h
    exact Or.inl ⟨hGet, by simp⟩
  | cons head rest ih =>
    rcases links_cons_eq_ok h with ⟨hNone, hRest⟩ | ⟨output, shown, hPlace, hShows, hRest⟩
    · rcases ih hRest with ⟨hOld, hElsewhere⟩ | ⟨front, e, back, rfl, hLast⟩
      · refine Or.inl ⟨hOld, List.forall_mem_cons.mpr ⟨?_, hElsewhere⟩⟩
        rw [hNone]
        exact Option.some_ne_none id |>.symm
      · exact Or.inr ⟨head :: front, e, back, rfl, hLast⟩
    · rcases ih hRest with ⟨hOld, hElsewhere⟩ | ⟨front, e, back, rfl, hLast⟩
      · rw [Table.get?_insert] at hOld
        by_cases hId : id = output
        · rw [if_pos hId] at hOld
          cases hOld
          subst hId
          exact Or.inr ⟨[], head, rest, rfl, hPlace, hElsewhere, hShows⟩
        · rw [if_neg hId] at hOld
          refine Or.inl ⟨hOld, List.forall_mem_cons.mpr ⟨?_, hElsewhere⟩⟩
          rw [hPlace]
          exact fun hSame => hId (Option.some.inj hSame).symm
      · exact Or.inr ⟨head :: front, e, back, rfl, hLast⟩

/-! ## The table of a history -/

/-- The link tells of a node what the history does: its predecessors in the order in which
they were first named, each as it was at its first snapshot and looked up in the source
tree, and all its steps. -/
structure Tells (history : List Report) (source : Tree) (key : HostKey) (link : Link) : Prop where
  predecessors : List.Forall₂
    (fun k p => ∃ first, firstSnapshot? history k = some first ∧ first.Resolved source p)
    (madeFrom history key).predecessors link.predecessors
  steps : link.steps = (madeFrom history key).steps

/-- The table has links for the nodes at which something was placed, and the link of a node
is that of the greatest key placed there. -/
structure Keeps (history : List Report) (source : Tree) (place : HostKey → Option NodeId)
    (table : Table) : Prop where
  linked : ∀ id, (∃ link, table.get? id = some link) ↔
    ∃ key, Produced history key ∧ place key = some id
  greatest : ∀ id link, table.get? id = some link → ∃ key,
    IsGreatest {k | Produced history k ∧ place k = some id} key ∧ Tells history source key link

namespace Holds

variable {history : List Report}

theorem tells (h : r.Holds history) {key : HostKey} {link : Link}
    (hShows : r.Shows (madeFrom history key) link) (source : Tree) :
    Tells history source key
      ⟨link.predecessors.map (Table.resolvePredecessor source source.preorder), link.steps⟩ where
  predecessors := by
    rw [List.forall₂_map_right_iff]
    apply hShows.predecessors.imp
    intro k found hFound
    refine ⟨found, ?_, Table.resolved_resolvePredecessor source found⟩
    rw [← h.snapshots k]
    exact hFound
  steps := hShows.steps

theorem unshown_of_error (h : r.Holds history) {fault : ProvenanceFault}
    (hFault : links r place .empty r.pending = .error fault) :
    ∃ node key, fault = .snapshotMissing key node ∧ Unshown history place node key := by
  obtain ⟨⟨node, p⟩, hMem, output, hPlace, key, hKey, hNone, rfl⟩ :=
    exists_of_links_eq_error hFault
  obtain ⟨hProduced, rfl⟩ := h.mem_pending_iff.mp hMem
  refine ⟨node, key, rfl, hProduced, ⟨output, hPlace⟩, List.mem_eraseDups.mp hKey, ?_⟩
  apply firstSnapshot?_eq_none_iff.mp
  rw [← h.snapshots key]
  exact hNone

theorem not_unshown_of_ok (h : r.Holds history) {t : Table}
    (hLinks : links r place .empty r.pending = .ok t) (node key : HostKey) :
    ¬ Unshown history place node key := by
  intro hUnshown
  obtain ⟨output, hPlace⟩ := hUnshown.placed
  obtain ⟨link, hShows⟩ :=
    exists_shows_of_links hLinks (h.mem_pending_iff.mpr ⟨hUnshown.produced, rfl⟩) hPlace
  obtain ⟨found, hFound⟩ := hShows.exists_lookup (List.mem_eraseDups.mpr hUnshown.named)
  rw [h.snapshots key, firstSnapshot?_eq_none_iff.mpr hUnshown.missing] at hFound
  cases hFound

/-- Entries come in the order of their keys, so the last one placed at a node has the
greatest key. -/
theorem exists_greatest_of_get? (h : r.Holds history) {t : Table}
    (hLinks : links r place .empty r.pending = .ok t) {id : NodeId} {link : Link}
    (hGet : t.get? id = some link) :
    ∃ key, IsGreatest {k | Produced history k ∧ place k = some id} key ∧
      r.Shows (madeFrom history key) link := by
  rcases last_of_get?_links hLinks hGet with ⟨hNone, -⟩ |
    ⟨front, ⟨key, p⟩, back, hPending, hPlace, hLater, hShows⟩
  · cases hNone
  have hMem : (key, p) ∈ r.pending := by
    rw [hPending]
    exact List.mem_append_right front List.mem_cons_self
  obtain ⟨hProduced, rfl⟩ := h.mem_pending_iff.mp hMem
  refine ⟨key, ⟨⟨hProduced, hPlace⟩, ?_⟩, hShows⟩
  rintro k ⟨hOther, hPlaced⟩
  have hOtherMem := h.mem_pending_iff.mpr ⟨hOther, rfl⟩
  have hAscend := h.ascend
  unfold KeysAscend at hAscend
  rw [hPending] at hOtherMem hAscend
  rcases List.mem_append.mp hOtherMem with hFront | hBack
  · exact Nat.le_of_lt ((List.pairwise_append.mp hAscend).2.2 _ hFront _ List.mem_cons_self)
  · rcases List.mem_cons.mp hBack with hSame | hBehind
    · exact Nat.le_of_eq (congrArg Prod.fst hSame)
    · exact absurd hPlaced (hLater _ hBehind)

theorem keeps (h : r.Holds history) {t : Table}
    (hLinks : links r place .empty r.pending = .ok t) (source : Tree) :
    Keeps history source place (t.resolve source) := by
  have hResolve : ∀ id, (t.resolve source).get? id = (t.get? id).map fun link =>
      ⟨link.predecessors.map (Table.resolvePredecessor source source.preorder), link.steps⟩ :=
    fun id => Table.get?_mapLinks t _ id
  constructor
  case linked =>
    intro id
    rw [hResolve]
    constructor
    · rintro ⟨link, hGet⟩
      obtain ⟨raw, hRaw, -⟩ := Option.map_eq_some_iff.mp hGet
      obtain ⟨key, hGreatest, -⟩ := h.exists_greatest_of_get? hLinks hRaw
      exact ⟨key, hGreatest.1⟩
    · rintro ⟨key, hProduced, hPlace⟩
      have hMem := h.mem_pending_iff.mpr ⟨hProduced, rfl⟩
      obtain ⟨raw, hRaw⟩ := exists_get?_of_links hLinks (Or.inr ⟨_, hMem, hPlace⟩)
      exact ⟨_, Option.map_eq_some_iff.mpr ⟨raw, hRaw, rfl⟩⟩
  case greatest =>
    intro id link hGet
    rw [hResolve] at hGet
    obtain ⟨raw, hRaw, rfl⟩ := Option.map_eq_some_iff.mp hGet
    obtain ⟨key, hGreatest, hShows⟩ := h.exists_greatest_of_get? hLinks hRaw
    exact ⟨key, hGreatest, h.tells hShows source⟩

end Holds

/-- **A recorder keeps exactly the recorded history.** Whatever was reported and in whatever
order, the table cannot be made exactly if some node was placed of which a predecessor was
never shown, and the fault then names such a pair. Otherwise there is a table. It has links
for the output nodes at which a key was placed, and the link of an output node tells what the
history says of the greatest key placed there. -/
theorem finish_keeps_history (history : List Report) (source : Tree)
    (place : HostKey → Option NodeId) :
    ((∃ fault, (after history).finish source place = .error fault) ↔
        ∃ node key, Unshown history place node key) ∧
      (∀ fault, (after history).finish source place = .error fault →
        ∃ node key, fault = .snapshotMissing key node ∧ Unshown history place node key) ∧
      ((¬ ∃ node key, Unshown history place node key) →
        ∃ table, (after history).finish source place = .ok table ∧
          Keeps history source place table) := by
  have hHolds := holds_after history
  unfold finish
  cases hLinks : links (after history) place .empty (after history).pending with
  | error fault =>
    obtain ⟨node, key, rfl, hUnshown⟩ := hHolds.unshown_of_error hLinks
    refine ⟨⟨fun _ => ⟨node, key, hUnshown⟩, fun _ => ⟨_, rfl⟩⟩, ?_, ?_⟩
    · intro fault hFault
      cases hFault
      exact ⟨node, key, rfl, hUnshown⟩
    · intro hNone
      exact absurd ⟨node, key, hUnshown⟩ hNone
  | ok table =>
    refine ⟨⟨?_, ?_⟩, ?_, ?_⟩
    · rintro ⟨fault, hFault⟩
      cases hFault
    · rintro ⟨node, key, hUnshown⟩
      exact absurd hUnshown (hHolds.not_unshown_of_ok hLinks node key)
    · intro fault hFault
      cases hFault
    · intro _
      exact ⟨table.resolve source, rfl, hHolds.keeps hLinks source⟩

/-- A node is named before its first snapshot and shown twice, two keys land on one output
node, and a key without a snapshot is not placed. -/
def lateSnapshot : List Report :=
  [.record 2 (some 1) ⟨"fold", none⟩, .carry 3 1, .snapshot 1 .identifier (.upTo 1), .carry 9 8,
    .snapshot 1 .identifier (.upTo 4), .record 3 (some 1) ⟨"wrap", none⟩]

example :
    ((after lateSnapshot).finish ⟨⟨0⟩, #[⟨.upTo 1, false, ⟨.identifier, ⟨"a"⟩⟩⟩]⟩
        fun key => if key < 4 then some ⟨7⟩ else none).map (·.entries) =
      .ok [(⟨7⟩, ⟨[⟨.identifier, .upTo 1, some ⟨0⟩⟩], [⟨"wrap", none⟩]⟩)] := by
  cbv

end Recorder

end Retrace
