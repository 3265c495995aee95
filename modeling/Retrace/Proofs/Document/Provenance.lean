import Retrace.Document.Provenance
import Retrace.Proofs.Document.Syntax

/-!
# Links and tables that were just written

The keys of a table are written as decimal numerals, so a table is read back because
a number is read back from its digits: these are all digits, and the first one is not
zero unless it is the only one (`exists_digits_of_pos`). The entries stand in the order
of their keys, and to insert them one by one in this order puts each behind the others.
-/

namespace Retrace

namespace Predecessor

/-- The span and the node are such that documents can hold them. -/
@[mk_iff]
structure Representable (p : Predecessor) : Prop where
  span : p.span.Representable
  node : ∀ id ∈ p.node, id.Representable

theorem ofJson?_toJson {p : Predecessor} (h : p.Representable) : ofJson? p.toJson = some p := by
  simp only [ofJson?, Option.bind_eq_bind, Option.bind_eq_some_iff]
  refine ⟨_, rfl, p.kind, ?_, p.span, ?_, p.node, ?_, rfl⟩
  · exact Json.required?_of_field? Kind.toJson (by simp) (Kind.ofJson?_toJson p.kind)
  · exact Json.required?_of_field? Span.toJson (by simp) (Span.ofJson?_toJson h.span)
  · refine Json.optional?_of_field? NodeId.toJson (Or.inl (by simp)) rfl ?_
    intro id hId
    exact NodeId.ofJson?_toJson (h.node id hId)

theorem listOf?_of_field? {fields : List (String × Json)} {predecessors : List Predecessor}
    (hField : Json.field? fields "predecessors" = some (.list toJson predecessors))
    (h : ∀ p ∈ predecessors, p.Representable) : listOf? fields = some predecessors := by
  refine Json.defaulted?_of_field? (.list toJson) hField (Json.asList?_list ?_)
  intro p hp
  exact ofJson?_toJson (h p hp)

end Predecessor

namespace Step

theorem ofJson?_toJson (s : Step) : ofJson? s.toJson = some s := by
  simp only [ofJson?, Option.bind_eq_bind, Option.bind_eq_some_iff]
  refine ⟨_, rfl, s.transformer, ?_, s.location, ?_, rfl⟩
  · exact Json.required?_of_field? .str (by simp) rfl
  · exact Json.optional?_of_field? .str (Or.inl (by simp)) rfl fun _ _ => rfl

theorem asList?_toJson (steps : List Step) :
    (Json.list toJson steps).asList? ofJson? = some steps :=
  Json.asList?_list fun s _ => ofJson?_toJson s

@[simp]
theorem field?_fieldOf (steps : List Step) (name : String) :
    Json.field? (fieldOf steps) name =
      if name = "steps" ∧ steps ≠ [] then some (.list toJson steps) else none := by
  cases steps with
  | nil => simp [fieldOf]
  | cons s rest => simp [fieldOf]

theorem listOf?_of_field? {fields : List (String × Json)} {steps : List Step}
    (h : Json.field? fields "steps" = Json.field? (fieldOf steps) "steps") :
    listOf? fields = some steps := by
  cases steps with
  | nil =>
    have hNone : Json.field? fields "steps" = none := h
    rw [listOf?, Json.defaulted?, hNone]
  | cons s rest =>
    rw [field?_fieldOf, if_pos ⟨rfl, List.cons_ne_nil s rest⟩] at h
    exact Json.defaulted?_of_field? (.list toJson) h (asList?_toJson _)

end Step

namespace Link

/-- Every predecessor is one that documents can hold. -/
def Representable (l : Link) : Prop := ∀ p ∈ l.predecessors, p.Representable

theorem ofJson?_toJson {l : Link} (h : l.Representable) : ofJson? l.toJson = some l := by
  simp only [ofJson?, Option.bind_eq_bind, Option.bind_eq_some_iff]
  refine ⟨_, rfl, l.predecessors, ?_, l.steps, ?_, rfl⟩
  · exact Predecessor.listOf?_of_field? (by simp) h
  · exact Step.listOf?_of_field? (by simp)

end Link

/-! ## Keys -/

theorem digitOf?_digitChar {d : Nat} (h : d < 10) : digitOf? d.digitChar = some d := by
  revert d
  decide

/-- The digits of a positive number start with one that is not zero, and put together
they give the number. -/
theorem exists_digits_of_pos {n : Nat} (h : 0 < n) :
    ∃ first rest, (Nat.toDigits 10 n).mapM digitOf? = some (first :: rest) ∧ first ≠ 0 ∧
      (first :: rest).foldl (fun m d => m * 10 + d) 0 = n := by
  induction n using Nat.strongRecOn with
  | ind n ih =>
    by_cases hDigit : n < 10
    · rw [Nat.toDigits_of_lt_base hDigit]
      refine ⟨n, [], ?_, by omega, by simp⟩
      simp [digitOf?_digitChar hDigit]
    · -- The last digit comes behind the digits of the tenth part.
      obtain ⟨first, rest, hDigits, hFirst, hValue⟩ := ih (n / 10) (by omega) (by omega)
      have hLast : digitOf? (n % 10).digitChar = some (n % 10) :=
        digitOf?_digitChar (Nat.mod_lt n (by decide))
      rw [Nat.toDigits_of_base_le (by decide) (by omega)]
      refine ⟨first, rest ++ [n % 10], ?_, hFirst, ?_⟩
      · simp [List.mapM_append, hDigits, hLast]
      · rw [← List.cons_append, List.foldl_append, hValue]
        simp only [List.foldl_cons, List.foldl_nil]
        omega

theorem plainDecimal?_toString (n : Nat) : plainDecimal? (toString n) = some n := by
  rw [plainDecimal?, Nat.toString_eq_ofList_toDigits, String.toList_ofList]
  rcases Nat.eq_zero_or_pos n with rfl | hPos
  · rfl
  · obtain ⟨first, rest, hDigits, hFirst, hValue⟩ := exists_digits_of_pos hPos
    rw [hDigits]
    cases rest with
    | nil => simpa using hValue
    | cons second rest => simpa [hFirst] using hValue

namespace Table

theorem keyOf?_toString {id : NodeId} (h : id.Representable) :
    keyOf? (toString id.index) = some id := by
  have hBound : id.index < offsetBound := h
  simp only [keyOf?, Option.bind_eq_bind, Option.bind_eq_some_iff]
  exact ⟨id.index, plainDecimal?_toString id.index, if_pos hBound⟩

/-! ## Entries -/

theorem insertEntry_eq_append {id : NodeId} {link : Link} {entries : List (NodeId × Link)}
    (h : ∀ e ∈ entries, e.1.index < id.index) :
    insertEntry id link entries = entries ++ [(id, link)] := by
  induction entries with
  | nil => rfl
  | cons head rest ih =>
    obtain ⟨hHead, hRest⟩ := List.forall_mem_cons.mp h
    have hNotLess : ¬ id.index < head.1.index := by omega
    have hNotEqual : ¬ id.index = head.1.index := by omega
    rw [insertEntry, if_neg hNotLess, if_neg hNotEqual, ih hRest, List.cons_append]

/-- Entries with keys above those of a table, inserted in their order, end up behind it. -/
theorem entries_foldl_insert {t : Table} {entries : List (NodeId × Link)}
    (h : Ascending (t.entries ++ entries)) :
    (entries.foldl (fun t e => t.insert e.1 e.2) t).entries = t.entries ++ entries := by
  induction entries generalizing t with
  | nil => simp
  | cons e rest ih =>
    have hBelow : ∀ held ∈ t.entries, held.1.index < e.1.index := by
      intro held hHeld
      exact (List.pairwise_append.mp h).2.2 held hHeld e List.mem_cons_self
    have hInsert : (t.insert e.1 e.2).entries = t.entries ++ [e] := insertEntry_eq_append hBelow
    have hSplit : t.entries ++ e :: rest = (t.insert e.1 e.2).entries ++ rest := by
      rw [hInsert, List.append_assoc, List.singleton_append]
    rw [List.foldl_cons, hSplit]
    rw [hSplit] at h
    exact ih h

theorem ofList_entries (t : Table) : ofList t.entries = t := by
  apply Table.ext
  exact entries_foldl_insert t.ascending

/-- Every key and every link of the table is one that documents can hold. -/
def Representable (t : Table) : Prop := ∀ e ∈ t.entries, e.1.Representable ∧ e.2.Representable

theorem ofJson?_toJson {t : Table} (h : t.Representable) : ofJson? t.toJson = some t := by
  have hEntries : (t.entries.map fun e => (toString e.1.index, e.2.toJson)).mapM entryOf? =
      some t.entries := by
    apply mapM_map_eq_some
    intro e he
    obtain ⟨hKey, hLink⟩ := h e he
    simp only [entryOf?, Option.bind_eq_bind, Option.bind_eq_some_iff]
    exact ⟨e.1, keyOf?_toString hKey, e.2, Link.ofJson?_toJson hLink, rfl⟩
  simp only [ofJson?, Option.bind_eq_bind, Option.bind_eq_some_iff]
  exact ⟨_, rfl, t.entries, hEntries, congrArg some t.ofList_entries⟩

end Table

end Retrace
