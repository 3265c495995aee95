import Retrace.Document.Syntax

/-!
# Values and fields that were just written

Every object of a document is read field by field, so a reader gets back what was
written once it gets back each field. A field is found under its name wherever it stands
among fields of other names. Three things then depend on how it was written: a value
that had to be there is read as it is, a list is read entry by entry, and a value that
may be missing is read as missing both when it was left out and when it was written as
null. For the last one the reader of the value must not take null for a value.
-/

namespace Retrace

/-- Entries that are read back one by one are read back as a list. -/
theorem mapM_map_eq_some {α β : Type} {write : α → β} {read : β → Option α} {items : List α}
    (h : ∀ a ∈ items, read (write a) = some a) : (items.map write).mapM read = some items := by
  induction items with
  | nil => rfl
  | cons a rest ih =>
    obtain ⟨hFirst, hRest⟩ := List.forall_mem_cons.mp h
    simp [List.mapM_cons, hFirst, ih hRest]

namespace Json

variable {α : Type} {encode : α → Json} {decode : Json → Option α}

/-! ## Values -/

theorem itemsReadable_iff {items : List Json} :
    itemsReadable items = true ↔ ∀ v ∈ items, v.isReadable = true := by
  induction items with
  | nil => simp [itemsReadable]
  | cons v rest ih => simp [itemsReadable, ih]

theorem fieldsReadable_iff {fields : List (String × Json)} :
    fieldsReadable fields = true ↔ ∀ f ∈ fields, f.2.isReadable = true := by
  induction fields with
  | nil => simp [fieldsReadable]
  | cons f rest ih =>
    obtain ⟨name, value⟩ := f
    simp [fieldsReadable, ih]

theorem isReadable_list (h : ∀ a, (encode a).isReadable = true) (items : List α) :
    (list encode items).isReadable = true := by
  rw [list, isReadable, itemsReadable_iff, List.forall_mem_map]
  exact fun a _ => h a

theorem isReadable_orNull (h : ∀ a, (encode a).isReadable = true) (value : Option α) :
    (orNull encode value).isReadable = true := by
  cases value with
  | none => rfl
  | some a => exact h a

theorem isReadable_of_mem_fieldIfSome (h : ∀ a, (encode a).isReadable = true) {name : String}
    {value : Option α} {field : String × Json} (hField : field ∈ fieldIfSome name encode value) :
    field.2.isReadable = true := by
  rw [fieldIfSome, Option.mem_toList, Option.map_eq_some_iff] at hField
  obtain ⟨a, -, rfl⟩ := hField
  exact h a

/-- An object of readable fields is read as a whole. -/
theorem asWholeFields?_obj {fields : List (String × Json)}
    (h : ∀ f ∈ fields, f.2.isReadable = true) : (obj fields).asWholeFields? = some fields := by
  have hReadable : (obj fields).isReadable = true := by
    rw [isReadable]
    exact fieldsReadable_iff.mpr h
  simp [asWholeFields?, hReadable, asFields?]

theorem asOffset?_nat {n : Nat} (h : n < offsetBound) : (nat n).asOffset? = some n := by
  have hBound : (n : Int) < (offsetBound : Nat) := Int.ofNat_lt.mpr h
  simp [nat, asOffset?, asNatBelow?, hBound]

theorem asList?_list {items : List α} (h : ∀ a ∈ items, decode (encode a) = some a) :
    (list encode items).asList? decode = some items :=
  mapM_map_eq_some h

/-! ## Fields -/

@[simp]
theorem field?_nil (name : String) : field? [] name = none := rfl

@[simp]
theorem field?_cons (key : String) (value : Json) (rest : List (String × Json)) (name : String) :
    field? ((key, value) :: rest) name = if name = key then some value else field? rest name := by
  unfold field?
  rw [List.lookup_cons]
  by_cases hName : name = key
  · simp [hName]
  · simp only [beq_eq_false_iff_ne.mpr hName, if_neg hName]

@[simp]
theorem field?_append (first second : List (String × Json)) (name : String) :
    field? (first ++ second) name = (field? first name).or (field? second name) :=
  List.lookup_append

@[simp]
theorem field?_fieldIfSome (key : String) (encode : α → Json) (value : Option α) (name : String) :
    field? (fieldIfSome key encode value) name = if name = key then value.map encode else none := by
  cases value with
  | none => simp [fieldIfSome]
  | some a => simp [fieldIfSome]

/-- Where names do not repeat, every field is found under its name. -/
theorem field?_of_mem {fields : List (String × Json)} (hNames : (fields.map (·.1)).Nodup)
    {name : String} {value : Json} (h : (name, value) ∈ fields) :
    field? fields name = some value := by
  obtain ⟨before, after, rfl⟩ := List.append_of_mem h
  refine List.lookup_eq_some_iff.mpr ⟨before, after, rfl, ?_⟩
  intro f hf
  rw [List.map_append, List.map_cons] at hNames
  have hApart : f.1 ≠ name :=
    (List.nodup_append.mp hNames).2.2 f.1 (List.mem_map_of_mem hf) name List.mem_cons_self
  simpa using hApart.symm

theorem required?_of_field? (encode : α → Json) {fields : List (String × Json)} {name : String}
    {a : α} (hField : field? fields name = some (encode a)) (hRead : decode (encode a) = some a) :
    required? fields name decode = some a := by
  rw [required?, hField]
  exact hRead

theorem defaulted?_of_field? (encode : α → Json) {fields : List (String × Json)} {name : String}
    {default a : α} (hField : field? fields name = some (encode a)) (hRead : decode (encode a) = some a) :
    defaulted? fields name default decode = some a := by
  rw [defaulted?, hField]
  exact hRead

theorem defaulted?_of_not_mem {fields : List (String × Json)} {name : String} {default : α}
    (h : name ∉ fields.map (·.1)) : defaulted? fields name default decode = some default := by
  have hNone : field? fields name = none := by
    rw [field?, List.lookup_eq_none_iff]
    intro f hf
    have hOther : name ≠ f.1 := fun hName => h (hName ▸ List.mem_map_of_mem hf)
    simpa using hOther
  rw [defaulted?, hNone]

/-- A value that may be missing, read from a field that is left out or null if it is. -/
theorem optional?_of_field? (encode : α → Json) {fields : List (String × Json)} {name : String}
    {value : Option α}
    (hField : field? fields name = value.map encode ∨
      field? fields name = some (orNull encode value))
    (hNull : decode .null = none) (hRead : ∀ a ∈ value, decode (encode a) = some a) :
    optional? fields name decode = some value := by
  cases value with
  | none =>
    rcases hField with hField | hField
    · simp [optional?, hField]
    · simp [optional?, hField, orNull]
  | some a =>
    have hValue : field? fields name = some (encode a) := by
      rcases hField with hField | hField
      · exact hField
      · exact hField
    have hDecode := hRead a rfl
    unfold optional?
    rw [hValue]
    split
    · rename_i hMissing
      cases hMissing
    · rename_i hWritten
      rw [Option.some.inj hWritten, hNull] at hDecode
      cases hDecode
    · rename_i written _ hWritten
      rw [← Option.some.inj hWritten, hDecode]
      rfl

end Json

end Retrace
