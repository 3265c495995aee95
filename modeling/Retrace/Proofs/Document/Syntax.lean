import Retrace.Proofs.Document.Fields
import Retrace.Proofs.Schema

/-!
# Nodes and trees that were just written

The fields of a payload stand beside the span and the kind of its node in one object.
This is harmless, because no payload has a field with one of the names that the node
itself uses, and no payload uses a name twice (`Node.nodup_names`). Every field is then
found under its name, and what is found there is what the reader of the payload asks
for: the reader of a kind and the list of its fields agree on names and on the type of
each value (`Payload.ofFields?_of_foundIn`, one case for each kind).

Offsets and numbers of nodes have a bound in documents, and a value has to keep it to be
written at all (`Representable`).
-/

namespace Retrace

/-! ## Spans, references and names -/

namespace NodeId

/-- The number of the node is one that documents can hold. -/
def Representable (id : NodeId) : Prop := id.index < offsetBound

theorem ofJson?_toJson {id : NodeId} (h : id.Representable) : ofJson? id.toJson = some id := by
  rw [ofJson?, toJson, Json.asOffset?_nat h]
  rfl

end NodeId

namespace Span

/-- The ends of the span are offsets that documents can hold. -/
def Representable (s : Span) : Prop := s.stop < offsetBound

theorem ofJson?_toJson {s : Span} (h : s.Representable) : ofJson? s.toJson = some s := by
  have hStart : s.start < offsetBound := Nat.lt_of_le_of_lt s.start_le_stop h
  simp [ofJson?, toJson, Json.asOffset?_nat hStart, Json.asOffset?_nat h, between?,
    s.start_le_stop]

theorem isReadable_toJson (s : Span) : s.toJson.isReadable = true := rfl

end Span

namespace Kind

theorem ofJson?_toJson (kind : Kind) : ofJson? kind.toJson = some kind := ofName?_name kind

theorem ofInnerJson?_toJson (kind : Kind) : ofInnerJson? kind.toJson = some kind :=
  ofName?_name kind

theorem ofTag?_toJson (kind : Kind) : ofTag? kind.toJson = some kind := ofName?_name kind

theorem isReadable_toJson (kind : Kind) : kind.toJson.isReadable = true := rfl

end Kind

theorem MethodKind.ofJson?_toJson (kind : MethodKind) : ofJson? kind.toJson = some kind := by
  cases kind <;> rfl

/-! ## Payloads -/

namespace FieldValue

/-- Every reader that a field of this type is read with finds the value under the name. -/
def FoundIn (fields : List (String × Json)) (name : String) : FieldValue → Prop
  | .node id => Json.node? fields name = some id
  | .optional id => Json.maybeNode? fields name = some id
  | .list ids => Json.nodes? fields name = some ids
  | .sparse ids => Json.sparse? fields name = some ids
  | .flag value =>
    Json.flag? fields name = some value ∧ Json.required? fields name Json.asBool? = some value
  | .text value =>
    Json.text? fields name = some value ∧
      ∀ default, Json.defaulted? fields name default Json.asString? = some value
  | .numeral value => Json.required? fields name Json.asNumeral? = some value
  | .method value => ∀ default, Json.defaulted? fields name default MethodKind.ofJson? = some value

theorem holeOrNode?_orNull {id : Option NodeId} (h : ∀ a ∈ id, a.Representable) :
    Json.holeOrNode? (.orNull NodeId.toJson id) = some id := by
  cases id with
  | none => rfl
  | some a =>
    show (NodeId.ofJson? a.toJson).map some = some (some a)
    rw [NodeId.ofJson?_toJson (h a rfl)]
    rfl

theorem foundIn_of_field? {fields : List (String × Json)} {name : String} {v : FieldValue}
    (hField : Json.field? fields name = some v.toJson)
    (hIds : ∀ id ∈ v.references, id.Representable) : v.FoundIn fields name := by
  cases v with
  | node id =>
    have hId : id.Representable := hIds id (by simp [references])
    exact Json.required?_of_field? NodeId.toJson hField (NodeId.ofJson?_toJson hId)
  | optional id =>
    refine Json.optional?_of_field? NodeId.toJson (Or.inr hField) rfl ?_
    intro a ha
    exact NodeId.ofJson?_toJson (hIds a (by simpa [references] using ha))
  | list ids =>
    refine Json.defaulted?_of_field? (.list NodeId.toJson) hField (Json.asList?_list ?_)
    intro id hId
    exact NodeId.ofJson?_toJson (hIds id hId)
  | sparse ids =>
    refine Json.defaulted?_of_field? (.list (.orNull NodeId.toJson)) hField (Json.asList?_list ?_)
    intro id hId
    refine holeOrNode?_orNull fun a ha => hIds a ?_
    obtain rfl : id = some a := ha
    exact List.mem_filterMap.mpr ⟨some a, hId, rfl⟩
  | flag value =>
    exact ⟨Json.defaulted?_of_field? .bool hField rfl, Json.required?_of_field? .bool hField rfl⟩
  | text value =>
    exact ⟨Json.required?_of_field? .str hField rfl,
      fun default => Json.defaulted?_of_field? .str hField rfl⟩
  | numeral value => exact Json.required?_of_field? .real hField rfl
  | method value =>
    intro default
    exact Json.defaulted?_of_field? MethodKind.toJson hField (MethodKind.ofJson?_toJson value)

theorem isReadable_toJson (v : FieldValue) : v.toJson.isReadable = true := by
  cases v with
  | node id => rfl
  | optional id => exact Json.isReadable_orNull (fun _ => rfl) id
  | list ids => exact Json.isReadable_list (fun _ => rfl) ids
  | sparse ids => exact Json.isReadable_list (Json.isReadable_orNull fun _ => rfl) ids
  | flag value => rfl
  | text value => rfl
  | numeral value => rfl
  | method value => rfl

end FieldValue

/-- The reader of a payload asks for the fields that are written, under the names and
with the types with which they are written. -/
theorem Payload.ofFields?_of_foundIn {fields : List (String × Json)} {kind : Kind}
    {p : Payload kind} (h : ∀ f ∈ Payload.fields kind p, f.value.FoundIn fields f.name) :
    Payload.ofFields? fields kind = some p := by
  -- In each case `h` becomes the list of what the readers of the fields return.
  cases kind <;>
    simp only [Payload.fields, List.forall_mem_cons, FieldValue.FoundIn] at h <;>
    simp [Payload.ofFields?, h]

/-! ## Nodes -/

namespace Construct

/-- Every node that the construct refers to has a number that documents can hold. -/
def Representable (c : Construct) : Prop := ∀ id ∈ c.references, id.Representable

/-- No field of a payload has a name that nodes themselves use. -/
theorem name_not_mem_own {c : Construct} {f : Field} (h : f ∈ c.fields) :
    f.name ∉ ["span", "parenthesized", "type"] := by
  revert f
  obtain ⟨kind, p⟩ := c
  cases kind <;> simp [fields, Payload.fields]

/-- A construct is found among any fields that hold its own under their names. -/
theorem ofFields?_of_field? {c : Construct} {fields : List (String × Json)}
    (hIds : c.Representable) (hKind : Json.field? fields "type" = some c.kind.toJson)
    (hFields : ∀ f ∈ c.fields, Json.field? fields f.name = some f.value.toJson) :
    ofFields? Kind.ofTag? fields = some c := by
  have hTag : Json.required? fields "type" Kind.ofTag? = some c.kind :=
    Json.required?_of_field? Kind.toJson hKind (Kind.ofTag?_toJson c.kind)
  have hPayload : Payload.ofFields? fields c.kind = some c.payload := by
    apply Payload.ofFields?_of_foundIn
    intro f hf
    apply FieldValue.foundIn_of_field? (hFields f hf)
    intro id hId
    exact hIds id (List.mem_flatMap.mpr ⟨f, hf, hId⟩)
  simp [ofFields?, hTag, hPayload]

end Construct

namespace Node

/-- The offsets and the references of the node are such that documents can hold them. -/
@[mk_iff]
structure Representable (n : Node) : Prop where
  span : n.span.Representable
  construct : n.construct.Representable

/-- The fields under which a node is written. -/
def written (n : Node) : List (String × Json) :=
  ("span", n.span.toJson) ::
    (if n.parenthesized then [("parenthesized", .bool true)] else []) ++ n.construct.toFields

theorem nodup_names (n : Node) : (n.written.map (·.1)).Nodup := by
  have hPerm := n.construct.writtenFields_perm
  have hOwn : (["span", "parenthesized", "type"] ++
      n.construct.writtenFields.map (·.name)).Nodup := by
    have hNames := (hPerm.map (·.name)).nodup_iff.mpr n.construct.nodup_name_fields
    refine List.nodup_append.mpr ⟨by decide, hNames, ?_⟩
    rintro own hOwn _ hName rfl
    obtain ⟨f, hf, rfl⟩ := List.mem_map.mp hName
    exact Construct.name_not_mem_own (hPerm.mem_iff.mp hf) hOwn
  -- The mark of a parenthesized node may be left out.
  refine hOwn.sublist ?_
  cases hMark : n.parenthesized <;>
    simp [written, hMark, Construct.toFields, Field.toJson, Function.comp_def]

theorem isReadable_of_mem_written {n : Node} {f : String × Json} (h : f ∈ n.written) :
    f.2.isReadable = true := by
  revert f
  have hPayload : ∀ f ∈ n.construct.writtenFields, f.toJson.2.isReadable = true :=
    fun f _ => f.value.isReadable_toJson
  have hMark : ∀ f ∈ (if n.parenthesized then [("parenthesized", Json.bool true)] else []),
      f.2.isReadable = true := by
    intro f hf
    split at hf
    · obtain rfl := List.mem_singleton.mp hf
      rfl
    · cases hf
  rw [written, Construct.toFields, List.cons_append, List.forall_mem_cons, List.forall_mem_append,
    List.forall_mem_cons, List.forall_mem_map]
  exact ⟨n.span.isReadable_toJson, hMark, n.construct.kind.isReadable_toJson, hPayload⟩

theorem flag?_written (n : Node) : Json.flag? n.written "parenthesized" = some n.parenthesized := by
  cases hMark : n.parenthesized with
  | true =>
    have hMem : ("parenthesized", .bool true) ∈ n.written := by simp [written, hMark]
    exact Json.defaulted?_of_field? .bool (Json.field?_of_mem n.nodup_names hMem) rfl
  | false =>
    have hLeftOut : "parenthesized" ∉ n.written.map (·.1) := by
      simp only [written, hMark, Construct.toFields, Bool.false_eq_true, if_false, List.map_cons,
        List.cons_append, List.nil_append, List.mem_cons, List.map_map, List.mem_map, not_or]
      refine ⟨by decide, by decide, ?_⟩
      rintro ⟨f, hf, hName⟩
      have hSame : f.name = "parenthesized" := hName
      have hField := n.construct.writtenFields_perm.mem_iff.mp hf
      exact Construct.name_not_mem_own hField (by simp [hSame])
    exact Json.defaulted?_of_not_mem hLeftOut

theorem ofJson?_toJson {n : Node} (h : n.Representable) : ofJson? n.toJson = some n := by
  have hFound : ∀ name value, (name, value) ∈ n.written →
      Json.field? n.written name = some value := by
    intro name value hMem
    exact Json.field?_of_mem n.nodup_names hMem
  have hFields : n.toJson.asWholeFields? = some n.written :=
    Json.asWholeFields?_obj fun f hf => isReadable_of_mem_written hf
  have hSpan : Json.required? n.written "span" Span.ofJson? = some n.span :=
    Json.required?_of_field? Span.toJson (hFound _ _ List.mem_cons_self)
      (Span.ofJson?_toJson h.span)
  have hConstruct : Construct.ofFields? Kind.ofTag? n.written = some n.construct := by
    apply Construct.ofFields?_of_field? h.construct
    · exact hFound _ _ (by simp [written, Construct.toFields])
    · intro f hf
      apply hFound
      simp only [written, Construct.toFields, List.mem_append, List.mem_cons, List.mem_map]
      exact Or.inr (Or.inr ⟨f, n.construct.writtenFields_perm.mem_iff.mpr hf, rfl⟩)
  -- A reader is a chain of readers. It is opened link by link and not evaluated, because
  -- evaluation would unfold the comparison of an offset with its bound.
  simp only [ofJson?, Option.bind_eq_bind, Option.bind_eq_some_iff]
  exact ⟨_, hFields, _, hSpan, _, n.flag?_written, _, hConstruct, rfl⟩

end Node

/-! ## Trees -/

namespace Tree

/-- Every number in the tree is one that documents can hold. -/
@[mk_iff]
structure Representable (t : Tree) : Prop where
  root : t.root.Representable
  nodes : ∀ n ∈ t.nodes, n.Representable

theorem ofJson?_toJson {t : Tree} (h : t.Representable) : ofJson? t.toJson = some t := by
  have hNodes : (Json.list Node.toJson t.nodes.toList).asList? Node.ofJson? =
      some t.nodes.toList := by
    apply Json.asList?_list
    intro n hn
    exact Node.ofJson?_toJson (h.nodes n (Array.mem_toList_iff.mp hn))
  simp only [ofJson?, Option.bind_eq_bind, Option.bind_eq_some_iff]
  refine ⟨_, rfl, t.root, ?_, t.nodes.toList, ?_, rfl⟩
  · exact Json.required?_of_field? NodeId.toJson (by simp) (NodeId.ofJson?_toJson h.root)
  · exact Json.required?_of_field? (.list Node.toJson) (by simp) hNodes

end Tree

end Retrace
