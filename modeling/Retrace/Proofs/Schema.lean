import Mathlib.Algebra.GroupWithZero.Nat
import Retrace.Classes
import Retrace.Proofs.Wellformed
import Retrace.Proofs.Zip

/-!
# Fields and the zip

The zip pairs children by their position in the list of all children, into which the
fields of a node are joined. The position of a child therefore depends on how many
nodes the fields before its own refer to, and a clause that is there on one side only
moves everything behind it by one place.

A pair of children has the same field and the same index in it as long as the fields
before refer to equally many nodes on both sides and the index is there on the output
side (`Construct.Placed`). Templates are an exception, since their pieces and
expressions alternate: there both fields have to be of equal size.
-/

namespace Retrace

/-! ## Positions in joined blocks -/

/-- An entry of joined blocks lies in one of the blocks, behind all entries of the
blocks before. -/
theorem exists_block_of_getElem?_flatten {α : Type} {blocks : List (List α)} {k : Nat} {x : α}
    (h : blocks.flatten[k]? = some x) :
    ∃ (j i : Nat) (block : List α), blocks[j]? = some block ∧ block[i]? = some x ∧
      k = (blocks.take j).flatten.length + i := by
  induction blocks generalizing k with
  | nil => simp at h
  | cons first rest ih =>
    rw [List.flatten_cons] at h
    by_cases hFirst : k < first.length
    · rw [List.getElem?_append_left hFirst] at h
      exact ⟨0, k, first, rfl, h, by simp⟩
    · rw [List.getElem?_append_right (by omega)] at h
      obtain ⟨j, i, block, hBlock, hEntry, hPlace⟩ := ih h
      refine ⟨j + 1, i, block, hBlock, hEntry, ?_⟩
      rw [List.take_succ_cons, List.flatten_cons, List.length_append]
      omega

theorem getElem?_flatten_of_block {α : Type} {blocks : List (List α)} {j i : Nat}
    {block : List α} {x : α} (hBlock : blocks[j]? = some block) (hEntry : block[i]? = some x) :
    blocks.flatten[(blocks.take j).flatten.length + i]? = some x := by
  induction blocks generalizing j with
  | nil => simp at hBlock
  | cons first rest ih =>
    cases j with
    | zero =>
      obtain rfl : first = block := Option.some.inj hBlock
      obtain ⟨hLength, -⟩ := List.getElem?_eq_some_iff.mp hEntry
      simpa [List.getElem?_append_left hLength] using hEntry
    | succ j =>
      rw [List.take_succ_cons, List.flatten_cons, List.flatten_cons, List.length_append,
        Nat.add_assoc, List.getElem?_append_right (Nat.le_add_right _ _), Nat.add_sub_cancel_left]
      exact ih hBlock

/-- Where names do not repeat, the entries before a name are those before its place. -/
theorem takeWhile_ne_eq_take {sizes : List (String × Nat)} (h : (sizes.map (·.1)).Nodup)
    {j : Nat} {size : String × Nat} (hj : sizes[j]? = some size) :
    (sizes.takeWhile fun other => other.1 ≠ size.1) = sizes.take j := by
  induction sizes generalizing j with
  | nil => simp at hj
  | cons first rest ih =>
    obtain ⟨hFirst, hRest⟩ := List.nodup_cons.mp h
    cases j with
    | zero =>
      obtain rfl : first = size := Option.some.inj hj
      simp
    | succ j =>
      have hLater : rest[j]? = some size := hj
      have hNe : first.1 ≠ size.1 := by
        intro hSame
        exact hFirst (List.mem_map.mpr ⟨size, List.mem_of_getElem? hLater, hSame.symm⟩)
      rw [List.takeWhile_cons_of_pos (by simpa using hNe), List.take_succ_cons, ih hRest hLater]

namespace Construct

/-! ## References by field and index -/

/-- The named field refers to the node, at an index that is counted over the entries
that are there. -/
def Refers (c : Construct) (name : String) (i : Nat) (id : NodeId) : Prop :=
  ∃ f ∈ c.fields, f.name = name ∧ f.value.references[i]? = some id

/-- The names of the fields, and how many nodes each of them refers to. -/
def sizes (c : Construct) : List (String × Nat) :=
  c.fields.map fun f => (f.name, f.value.references.length)

/-- How many nodes the fields before the named one refer to. -/
def offset (c : Construct) (name : String) : Nat :=
  ((c.sizes.takeWhile fun size => size.1 ≠ name).map (·.2)).sum

theorem nodup_name_fields (c : Construct) : (c.fields.map (·.name)).Nodup := by
  obtain ⟨kind, p⟩ := c
  cases kind <;> simp [fields, Payload.fields]

/-- No other field has the name of the field at an index. -/
theorem offset_of_getElem? {c : Construct} {j : Nat} {f : Field} (h : c.fields[j]? = some f) :
    c.offset f.name = ((c.fields.take j).map (·.value.references)).flatten.length := by
  have hNodup : (c.sizes.map (·.1)).Nodup := by
    rw [sizes, List.map_map]
    exact c.nodup_name_fields
  have hSize : c.sizes[j]? = some (f.name, f.value.references.length) := by
    rw [sizes, List.getElem?_map, h]
    rfl
  rw [offset, takeWhile_ne_eq_take hNodup hSize, sizes, ← List.map_take, List.map_map,
    List.length_flatten, List.map_map]
  rfl

/-- A reference stands in the list of all references behind those of the fields
before. -/
theorem getElem?_references {c : Construct} {name : String} {i : Nat} {id : NodeId}
    (h : c.Refers name i id) : c.references[c.offset name + i]? = some id := by
  obtain ⟨f, hf, rfl, hEntry⟩ := h
  obtain ⟨j, hj⟩ := List.mem_iff_getElem?.mp hf
  have hBlock : (c.fields.map (·.value.references))[j]? = some f.value.references := by
    rw [List.getElem?_map, hj]
    rfl
  rw [offset_of_getElem? hj, List.map_take]
  exact getElem?_flatten_of_block hBlock hEntry

theorem exists_refers_of_getElem? {c : Construct} {k : Nat} {id : NodeId}
    (h : c.references[k]? = some id) : ∃ name i, c.Refers name i id ∧ k = c.offset name + i := by
  obtain ⟨j, i, block, hBlock, hEntry, hPlace⟩ := exists_block_of_getElem?_flatten h
  rw [List.getElem?_map, Option.map_eq_some_iff] at hBlock
  obtain ⟨f, hj, rfl⟩ := hBlock
  refine ⟨f.name, i, ⟨f, List.mem_of_getElem? hj, rfl, hEntry⟩, ?_⟩
  rw [offset_of_getElem? hj, List.map_take]
  exact hPlace

theorem exists_refers_of_sizes {c d : Construct} (hSizes : c.sizes = d.sizes) {name : String}
    {i : Nat} {id : NodeId} (h : c.Refers name i id) : ∃ x, d.Refers name i x := by
  obtain ⟨f, hf, rfl, hEntry⟩ := h
  have hSize : (f.name, f.value.references.length) ∈ d.sizes := by
    rw [← hSizes]
    exact List.mem_map_of_mem hf
  obtain ⟨g, hg, hSame⟩ := List.mem_map.mp hSize
  obtain ⟨hName, hLength⟩ := Prod.mk.inj hSame
  obtain ⟨hIndex, -⟩ := List.getElem?_eq_some_iff.mp hEntry
  rw [← hLength] at hIndex
  exact ⟨_, g, hg, hName, List.getElem?_eq_getElem hIndex⟩

/-! ## Children in one position -/

/-- The field and the index of a child, and when the child in the same position of
another construct has the same. -/
structure Placed (c d : Construct) (s o : NodeId) (name : String) (i : Nat) : Prop where
  refers : c.Refers name i s
  same_iff : c.kind ≠ .templateLiteral →
    (d.Refers name i o ↔ c.offset name = d.offset name ∧ ∃ x, d.Refers name i x)
  same_of_sizes : c.sizes = d.sizes → d.Refers name i o

theorem exists_placed_of_references {c d : Construct} {k : Nat} {s o : NodeId}
    (hs : c.references[k]? = some s) (ho : d.references[k]? = some o)
    (hNodup : d.references.Nodup) : ∃ name i, Placed c d s o name i := by
  obtain ⟨name, i, hRefers, rfl⟩ := exists_refers_of_getElem? hs
  have hSame : d.Refers name i o ↔ c.offset name = d.offset name ∧ ∃ x, d.Refers name i x := by
    constructor
    · intro hThere
      have hPlace := getElem?_references hThere
      obtain ⟨hLength, -⟩ := List.getElem?_eq_some_iff.mp ho
      have hIndex := (List.getElem?_inj hLength hNodup).mp (ho.trans hPlace.symm)
      exact ⟨by omega, o, hThere⟩
    · rintro ⟨hOffset, x, hx⟩
      have hPlace := getElem?_references hx
      rw [← hOffset, ho] at hPlace
      exact Option.some.inj hPlace ▸ hx
  refine ⟨name, i, hRefers, fun _ => hSame, fun hSizes => hSame.mpr ⟨?_, ?_⟩⟩
  · rw [offset, offset, hSizes]
  · exact exists_refers_of_sizes hSizes hRefers

/-- Two pairs of lists of equal lengths alternate alike. -/
theorem exists_getElem?_of_interleave {xs ys xs' ys' : List NodeId} {k : Nat} {a b : NodeId}
    (hx : xs.length = xs'.length) (hy : ys.length = ys'.length)
    (ha : (interleave xs ys)[k]? = some a) (hb : (interleave xs' ys')[k]? = some b) :
    (∃ i : Nat, xs[i]? = some a ∧ xs'[i]? = some b) ∨
      ∃ i : Nat, ys[i]? = some a ∧ ys'[i]? = some b := by
  induction xs, ys using interleave.induct generalizing xs' ys' k with
  | case1 ys =>
    obtain rfl : xs' = [] := List.length_eq_zero_iff.mp hx.symm
    exact Or.inr ⟨k, by simpa [interleave] using ha, by simpa [interleave] using hb⟩
  | case2 x xs =>
    obtain rfl : ys' = [] := List.length_eq_zero_iff.mp hy.symm
    obtain ⟨x', rest, rfl⟩ := List.exists_cons_of_length_eq_add_one hx.symm
    exact Or.inl ⟨k, ha, hb⟩
  | case3 x xs y ys ih =>
    obtain ⟨x', restX, rfl⟩ := List.exists_cons_of_length_eq_add_one hx.symm
    obtain ⟨y', restY, rfl⟩ := List.exists_cons_of_length_eq_add_one hy.symm
    match k with
    | 0 => exact Or.inl ⟨0, ha, hb⟩
    | 1 => exact Or.inr ⟨0, ha, hb⟩
    | k + 2 =>
      rcases ih (Nat.succ.inj hx) (Nat.succ.inj hy) ha hb with ⟨i, h⟩ | ⟨i, h⟩
      · exact Or.inl ⟨i + 1, h⟩
      · exact Or.inr ⟨i + 1, h⟩

theorem eq_of_getElem?_pairOnce {first second id : NodeId} {k : Nat}
    (h : (pairOnce first second)[k]? = some id) : k = 0 ∧ id = first ∨ k = 1 ∧ id = second := by
  unfold pairOnce at h
  match k with
  | 0 =>
    refine Or.inl ⟨rfl, ?_⟩
    split at h <;> exact (Option.some.inj h).symm
  | 1 =>
    refine Or.inr ⟨rfl, ?_⟩
    split at h
    · cases h
    · exact (Option.some.inj h).symm
  | k + 2 => split at h <;> cases h

/-- Of two nodes that may be one, the first is always a child and comes first. -/
theorem exists_placed_of_pairOnce {c d : Construct} {first second : String}
    {x y x' y' s o : NodeId} {rest rest' : List Field} {k : Nat} (hNames : first ≠ second)
    (hc : c.fields = ⟨first, .node x⟩ :: ⟨second, .node y⟩ :: rest)
    (hd : d.fields = ⟨first, .node x'⟩ :: ⟨second, .node y'⟩ :: rest')
    (hs : (pairOnce x y)[k]? = some s) (ho : (pairOnce x' y')[k]? = some o) :
    ∃ name i, Placed c d s o name i := by
  have hPlaced : ∀ name, c.offset name = d.offset name → c.Refers name 0 s →
      d.Refers name 0 o → ∃ name i, Placed c d s o name i := by
    intro name hOffset hRefers hThere
    exact ⟨name, 0, hRefers, fun _ => iff_of_true hThere ⟨hOffset, o, hThere⟩, fun _ => hThere⟩
  rcases eq_of_getElem?_pairOnce hs with ⟨rfl, rfl⟩ | ⟨rfl, rfl⟩
  · obtain ⟨-, rfl⟩ := (eq_of_getElem?_pairOnce ho).resolve_right (by simp)
    refine hPlaced first ?_ ⟨_, by rw [hc]; exact List.mem_cons_self, rfl, rfl⟩
      ⟨_, by rw [hd]; exact List.mem_cons_self, rfl, rfl⟩
    simp [offset, sizes, hc, hd]
  · obtain ⟨-, rfl⟩ := (eq_of_getElem?_pairOnce ho).resolve_left (by simp)
    refine hPlaced second ?_ ⟨⟨second, .node s⟩, by simp [hc], rfl, rfl⟩
      ⟨⟨second, .node o⟩, by simp [hd], rfl, rfl⟩
    simp [offset, sizes, hc, hd, hNames, FieldValue.references]

/-- A piece or an expression keeps its index if both templates have equally many of
each. -/
theorem exists_placed_of_template {p q : TemplateLiteral} {k : Nat} {s o : NodeId}
    (hs : (interleave p.quasis p.expressions)[k]? = some s)
    (ho : (interleave q.quasis q.expressions)[k]? = some o) :
    ∃ name i, Placed ⟨.templateLiteral, p⟩ ⟨.templateLiteral, q⟩ s o name i := by
  have hFields : ∀ r : TemplateLiteral, fields ⟨.templateLiteral, r⟩ =
      [⟨"quasis", .list r.quasis⟩, ⟨"expressions", .list r.expressions⟩] := fun _ => rfl
  have hQuasi : ∀ (r : TemplateLiteral) i id, r.quasis[i]? = some id →
      Refers ⟨.templateLiteral, r⟩ "quasis" i id :=
    fun r _ _ h => ⟨⟨"quasis", .list r.quasis⟩, by simp [hFields], rfl, h⟩
  have hExpression : ∀ (r : TemplateLiteral) i id, r.expressions[i]? = some id →
      Refers ⟨.templateLiteral, r⟩ "expressions" i id :=
    fun r _ _ h => ⟨⟨"expressions", .list r.expressions⟩, by simp [hFields], rfl, h⟩
  by_cases hSizes : sizes ⟨.templateLiteral, p⟩ = sizes ⟨.templateLiteral, q⟩
  · have hLengths : p.quasis.length = q.quasis.length ∧
        p.expressions.length = q.expressions.length := by
      simpa [sizes, hFields, FieldValue.references] using hSizes
    rcases exists_getElem?_of_interleave hLengths.1 hLengths.2 hs ho with
      ⟨i, hSource, hOutput⟩ | ⟨i, hSource, hOutput⟩
    · exact ⟨"quasis", i, hQuasi p i s hSource, fun h => absurd rfl h,
        fun _ => hQuasi q i o hOutput⟩
    · exact ⟨"expressions", i, hExpression p i s hSource, fun h => absurd rfl h,
        fun _ => hExpression q i o hOutput⟩
  · rcases exists_getElem?_of_interleave rfl rfl hs hs with ⟨i, hSource, -⟩ | ⟨i, hSource, -⟩
    · exact ⟨"quasis", i, hQuasi p i s hSource, fun h => absurd rfl h,
        fun h => absurd h hSizes⟩
    · exact ⟨"expressions", i, hExpression p i s hSource, fun h => absurd rfl h,
        fun h => absurd h hSizes⟩

theorem exists_placed {c d : Construct} (hKind : c.kind = d.kind) {k : Nat} {s o : NodeId}
    (hs : c.children[k]? = some s) (ho : d.children[k]? = some o) (hNodup : d.children.Nodup) :
    ∃ name i, Placed c d s o name i := by
  obtain ⟨kind, p⟩ := c
  obtain ⟨kind', q⟩ := d
  obtain rfl : kind = kind' := hKind
  cases kind
  case templateLiteral => exact exists_placed_of_template hs ho
  case objectProperty => exact exists_placed_of_pairOnce (by decide) rfl rfl hs ho
  case importSpecifier => exact exists_placed_of_pairOnce (by decide) rfl rfl hs ho
  all_goals exact exists_placed_of_references hs ho hNodup

end Construct

namespace Table

/-- **What the zip makes of fields.** The parent of a linked node is linked to the
parent of its source node. If the two nodes are not pieces of a template, they have the
same field and index exactly if the fields before refer to equally many nodes on both
sides and the field has that index on the output side. They always have if all fields
are of equal size. -/
theorem exists_placed_of_link (source output : Tree) {size : Nat}
    (hOutput : output.validate size = .ok ()) (id : NodeId) (link : Link)
    (hLink : (zip source output).get? id = some link) (hRoot : id ≠ output.root) :
    ∃ sourceId n sourceParent outputParent p q, source.node? sourceId = some n ∧
      link = .carried n.kind n.span sourceId ∧ source.node? sourceParent = some p ∧
      output.node? outputParent = some q ∧
      (zip source output).get? outputParent = some (.carried p.kind p.span sourceParent) ∧
      ∃ name i, Construct.Placed p.construct q.construct sourceId id name i := by
  obtain ⟨sourceId, n, above, p, q, hNode, hCarried, hp, hq, hKind, hAbove, -, k, hs, ho⟩ :=
    exists_above_of_get? hLink hRoot
  refine ⟨sourceId, n, above.1, above.2, p, q, hNode, hCarried, hp, hq, hAbove, ?_⟩
  have hNodup := (Tree.validate_eq_ok_iff.mp hOutput).nodup_childrenOf above.2
  rw [Tree.childrenOf_of_node? hp] at hs
  rw [Tree.childrenOf_of_node? hq] at ho hNodup
  exact Construct.exists_placed hKind hs ho hNodup

/-- A loop `for(;a;);` without a first clause. -/
def headlessLoop : Tree :=
  ⟨⟨0⟩, #[⟨.upTo 9, false, ⟨.forStatement, ⟨none, some ⟨1⟩, none, ⟨2⟩⟩⟩⟩,
    ⟨.byte 5, false, ⟨.identifier, ⟨"a"⟩⟩⟩,
    ⟨.byte 8, false, ⟨.emptyStatement, ()⟩⟩]⟩

/-- The loop `for(i;a;);` with a first clause added. -/
def headedLoop : Tree :=
  ⟨⟨0⟩, #[⟨.upTo 10, false, ⟨.forStatement, ⟨some ⟨1⟩, some ⟨2⟩, none, ⟨3⟩⟩⟩⟩,
    ⟨.byte 4, false, ⟨.identifier, ⟨"i"⟩⟩⟩,
    ⟨.byte 6, false, ⟨.identifier, ⟨"a"⟩⟩⟩,
    ⟨.byte 9, false, ⟨.emptyStatement, ()⟩⟩]⟩

theorem get?_zip_headedLoop :
    (zip headlessLoop headedLoop).get? ⟨1⟩ = some (.carried .identifier (.byte 5) ⟨1⟩) := by
  have hLinks : zipFrom headlessLoop headedLoop headedLoop.ids [(⟨0⟩, ⟨0⟩)] =
      [(⟨0⟩, .carried .forStatement (.upTo 9) ⟨0⟩),
        (⟨1⟩, .carried .identifier (.byte 5) ⟨1⟩)] := by
    cbv
  apply get?_zip_iff.mpr
  show _ ∈ zipFrom headlessLoop headedLoop headedLoop.ids [(⟨0⟩, ⟨0⟩)]
  rw [hLinks]
  exact List.mem_cons_of_mem _ List.mem_cons_self

theorem exists_placed_headedLoop :
    headedLoop.validate 10 = .ok () ∧
      (zip headlessLoop headedLoop).get? ⟨1⟩ = some (.carried .identifier (.byte 5) ⟨1⟩) ∧
      (⟨1⟩ : NodeId) ≠ headedLoop.root ∧
      ∃ sourceId n sourceParent outputParent p q, headlessLoop.node? sourceId = some n ∧
        Link.carried .identifier (.byte 5) ⟨1⟩ = .carried n.kind n.span sourceId ∧
        headlessLoop.node? sourceParent = some p ∧ headedLoop.node? outputParent = some q ∧
        (zip headlessLoop headedLoop).get? outputParent =
          some (.carried p.kind p.span sourceParent) ∧
        ∃ name i, Construct.Placed p.construct q.construct sourceId ⟨1⟩ name i := by
  have hValid : headedLoop.validate 10 = .ok () := rfl
  have hRoot : (⟨1⟩ : NodeId) ≠ headedLoop.root := by decide
  exact ⟨hValid, get?_zip_headedLoop, hRoot,
    exists_placed_of_link headlessLoop headedLoop hValid ⟨1⟩ _ get?_zip_headedLoop hRoot⟩

/-- The new first clause is linked to the condition. -/
theorem not_same_field_headedLoop :
    headlessLoop.validate 9 = .ok () ∧ headedLoop.validate 10 = .ok () ∧
      (zip headlessLoop headedLoop).get? ⟨1⟩ =
        some (.carried .identifier (.byte 5) ⟨1⟩) ∧
      ¬ ∃ sourceParent outputParent p q name i, headlessLoop.node? sourceParent = some p ∧
        headedLoop.node? outputParent = some q ∧
        p.construct.Refers name i ⟨1⟩ ∧ q.construct.Refers name i ⟨1⟩ := by
  have hTest : ∀ p ∈ headlessLoop.nodes, ∀ f ∈ p.construct.fields,
      ⟨1⟩ ∈ f.value.references → f.name = "test" := by
    decide
  have hInit : ∀ q ∈ headedLoop.nodes, ∀ f ∈ q.construct.fields,
      ⟨1⟩ ∈ f.value.references → f.name = "init" := by
    decide
  refine ⟨rfl, rfl, get?_zip_headedLoop, ?_⟩
  rintro ⟨sourceParent, outputParent, p, q, name, i, hp, hq, hSource, hOutput⟩
  obtain ⟨f, hf, hfName, hfEntry⟩ := hSource
  obtain ⟨g, hg, hgName, hgEntry⟩ := hOutput
  have hSourceName := hTest p (Array.mem_of_getElem? hp) f hf (List.mem_of_getElem? hfEntry)
  have hOutputName := hInit q (Array.mem_of_getElem? hq) g hg (List.mem_of_getElem? hgEntry)
  have hSame : "test" = "init" := by
    rw [← hSourceName, ← hOutputName, hfName, hgName]
  exact absurd hSame (by decide)

end Table

end Retrace
