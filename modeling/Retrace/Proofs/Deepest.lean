import Retrace.Proofs.Owner
import Retrace.Proofs.Subtree

/-!
# The deepest node over a byte

A byte gets the class of the node that is painted over it last, and the painting follows
the walk. Depth does not occur in it. That the last node is also the deepest one is a fact
about the whole tree: two nodes that have a byte in common lie on one path, since otherwise
they would lie below two siblings, which then would have the byte in common as well
(`WellFormed.leads_of_covers`). On one path the lower node is the deeper one, and the walk
comes to it later.

So in a checked tree in which no two siblings share a byte, the owner of a byte is the
unique deepest node over it (`WellFormed.tops_iff_deepest`), and the classes can be stated
with it (`OwnerClasses`). Siblings may touch, and an empty one may lie within another: it
has no byte.
-/

namespace Retrace

namespace Tree

/-- No byte lies in the spans of two children of one node. Only nodes that can be reached
are asked for. -/
def SiblingsDisjoint (t : Tree) : Prop :=
  ∀ id, t.Reachable id → ∀ a ∈ t.childrenOf id, ∀ b ∈ t.childrenOf id, a ≠ b →
    ∀ offset, t.Covers a offset → ¬ t.Covers b offset

/-- Of the nodes that can be reached and whose span has the byte, this one is the farthest
from the root, and no other one is as far. -/
def Deepest (t : Tree) (id : NodeId) (offset : Nat) : Prop :=
  ∃ path, t.follow t.root path = some id ∧ t.Covers id offset ∧
    ∀ other rest, t.follow t.root rest = some other → t.Covers other offset → other ≠ id →
      rest.length < path.length

theorem SiblingsApart.disjoint {t : Tree} (h : t.SiblingsApart) : t.SiblingsDisjoint := by
  intro id _ a ha b hb hNe offset hCoversA hCoversB
  obtain ⟨x, hx, hxContains⟩ := hCoversA
  obtain ⟨y, hy, hyContains⟩ := hCoversB
  have hApart := h id a ha b hb hNe x y hx hy
  have hLeft := Span.contains_iff.mp hxContains
  have hRight := Span.contains_iff.mp hyContains
  unfold Span.Apart at hApart
  omega

theorem Deepest.unique {t : Tree} {a b : NodeId} {offset : Nat} (ha : t.Deepest a offset)
    (hb : t.Deepest b offset) : a = b := by
  obtain ⟨path, hPath, hCovers, hMost⟩ := ha
  obtain ⟨path', hPath', hCovers', hMost'⟩ := hb
  by_contra hNe
  have hLess := hMost b path' hPath' hCovers' (Ne.symm hNe)
  have hMore := hMost' a path hPath hCovers hNe
  omega

namespace WellFormed

/-- Two nodes with a common byte lie on one path. -/
theorem leads_of_covers {t : Tree} {size : Nat} (h : t.WellFormed size)
    (hDisjoint : t.SiblingsDisjoint) {a b : NodeId} {offset : Nat} (ha : t.Reachable a)
    (hb : t.Reachable b) (hCoversA : t.Covers a offset) (hCoversB : t.Covers b offset) :
    t.Leads a b ∨ t.Leads b a := by
  rcases leads_or_parted (reachable_iff_leads.mp ha) (reachable_iff_leads.mp hb) with
    hDown | hUp | hParted
  · exact Or.inl hDown
  · exact Or.inr hUp
  · obtain ⟨fork, left, right, hFork, hLeft, hRight, hNe, hToA, hToB⟩ := hParted
    have hReachable := reachable_iff_leads.mpr hFork
    -- a node has every byte of what lies below it, so both siblings have the byte
    have hCoversLeft : t.Covers left offset :=
      h.covers_of_leads (h.mem_preorder_of_reachable (hReachable.child hLeft)) hToA hCoversA
    have hCoversRight : t.Covers right offset :=
      h.covers_of_leads (h.mem_preorder_of_reachable (hReachable.child hRight)) hToB hCoversB
    exact absurd hCoversRight
      (hDisjoint fork hReachable left hLeft right hRight hNe offset hCoversLeft)

/-- Below a node all paths from the root are longer. -/
theorem length_lt_of_leads {t : Tree} {size : Nat} (h : t.WellFormed size) {a b : NodeId}
    {upper lower : List Nat} (ha : t.follow t.root upper = some a)
    (hb : t.follow t.root lower = some b) (hPath : t.Leads a b) (hNe : a ≠ b) :
    upper.length < lower.length := by
  obtain ⟨between, hBetween⟩ := leads_iff_exists_follow.mp hPath
  have hWhole : t.follow t.root (upper ++ between) = some b := by
    rw [follow_append, ha]
    exact hBetween
  obtain rfl : upper ++ between = lower := h.follow_injective hWhole hb
  have hSteps : between ≠ [] := by
    rintro rfl
    exact hNe (Option.some.inj hBetween)
  have hPos := List.length_pos_iff.mpr hSteps
  rw [List.length_append]
  omega

/-- The node that is painted last over a byte is the deepest one. -/
theorem tops_iff_deepest {t : Tree} {size : Nat} (h : t.WellFormed size)
    (hDisjoint : t.SiblingsDisjoint) {id : NodeId} {offset : Nat} :
    t.Tops id offset ↔ t.Deepest id offset := by
  constructor
  · intro hTops
    obtain ⟨hId, hCovers, hLast⟩ := hTops
    have hReachable := (mem_preorder_iff.mp hId).1
    obtain ⟨path, hPath⟩ := leads_iff_exists_follow.mp (reachable_iff_leads.mp hReachable)
    refine ⟨path, hPath, hCovers, ?_⟩
    intro other rest hRest hOther hNe
    have hThere := reachable_of_follow hRest
    rcases h.leads_of_covers hDisjoint hReachable hThere hCovers hOther with hDown | hUp
    · rcases (h.precedes_of_leads hId hDown).2 with hSame | hLater
      · exact absurd hSame.symm hNe
      · exact absurd hOther (hLast other hLater)
    · exact h.length_lt_of_leads hRest hPath hUp hNe
  · intro hDeepest
    obtain ⟨path, hPath, hCovers, hMost⟩ := hDeepest
    have hReachable := reachable_of_follow hPath
    refine ⟨h.mem_preorder_of_reachable hReachable, hCovers, ?_⟩
    intro later hLater hOther
    have hLaterId : later ∈ t.preorder := by
      obtain ⟨front, back, hOrder, -⟩ := hLater
      simp [hOrder]
    have hThere := (mem_preorder_iff.mp hLaterId).1
    have hNe : later ≠ id := by
      rintro rfl
      exact Precedes.irrefl hLater
    rcases h.leads_of_covers hDisjoint hReachable hThere hCovers hOther with hDown | hUp
    · obtain ⟨rest, hRest⟩ := leads_iff_exists_follow.mp (reachable_iff_leads.mp hThere)
      have hShorter := hMost later rest hRest hOther hNe
      have hLonger := h.length_lt_of_leads hPath hRest hDown (Ne.symm hNe)
      omega
    · rcases (h.precedes_of_leads hLaterId hUp).2 with hSame | hBefore
      · exact hNe hSame
      · exact Precedes.irrefl (hBefore.trans hLater)

/-- A byte that some node has is owned by exactly one node. -/
theorem existsUnique_deepest {t : Tree} {size : Nat} (h : t.WellFormed size)
    (hDisjoint : t.SiblingsDisjoint) {id : NodeId} {offset : Nat} (hReachable : t.Reachable id)
    (hCovers : t.Covers id offset) : ∃! owner, t.Deepest owner offset := by
  obtain ⟨owner, hOwner⟩ := exists_tops (h.mem_preorder_of_reachable hReachable) hCovers
  have hDeepest := (h.tops_iff_deepest hDisjoint).mp hOwner
  exact ⟨owner, hDeepest, fun other hOther => hOther.unique hDeepest⟩

end WellFormed

end Tree

/-! ## Replaced bytes -/

/-- An anchor of some range puts another character over the byte. -/
def RangeSet.Replaces (s : RangeSet) (offset : Nat) : Prop :=
  ∃ r ∈ s.ranges, ∃ a ∈ r.anchors, ∃ sub c, a.substitution = some sub ∧
    sub.outputChar = some c ∧ sub.sourceChar ≠ some c ∧
    a.output ≤ offset ∧ offset < a.output + c.utf8Size

theorem Anchor.replacement?_eq_some_iff {a : Anchor} {c : Char} :
    a.replacement? = some c ↔ ∃ sub, a.substitution = some sub ∧ sub.outputChar = some c ∧
      sub.sourceChar ≠ some c := by
  obtain ⟨source, output, substitution⟩ := a
  rcases substitution with _ | ⟨sourceChar, _ | d⟩
  · simp [replacement?]
  · simp [replacement?]
  · by_cases hSame : sourceChar = some d
    · simp [replacement?, hSame]
    · simp only [replacement?, if_neg hSame, Option.some.injEq, exists_eq_left']
      constructor
      · rintro rfl
        exact ⟨rfl, hSame⟩
      · intro h
        exact h.1

theorem RangeSet.any_contains_replacements {s : RangeSet} {offset : Nat} :
    s.replacements.any (·.contains offset) = true ↔ s.Replaces offset := by
  unfold replacements Replaces
  simp only [List.any_eq_true, List.mem_flatMap, List.mem_filterMap, Option.map_eq_some_iff,
    Anchor.replacement?_eq_some_iff]
  constructor
  · rintro ⟨span, ⟨r, hr, a, ha, c, ⟨sub, hSub, hOutput, hSource⟩, rfl⟩, hContains⟩
    obtain ⟨hStart, hStop⟩ := Span.contains_iff.mp hContains
    exact ⟨r, hr, a, ha, sub, c, hSub, hOutput, hSource, hStart, hStop⟩
  · rintro ⟨r, hr, a, ha, sub, c, hSub, hOutput, hSource, hStart, hStop⟩
    exact ⟨_, ⟨r, hr, a, ha, c, ⟨sub, hSub, hOutput, hSource⟩, rfl⟩,
      Span.contains_iff.mpr ⟨hStart, hStop⟩⟩

namespace Alignment

/-- The class of an output byte whose owner has a range. -/
theorem owned_class_iff (options : Options) (input : AlignmentInput) {offset : Nat}
    {cls : CharClass} (hClass : cls ≠ .inserted) :
    (align options input).classes.outputClass? offset = some cls ↔
      offset < input.output.size ∧
        (∃ id, input.outputTree.Tops id offset ∧
          ∃ r ∈ (align options input).ranges.ranges, r.node = id) ∧
        (cls = .substituted ∧ (align options input).ranges.Replaces offset ∨
          cls = .carried ∧ ¬ (align options input).ranges.Replaces offset) := by
  rw [← any_hasNode_iff, ← RangeSet.any_contains_replacements, classes_align,
    Classes.outputClass?_ofRanges]
  by_cases hOffset : offset < input.output.size
  · rw [if_pos hOffset, Option.some.injEq, outputClassOf]
    split_ifs with hOwned hReplaced
    · simp [hOffset, hOwned, hReplaced, eq_comm]
    · simp [hOffset, hOwned, hReplaced, eq_comm]
    · simp [hOwned, Ne.symm hClass]
  · simp [hOffset]

/-- What becomes of a byte, told by the deepest node over it on either side. -/
structure OwnerClasses (input : AlignmentInput) (found : Alignment) (offset : Nat) : Prop where
  outputOwner : ∀ id, input.outputTree.Reachable id → input.outputTree.Covers id offset →
    ∃! owner, input.outputTree.Deepest owner offset
  sourceOwner : ∀ id, input.sourceTree.Reachable id → input.sourceTree.Covers id offset →
    ∃! owner, input.sourceTree.Deepest owner offset
  inserted : found.classes.outputClass? offset = some .inserted ↔
    offset < input.output.size ∧
      ∀ owner, input.outputTree.Deepest owner offset →
        ∀ r ∈ found.ranges.ranges, r.node ≠ owner
  substituted : found.classes.outputClass? offset = some .substituted ↔
    offset < input.output.size ∧
      (∃ owner, input.outputTree.Deepest owner offset ∧
        ∃ r ∈ found.ranges.ranges, r.node = owner) ∧
      found.ranges.Replaces offset
  carried : found.classes.outputClass? offset = some .carried ↔
    offset < input.output.size ∧
      (∃ owner, input.outputTree.Deepest owner offset ∧
        ∃ r ∈ found.ranges.ranges, r.node = owner) ∧
      ¬ found.ranges.Replaces offset
  removed : found.classes.isRemoved offset = true ↔
    offset < input.source.size ∧
      (∀ r ∈ found.ranges.ranges, ∀ p ∈ r.predecessors, p.node = none →
        p.span.contains offset = false) ∧
      ∀ owner, input.sourceTree.Deepest owner offset →
        ∀ r ∈ found.ranges.ranges, ∀ p ∈ r.predecessors, p.node ≠ some owner

/-- **The deepest node decides the class of a byte.** An output byte is inserted if it has
no owner or no range belongs to its owner, else substituted if an anchor puts another
character over it, else carried. A source byte is removed if it lies in no snapshot of an
unknown node and it has no owner or no range comes from its owner. -/
theorem ownerClasses_align (options : Options) (input : AlignmentInput)
    (hSource : input.sourceTree.validate input.source.size = .ok ())
    (hOutput : input.outputTree.validate input.output.size = .ok ())
    (hSourceDisjoint : input.sourceTree.SiblingsDisjoint)
    (hOutputDisjoint : input.outputTree.SiblingsDisjoint) (offset : Nat) :
    OwnerClasses input (align options input) offset := by
  have hs := Tree.validate_eq_ok_iff.mp hSource
  have ho := Tree.validate_eq_ok_iff.mp hOutput
  constructor
  case outputOwner => exact fun id => ho.existsUnique_deepest hOutputDisjoint
  case sourceOwner => exact fun id => hs.existsUnique_deepest hSourceDisjoint
  case inserted =>
    simp only [inserted_iff, ho.tops_iff_deepest hOutputDisjoint, not_exists, not_and, ne_eq]
  case substituted =>
    rw [owned_class_iff options input (by decide)]
    simp only [ho.tops_iff_deepest hOutputDisjoint, true_and, reduceCtorEq, false_and, or_false]
  case carried =>
    rw [owned_class_iff options input (by decide)]
    simp only [ho.tops_iff_deepest hOutputDisjoint, true_and, reduceCtorEq, false_and, false_or]
  case removed =>
    simp only [removed_iff, hs.tops_iff_deepest hSourceDisjoint, not_or, not_exists, not_and,
      ne_eq, Bool.not_eq_true]
    exact and_congr_right fun _ => and_comm

/-- The three bytes of the string at the end of the sum. -/
def stringSpan : Span := (Span.byte 2).cover (.byte 4)

/-- The sum `x+'a'`, or with another name and other quotes `y+"a"`. -/
def sumWithString (name : String) : Tree :=
  ⟨⟨0⟩, #[⟨.upTo 5, false, ⟨.binaryExpression, ⟨"+", ⟨1⟩, ⟨2⟩⟩⟩⟩,
    ⟨.byte 0, false, ⟨.identifier, ⟨name⟩⟩⟩,
    ⟨stringSpan, false, ⟨.stringLiteral, ⟨"a"⟩⟩⟩]⟩

/-- The name in front of the sum is replaced, and the string gets other quotes. -/
def renamedSum : AlignmentInput where
  source := ⟨['x', '+', '\x27', 'a', '\x27']⟩
  output := ⟨['y', '+', '"', 'a', '"']⟩
  sourceTree := sumWithString "x"
  outputTree := sumWithString "y"
  provenance := ⟨[(⟨0⟩, .carried .binaryExpression (.upTo 5) ⟨0⟩),
    (⟨2⟩, .carried .stringLiteral stringSpan ⟨2⟩)], by simp [Ascending]⟩

/-- The sum and the string have ranges, the name has none. -/
def renamedRanges : RangeSet where
  ranges :=
    [{ source := .upTo 5
       output := .upTo 5
       node := ⟨0⟩
       outputKind := .binaryExpression
       anchors := [.plain 1 1]
       predecessors := [⟨.binaryExpression, .upTo 5, some ⟨0⟩⟩]
       steps := [] },
     { source := stringSpan
       output := stringSpan
       node := ⟨2⟩
       outputKind := .stringLiteral
       anchors := [.substitute 2 2 (some '\x27') (some '"'), .plain 3 3,
         .substitute 4 4 (some '\x27') (some '"')]
       predecessors := [⟨.stringLiteral, stringSpan, some ⟨2⟩⟩]
       steps := [] }]

theorem preorder_sumWithString (name : String) :
    (sumWithString name).preorder = [⟨0⟩, ⟨1⟩, ⟨2⟩] := by
  cbv

theorem layers_sumWithString (name : String) :
    (sumWithString name).layers = [(⟨2⟩, stringSpan), (⟨1⟩, .upTo 1), (⟨0⟩, .upTo 5)] := by
  rw [Tree.layers, preorder_sumWithString]
  rfl

theorem ranges_renamedSum : (align .default renamedSum).ranges = renamedRanges := by
  have hWalk : renamedSum.outputTree.preorder = [⟨0⟩, ⟨1⟩, ⟨2⟩] := preorder_sumWithString "y"
  have hSum : candidate? .default renamedSum ⟨0⟩ = some renamedRanges.ranges[0] := by
    refine candidate?_eq_some_iff.mpr ⟨_, _, [], rfl, rfl, ?_⟩
    exact rangeOf?_of_settled [.plain 1 1] rfl (by decide) (by decide) (by decide) rfl
  have hName : candidate? .default renamedSum ⟨1⟩ = none := rfl
  have hString : candidate? .default renamedSum ⟨2⟩ = some renamedRanges.ranges[1] := by
    refine candidate?_eq_some_iff.mpr ⟨_, _, [], rfl, rfl, ?_⟩
    exact rangeOf?_of_settled renamedRanges.ranges[1].anchors rfl (by decide) (by decide)
      (by decide) rfl
  rw [ranges_align, candidates, hWalk, List.filterMap_cons_some hSum,
    List.filterMap_cons_none hName, List.filterMap_cons_some hString]
  exact RangeSet.afterInserts_of_ordered (by decide)

/-- The name is inserted and the old one removed, the quote is substituted, and the sign
between is carried over. -/
theorem ownerClasses_renamedSum :
    renamedSum.sourceTree.validate renamedSum.source.size = .ok () ∧
      renamedSum.outputTree.validate renamedSum.output.size = .ok () ∧
      renamedSum.sourceTree.SiblingsDisjoint ∧ renamedSum.outputTree.SiblingsDisjoint ∧
      (align .default renamedSum).classes.outputClass? 0 = some .inserted ∧
      (align .default renamedSum).classes.outputClass? 1 = some .carried ∧
      (align .default renamedSum).classes.outputClass? 2 = some .substituted ∧
      (align .default renamedSum).classes.isRemoved 0 = true := by
  have hSource : renamedSum.sourceTree.validate renamedSum.source.size = .ok () := rfl
  have hOutput : renamedSum.outputTree.validate renamedSum.output.size = .ok () := rfl
  have hSourceApart : renamedSum.sourceTree.SiblingsApart := by decide
  have hOutputApart : renamedSum.outputTree.SiblingsApart := by decide
  have hClasses := ownerClasses_align .default renamedSum hSource hOutput hSourceApart.disjoint
    hOutputApart.disjoint
  have hOwner : ∀ name owner offset,
      ownerIn? [(⟨2⟩, stringSpan), (⟨1⟩, .upTo 1), (⟨0⟩, .upTo 5)] offset = some owner →
      (sumWithString name).SiblingsApart → (sumWithString name).validate 5 = .ok () →
      (sumWithString name).Deepest owner offset := by
    intro name owner offset hFound hApart hValid
    rw [← layers_sumWithString name] at hFound
    have h := Tree.validate_eq_ok_iff.mp hValid
    exact (h.tops_iff_deepest hApart.disjoint).mp (Tree.ownerIn?_eq_some_iff.mp hFound)
  have hName := hOwner "y" ⟨1⟩ 0 rfl hOutputApart hOutput
  have hSign := hOwner "y" ⟨0⟩ 1 rfl hOutputApart hOutput
  have hQuote := hOwner "y" ⟨2⟩ 2 rfl hOutputApart hOutput
  have hOldName := hOwner "x" ⟨1⟩ 0 rfl hSourceApart hSource
  refine ⟨hSource, hOutput, hSourceApart.disjoint, hOutputApart.disjoint, ?_, ?_, ?_, ?_⟩
  · refine (hClasses 0).inserted.mpr ⟨by decide, ?_⟩
    intro owner hDeepest
    rw [hDeepest.unique hName, ranges_renamedSum]
    decide
  · refine (hClasses 1).carried.mpr ⟨by decide, ⟨⟨0⟩, hSign, ?_⟩, ?_⟩
    · rw [ranges_renamedSum]
      decide
    · rw [ranges_renamedSum, ← RangeSet.any_contains_replacements]
      decide
  · refine (hClasses 2).substituted.mpr ⟨by decide, ⟨⟨2⟩, hQuote, ?_⟩, ?_⟩
    · rw [ranges_renamedSum]
      decide
    · rw [ranges_renamedSum, ← RangeSet.any_contains_replacements]
      decide
  · refine (hClasses 0).removed.mpr ⟨by decide, ?_, ?_⟩
    · rw [ranges_renamedSum]
      decide
    · intro owner hDeepest
      rw [hDeepest.unique hOldName, ranges_renamedSum]
      decide

end Alignment

end Retrace
