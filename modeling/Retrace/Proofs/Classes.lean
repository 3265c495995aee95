import Retrace.Proofs.Run

/-!
# The classes of bytes

The runs of a class are the maximal stretches of its bytes: they are not empty,
lie inside the text, go up and leave a byte free between them
(`Separated`), and they cover exactly the bytes of the class
(`any_contains_runsFrom`). As every output byte has one class, the runs of the
three output classes lie side by side and leave nothing out.

A byte that is not inserted is owned by a node with a range, and the range of a
node covers at least the span of that node (`encloses_of_bounds`). Nothing is
assumed of the trees here: whichever node the painting leaves on top of a byte,
its span has that byte.
-/

namespace Retrace

/-! ## Runs -/

/-- Spans that are not empty, lie between two offsets, go up and leave at least
one byte free between them. -/
structure Separated (low high : Nat) (spans : List Span) : Prop where
  nonempty : ∀ s ∈ spans, s.start < s.stop
  within : ∀ s ∈ spans, low ≤ s.start ∧ s.stop ≤ high
  gaps : spans.Pairwise fun a b => a.stop < b.start

theorem separated_nil (low high : Nat) : Separated low high [] where
  nonempty := by simp
  within := by simp
  gaps := List.Pairwise.nil

theorem Separated.lower {low low' high : Nat} {spans : List Span}
    (h : Separated low high spans) (hLow : low' ≤ low) : Separated low' high spans where
  nonempty := h.nonempty
  within := fun s hs => ⟨hLow.trans (h.within s hs).1, (h.within s hs).2⟩
  gaps := h.gaps

theorem separated_cons {low high : Nat} {s : Span} {rest : List Span} (hNonempty : s.start < s.stop)
    (hLow : low ≤ s.start) (hHigh : s.stop ≤ high) (hRest : Separated (s.stop + 1) high rest) :
    Separated low high (s :: rest) where
  nonempty := List.forall_mem_cons.mpr ⟨hNonempty, hRest.nonempty⟩
  within := by
    refine List.forall_mem_cons.mpr ⟨⟨hLow, hHigh⟩, fun r hr => ?_⟩
    have hWithin := hRest.within r hr
    omega
  gaps := List.pairwise_cons.mpr ⟨fun r hr => (hRest.within r hr).1, hRest.gaps⟩

theorem Separated.tail {low high : Nat} {s : Span} {rest : List Span}
    (h : Separated low high (s :: rest)) : Separated (s.stop + 1) high rest where
  nonempty := (List.forall_mem_cons.mp h.nonempty).2
  within := fun r hr =>
    ⟨(List.pairwise_cons.mp h.gaps).1 r hr, ((List.forall_mem_cons.mp h.within).2 r hr).2⟩
  gaps := (List.pairwise_cons.mp h.gaps).2

/-- A byte in front of runs either makes the first of them longer or is a run of
its own. -/
theorem separated_extendRuns {offset high : Nat} {later : List Span} (hOffset : offset < high)
    (h : Separated (offset + 1) high later) : Separated offset high (extendRuns offset later) := by
  cases later with
  | nil => exact separated_cons (Nat.lt_succ_self _) (Nat.le_refl _) hOffset (separated_nil _ _)
  | cons run rest =>
    obtain ⟨hLow, hHigh⟩ := (List.forall_mem_cons.mp h.within).1
    have hOrder := run.start_le_stop
    rw [extendRuns]
    split
    · rename_i hTouch
      have hStop : (Span.cover (.byte offset) run).stop = run.stop := by
        simp only [Span.cover, Span.byte]
        omega
      refine separated_cons ?_ ?_ (by omega) (by rw [hStop]; exact h.tail)
      · simp only [Span.cover, Span.byte]
        omega
      · simp only [Span.cover, Span.byte]
        omega
    · rename_i hGap
      refine separated_cons (Nat.lt_succ_self _) (Nat.le_refl _) hOffset ?_
      refine separated_cons ((List.forall_mem_cons.mp h.nonempty).1) ?_ hHigh h.tail
      simp only [Span.byte]
      omega

theorem any_contains_extendRuns {offset i : Nat} {later : List Span} :
    (extendRuns offset later).any (·.contains i) = true ↔
      i = offset ∨ later.any (·.contains i) = true := by
  cases later with
  | nil =>
    simp only [extendRuns, List.any_cons, List.any_nil, Bool.or_false, Span.contains_iff, Span.byte,
      Bool.false_eq_true, or_false]
    omega
  | cons run rest =>
    have hOrder := run.start_le_stop
    rw [extendRuns]
    split
    · simp only [List.any_cons, Bool.or_eq_true, Span.contains_iff, Span.cover, Span.byte,
        ← or_assoc]
      refine or_congr_left ?_
      omega
    · simp only [List.any_cons, Bool.or_eq_true, Span.contains_iff, Span.byte]
      refine or_congr_left ?_
      omega

theorem separated_runsFrom (start : Nat) (members : List Bool) :
    Separated start (start + members.length) (runsFrom start members) := by
  induction members generalizing start with
  | nil => exact separated_nil _ _
  | cons member rest ih =>
    have hLater := ih (start + 1)
    rw [show start + 1 + rest.length = start + (member :: rest).length by
      simp only [List.length_cons]; omega] at hLater
    rw [runsFrom]
    split
    · exact separated_extendRuns (by simp) hLater
    · exact hLater.lower (Nat.le_succ start)

/-- The runs cover the members and nothing else. -/
theorem any_contains_runsFrom {start i : Nat} {members : List Bool} :
    (runsFrom start members).any (·.contains i) = true ↔
      start ≤ i ∧ members[i - start]? = some true := by
  induction members generalizing start with
  | nil => simp [runsFrom]
  | cons member rest ih =>
    have hShift : i ≠ start →
        (start + 1 ≤ i ∧ rest[i - (start + 1)]? = some true ↔
          start ≤ i ∧ (member :: rest)[i - start]? = some true) := by
      intro hNe
      by_cases hLe : start + 1 ≤ i
      · rw [show i - start = i - (start + 1) + 1 by omega, List.getElem?_cons_succ]
        exact ⟨fun h => ⟨by omega, h.2⟩, fun h => ⟨hLe, h.2⟩⟩
      · exact iff_of_false (fun h => hLe h.1) (fun h => by omega)
    rw [runsFrom]
    split
    · rename_i hMember
      rw [any_contains_extendRuns, ih]
      by_cases hEq : i = start
      · simp [hEq, hMember]
      · rw [← hShift hEq]
        simp [hEq]
    · rename_i hMember
      rw [ih]
      by_cases hEq : i = start
      · simp [hEq, hMember]
      · exact hShift hEq

/-- At most one of some separated spans has a given byte. -/
theorem Separated.countP_contains {low high i : Nat} {spans : List Span}
    (h : Separated low high spans) :
    spans.countP (·.contains i) = if spans.any (·.contains i) = true then 1 else 0 := by
  induction spans generalizing low with
  | nil => rfl
  | cons s rest ih =>
    rw [List.countP_cons, ih h.tail, List.any_cons]
    cases hs : s.contains i with
    | false => simp
    | true =>
      have hRest : rest.any (·.contains i) = false := by
        rw [List.any_eq_false]
        intro r hr hContains
        have hStop := (Span.contains_iff.mp hs).2
        have hStart := (Span.contains_iff.mp hContains).1
        have hGap := (h.tail.within r hr).1
        omega
      simp [hRest]

theorem Separated.eq_nil {low high : Nat} {spans : List Span} (h : Separated low high spans)
    (hNone : ∀ i, ¬ spans.any (·.contains i) = true) : spans = [] := by
  refine List.eq_nil_iff_forall_not_mem.mpr fun s hs => hNone s.start ?_
  exact List.any_eq_true.mpr ⟨s, hs, Span.contains_iff.mpr ⟨Nat.le_refl _, h.nonempty s hs⟩⟩

/-! ## Ranges and owners -/

namespace Alignment

/-- The output span of a range covers the span of its node. -/
theorem encloses_of_bounds {options : Options} {hull source output : Span} {n : Node}
    {pairing : Option Pairing} {outcome : Outcome}
    (h : bounds options hull n pairing = (source, output, outcome)) :
    output.encloses n.span = true := by
  have hSelf : n.span.encloses n.span = true := Span.encloses_iff.mpr ⟨Nat.le_refl _, Nat.le_refl _⟩
  cases bounded_of_bounds h with
  | unpaired _ => exact hSelf
  | plain _ _ => exact hSelf
  | widened _ _ => exact Span.encloses_iff.mpr ⟨Nat.min_le_right _ _, Nat.le_max_right _ _⟩

theorem encloses_of_mem_align {options : Options} {input : AlignmentInput} {r : Range} {n : Node}
    (hRange : r ∈ (align options input).ranges.ranges)
    (hNode : input.outputTree.node? r.node = some n) : r.output.encloses n.span = true := by
  obtain ⟨n', link, problems, hNode', -, hRangeOf⟩ := exists_rangeOf?_of_mem hRange
  obtain ⟨hull, -, source, output, outcome, hBounds, hr, -⟩ := rangeOf?_eq_some_iff.mp hRangeOf
  have hSame : n' = n := Option.some.inj (hNode'.symm.trans hNode)
  rw [hr, ← hSame]
  exact encloses_of_bounds hBounds

end Alignment

/-- The owner of a byte is a node whose span has the byte. -/
theorem exists_node_of_ownerIn? {t : Tree} {offset : Nat} {id : NodeId}
    (h : ownerIn? t.layers offset = some id) :
    ∃ n, t.node? id = some n ∧ n.span.contains offset = true := by
  unfold ownerIn? at h
  obtain ⟨⟨owner, span⟩, hFind, rfl⟩ := Option.map_eq_some_iff.mp h
  have hContains := List.find?_some hFind
  have hMem := List.mem_of_find?_eq_some hFind
  unfold Tree.layers at hMem
  obtain ⟨id, -, hLayer⟩ := List.mem_filterMap.mp (List.mem_reverse.mp hMem)
  obtain ⟨n, hNode, hPair⟩ := Option.map_eq_some_iff.mp hLayer
  cases hPair
  exact ⟨n, hNode, hContains⟩

/-! ## The classes of an alignment -/

namespace Classes

/-- The runs of one class. -/
def runsOf (c : Classes) : CharClass → List Span
  | .carried => c.carried
  | .substituted => c.substituted
  | .inserted => c.inserted
  | .removed => c.removed

/-- The class of every byte, read off the lists of runs: the bytes of the output
fall into the first three lists, each into exactly one run, every list is made of
separated runs, and what is not inserted is covered by the ranges. -/
structure Partition (c : Classes) (ranges : RangeSet) (sourceSize outputSize : Nat) : Prop where
  unique : ∀ i < outputSize,
    (c.carried ++ c.substituted ++ c.inserted).countP (·.contains i) = 1
  named : ∀ i < outputSize, ∃ cls, cls ≠ .removed ∧ c.outputClass? i = some cls ∧
    ∃ s ∈ c.runsOf cls, s.contains i = true
  unnamed : ∀ i, outputSize ≤ i → c.outputClass? i = none
  carried : Separated 0 outputSize c.carried
  substituted : Separated 0 outputSize c.substituted
  inserted : Separated 0 outputSize c.inserted
  removed : Separated 0 sourceSize c.removed
  backed : ∀ i < outputSize, (∃ s ∈ c.inserted, s.contains i = true) ∨
    ∃ r ∈ ranges.ranges, r.output.contains i = true

theorem any_contains_runsFrom_map {size i : Nat} {f : Nat → CharClass} {cls : CharClass} :
    (runsFrom 0 (((List.range size).map f).map fun c => decide (c = cls))).any
        (·.contains i) = true ↔ i < size ∧ f i = cls := by
  rw [any_contains_runsFrom]
  by_cases hi : i < size
  · simp [hi]
  · simp [hi]

/-- A byte lies in the runs of the class it was painted with. -/
theorem any_contains_runsOf {source output : Tree} {sourceSize outputSize : Nat}
    {ranges : RangeSet} {i : Nat} {cls : CharClass} (hOutput : cls ≠ .removed) :
    ((ofRanges source output sourceSize outputSize ranges).runsOf cls).any (·.contains i) = true ↔
      i < outputSize ∧
        outputClassOf ranges ranges.replacements (ownerIn? output.layers i) i = cls := by
  cases cls with
  | carried => exact any_contains_runsFrom_map
  | substituted => exact any_contains_runsFrom_map
  | inserted => exact any_contains_runsFrom_map
  | removed => exact absurd rfl hOutput

theorem outputClassOf_ne_removed (ranges : RangeSet) (replaced : List Span)
    (owner : Option NodeId) (i : Nat) : outputClassOf ranges replaced owner i ≠ .removed := by
  unfold outputClassOf
  split_ifs <;> simp

theorem separated_zero_runsFrom {size : Nat} (members : List Bool) (h : members.length = size) :
    Separated 0 size (runsFrom 0 members) := by
  have hRuns := separated_runsFrom 0 members
  rwa [Nat.zero_add, h] at hRuns

/-- Looking a byte up in the runs gives back the class it was painted with. -/
theorem outputClass?_ofRanges (source output : Tree) (sourceSize outputSize : Nat)
    (ranges : RangeSet) (i : Nat) :
    (ofRanges source output sourceSize outputSize ranges).outputClass? i =
      if i < outputSize then
        some (outputClassOf ranges ranges.replacements (ownerIn? output.layers i) i)
      else none := by
  simp only [outputClass?, ofRanges, any_contains_runsFrom_map]
  by_cases hi : i < outputSize
  · simp only [hi, true_and, if_true]
    unfold outputClassOf
    split_ifs <;> simp_all
  · simp [hi]

/-- A byte whose owner has a range lies in the output span of that range. -/
theorem exists_range_of_owner {output : Tree} {ranges : RangeSet} {replaced : List Span}
    {i : Nat}
    (hCover : ∀ r ∈ ranges.ranges, ∀ n, output.node? r.node = some n →
      r.output.encloses n.span = true)
    (h : outputClassOf ranges replaced (ownerIn? output.layers i) i ≠ .inserted) :
    ∃ r ∈ ranges.ranges, r.output.contains i = true := by
  cases hOwner : ownerIn? output.layers i with
  | none => simp [hOwner, outputClassOf] at h
  | some id =>
    by_cases hHas : ranges.hasNode id = true
    · obtain ⟨r, hr, hId⟩ := List.any_eq_true.mp hHas
      rw [decide_eq_true_eq] at hId
      obtain ⟨n, hNode, hContains⟩ := exists_node_of_ownerIn? hOwner
      rw [← hId] at hNode
      obtain ⟨hStart, hStop⟩ := Span.encloses_iff.mp (hCover r hr n hNode)
      obtain ⟨hLow, hHigh⟩ := Span.contains_iff.mp hContains
      exact ⟨r, hr, Span.contains_iff.mpr ⟨by omega, by omega⟩⟩
    · simp [hOwner, outputClassOf, hHas] at h

theorem partition_ofRanges {source output : Tree} {sourceSize outputSize : Nat}
    {ranges : RangeSet}
    (hCover : ∀ r ∈ ranges.ranges, ∀ n, output.node? r.node = some n →
      r.output.encloses n.span = true) :
    (ofRanges source output sourceSize outputSize ranges).Partition ranges sourceSize
      outputSize := by
  have hLookup := outputClass?_ofRanges source output sourceSize outputSize ranges
  have hCarried : Separated 0 outputSize
      (ofRanges source output sourceSize outputSize ranges).carried :=
    separated_zero_runsFrom _ (by simp)
  have hSubstituted : Separated 0 outputSize
      (ofRanges source output sourceSize outputSize ranges).substituted :=
    separated_zero_runsFrom _ (by simp)
  have hInserted : Separated 0 outputSize
      (ofRanges source output sourceSize outputSize ranges).inserted :=
    separated_zero_runsFrom _ (by simp)
  refine ⟨fun i hi => ?_, fun i hi => ?_, fun i hi => ?_, hCarried, hSubstituted, hInserted,
    separated_zero_runsFrom _ (by simp), fun i hi => ?_⟩
  · rw [List.countP_append, List.countP_append, hCarried.countP_contains,
      hSubstituted.countP_contains, hInserted.countP_contains]
    simp only [ofRanges, any_contains_runsFrom_map, hi, true_and]
    unfold outputClassOf
    split_ifs <;> simp_all
  · have hOutput := outputClassOf_ne_removed ranges ranges.replacements (ownerIn? output.layers i) i
    exact ⟨_, hOutput, by rw [hLookup, if_pos hi],
      List.any_eq_true.mp ((any_contains_runsOf hOutput).mpr ⟨hi, rfl⟩)⟩
  · rw [hLookup, if_neg (by omega)]
  · by_cases hClass :
        outputClassOf ranges ranges.replacements (ownerIn? output.layers i) i = .inserted
    · exact Or.inl (List.any_eq_true.mp (any_contains_runsFrom_map.mpr ⟨hi, hClass⟩))
    · exact Or.inr (exists_range_of_owner hCover hClass)

end Classes

/-- **The classes partition the output** and are backed by the ranges, whatever the
texts, the trees, the links and the options are. -/
theorem Alignment.partition_align (options : Options) (input : AlignmentInput) :
    (align options input).classes.Partition (align options input).ranges input.source.size
      input.output.size :=
  Classes.partition_ofRanges fun _ hRange _ hNode => encloses_of_mem_align hRange hNode

end Retrace
