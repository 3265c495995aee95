import Mathlib.Data.List.Find
import Retrace.Proofs.Owner
import Retrace.Proofs.Search
import Retrace.Proofs.Truthful.Alignment

/-!
# Classes of whole characters

The class of an output byte is found byte by byte, from the spans of the output nodes and from
the replaced characters. If none of these spans splits a character, all bytes of a character
lie in the same of them (`Span.contains_eq_of_within`), so they get the same class
(`Classes.outputClassOf_eq_of_within`).

The spans of the nodes are the caller's. Those of the replaced characters are as long as the
character that an anchor shows, which says little about the text: that they split no character
is due to the anchors, which show the character that really stands there
(`Alignment.onBoundaries_of_mem_replacements`).

The runs of a class are maximal. A run that started or ended inside a character would go on
to the other bytes of it (`Separated.onBoundaries`).
-/

namespace Retrace

namespace Text

variable {t : Text} {place offset : Nat} {c : Char}

/-- The byte is one of those of the character that starts at `place`. -/
def Within (t : Text) (place offset : Nat) : Prop :=
  ∃ c, t.charAt? place = some c ∧ place ≤ offset ∧ offset < place + c.utf8Size

theorem StandsAt.boundary {piece : List Char} (h : t.StandsAt place piece) : t.Boundary place :=
  StandsAt.part [] [] piece h

/-- A character starts and ends at a boundary. -/
theorem boundaries_of_charAt? (h : t.charAt? place = some c) :
    t.Boundary place ∧ t.Boundary (place + c.utf8Size) := by
  have hStands := charAt?_eq_some_iff.mp h
  have hSize : byteSize [c] = c.utf8Size := rfl
  exact ⟨hStands.boundary, hSize ▸ hStands.stop⟩

theorem Within.lt_size (h : t.Within place offset) : place < t.size ∧ offset < t.size := by
  obtain ⟨c, hChar, hStart, hStop⟩ := h
  have hEnd := (boundaries_of_charAt? hChar).2.add_size_le
  rw [byteSize] at hEnd
  omega

/-- There is no boundary inside a character. -/
theorem Boundary.le_or_le (h : t.Boundary offset) (hChar : t.charAt? place = some c) :
    offset ≤ place ∨ place + c.utf8Size ≤ offset := by
  by_cases hLess : place < offset
  · exact Or.inr ((charAt?_eq_some_iff.mp hChar).next_le h hLess)
  · exact Or.inl (Nat.le_of_not_lt hLess)

/-- An offset of a text that is no boundary lies inside a character. -/
theorem boundary_or_within (t : Text) {offset : Nat} (hOffset : offset ≤ t.size) :
    t.Boundary offset ∨ ∃ place, place < offset ∧ t.Within place offset := by
  obtain ⟨cs⟩ := t
  induction cs generalizing offset with
  | nil =>
    obtain rfl : offset = 0 := by simpa [size, byteSize] using hOffset
    exact Or.inl ⟨[], [], rfl, rfl⟩
  | cons d ds ih =>
    by_cases hFirst : offset < d.utf8Size
    · by_cases hZero : offset = 0
      · exact Or.inl ⟨[], d :: ds, rfl, hZero.symm⟩
      · exact Or.inr ⟨0, by omega, d, rfl, by omega, by omega⟩
    · have hRest : offset - d.utf8Size ≤ (⟨ds⟩ : Text).size := by
        simp only [size, byteSize] at hOffset ⊢
        omega
      rcases ih hRest with hBoundary | ⟨place, hPlace, c, hChar, hStart, hStop⟩
      · exact Or.inl (standsAt_cons_iff.mpr (Or.inr ⟨_, hBoundary, by omega⟩))
      · refine Or.inr ⟨place + d.utf8Size, by omega, c, ?_, by omega, by omega⟩
        rw [charAt?_eq_some_iff] at hChar ⊢
        exact standsAt_cons_iff.mpr (Or.inr ⟨place, hChar, rfl⟩)

end Text

/-! ## Spans that split no character -/

/-- The span starts and ends at a boundary of the text. -/
def Span.OnBoundaries (t : Text) (s : Span) : Prop := t.Boundary s.start ∧ t.Boundary s.stop

variable {t : Text} {place i : Nat}

theorem Span.contains_eq_of_within {s : Span} (h : s.OnBoundaries t) (hByte : t.Within place i) :
    s.contains i = s.contains place := by
  obtain ⟨c, hChar, hStart, hStop⟩ := hByte
  have hLow := h.1.le_or_le hChar
  have hHigh := h.2.le_or_le hChar
  have hPos := c.utf8Size_pos
  rw [Bool.eq_iff_iff, contains_iff, contains_iff]
  omega

theorem any_contains_eq_of_within {spans : List Span} (h : ∀ s ∈ spans, s.OnBoundaries t)
    (hByte : t.Within place i) : spans.any (·.contains i) = spans.any (·.contains place) := by
  induction spans with
  | nil => rfl
  | cons s rest ih =>
    obtain ⟨hHead, hRest⟩ := List.forall_mem_cons.mp h
    rw [List.any_cons, List.any_cons, Span.contains_eq_of_within hHead hByte, ih hRest]

theorem ownerIn?_eq_of_within {layers : List (NodeId × Span)}
    (h : ∀ layer ∈ layers, layer.2.OnBoundaries t) (hByte : t.Within place i) :
    ownerIn? layers i = ownerIn? layers place := by
  unfold ownerIn?
  congr 1
  apply List.find?_congr
  intro layer hLayer
  exact Span.contains_eq_of_within (h layer hLayer) hByte

namespace Classes

theorem separated_runsOf {source output : Tree} {sourceSize outputSize : Nat} {ranges : RangeSet}
    {cls : CharClass} (hOutput : cls ≠ .removed) :
    Separated 0 outputSize ((ofRanges source output sourceSize outputSize ranges).runsOf cls) := by
  cases cls with
  | carried => exact separated_zero_runsFrom _ (by simp)
  | substituted => exact separated_zero_runsFrom _ (by simp)
  | inserted => exact separated_zero_runsFrom _ (by simp)
  | removed => exact absurd rfl hOutput

/-- The bytes of a character get the same class. -/
theorem outputClassOf_eq_of_within {ranges : RangeSet} {replaced : List Span}
    {layers : List (NodeId × Span)} (hLayers : ∀ layer ∈ layers, layer.2.OnBoundaries t)
    (hReplaced : ∀ s ∈ replaced, s.OnBoundaries t) (hByte : t.Within place i) :
    outputClassOf ranges replaced (ownerIn? layers i) i =
      outputClassOf ranges replaced (ownerIn? layers place) place := by
  rw [ownerIn?_eq_of_within hLayers hByte, outputClassOf, outputClassOf,
    any_contains_eq_of_within hReplaced hByte]

end Classes

/-! ## Runs that split no character -/

namespace Separated

variable {low high : Nat} {spans : List Span}

theorem eq_or_apart (h : Separated low high spans) {r s : Span} (hr : r ∈ spans) (hs : s ∈ spans) :
    r = s ∨ r.stop < s.start ∨ s.stop < r.start := by
  obtain ⟨front, back, rfl⟩ := List.append_of_mem hs
  obtain ⟨-, hBack, hFront⟩ := List.pairwise_append.mp h.gaps
  rcases List.mem_append.mp hr with hr | hr
  · exact Or.inr (Or.inl (hFront r hr s List.mem_cons_self))
  · rcases List.mem_cons.mp hr with rfl | hr
    · exact Or.inl rfl
    · exact Or.inr (Or.inr ((List.pairwise_cons.mp hBack).1 r hr))

/-- The byte in front of a run is in no run. -/
theorem not_any_contains_of_succ_eq (h : Separated low high spans) {s : Span} (hs : s ∈ spans)
    (hBefore : i + 1 = s.start) : ¬ spans.any (·.contains i) = true := by
  intro hAny
  obtain ⟨r, hr, hContains⟩ := List.any_eq_true.mp hAny
  have hInside := Span.contains_iff.mp hContains
  rcases h.eq_or_apart hr hs with rfl | hLeft | hRight
  · omega
  · omega
  · have hOrder := s.start_le_stop
    omega

/-- The byte behind a run is in no run. -/
theorem not_any_contains_stop (h : Separated low high spans) {s : Span} (hs : s ∈ spans) :
    ¬ spans.any (·.contains s.stop) = true := by
  intro hAny
  obtain ⟨r, hr, hContains⟩ := List.any_eq_true.mp hAny
  have hInside := Span.contains_iff.mp hContains
  rcases h.eq_or_apart hr hs with rfl | hLeft | hRight
  · omega
  · have hOrder := s.start_le_stop
    omega
  · omega

/-- Runs that have all bytes of a character or none of them start and end at boundaries. -/
theorem onBoundaries (h : Separated 0 t.size spans)
    (hWhole : ∀ place i, t.Within place i →
      spans.any (·.contains i) = spans.any (·.contains place)) :
    ∀ s ∈ spans, s.OnBoundaries t := by
  intro s hs
  have hSome := h.nonempty s hs
  have hStop := (h.within s hs).2
  have hStart : s.start ≤ t.size := by omega
  have hMember : ∀ i, s.start ≤ i → i < s.stop → spans.any (·.contains i) = true :=
    fun i hLow hHigh => List.any_eq_true.mpr ⟨s, hs, Span.contains_iff.mpr ⟨hLow, hHigh⟩⟩
  constructor
  · rcases t.boundary_or_within hStart with hBoundary | hInner
    · exact hBoundary
    · exfalso
      obtain ⟨place, hPlace, c, hChar, hLow, hHigh⟩ := hInner
      have hBefore : t.Within place (s.start - 1) := ⟨c, hChar, by omega, by omega⟩
      apply h.not_any_contains_of_succ_eq hs (i := s.start - 1) (by omega)
      rw [hWhole place _ hBefore, ← hWhole place _ ⟨c, hChar, hLow, hHigh⟩]
      exact hMember s.start (Nat.le_refl _) hSome
  · rcases t.boundary_or_within hStop with hBoundary | hInner
    · exact hBoundary
    · exfalso
      obtain ⟨place, hPlace, c, hChar, hLow, hHigh⟩ := hInner
      have hBefore : t.Within place (s.stop - 1) := ⟨c, hChar, by omega, by omega⟩
      apply h.not_any_contains_stop hs
      rw [hWhole place _ ⟨c, hChar, hLow, hHigh⟩, ← hWhole place _ hBefore]
      exact hMember (s.stop - 1) (by omega) (by omega)

end Separated

/-! ## The classes of an alignment -/

namespace Alignment

theorem onBoundaries_of_mem_layers {tree : Tree}
    (h : ∀ id n, tree.Reachable id → tree.node? id = some n → n.span.OnBoundaries t) :
    ∀ layer ∈ tree.layers, layer.2.OnBoundaries t := by
  intro layer hLayer
  obtain ⟨id, hWalk, hMap⟩ := List.mem_filterMap.mp (List.mem_reverse.mp hLayer)
  obtain ⟨n, hNode, rfl⟩ := Option.map_eq_some_iff.mp hMap
  exact h id n (Tree.mem_preorder_iff.mp hWalk).1 hNode

/-- A replaced character is one of the output. -/
theorem onBoundaries_of_mem_replacements (options : Options) (input : AlignmentInput) :
    ∀ s ∈ (align options input).ranges.replacements, s.OnBoundaries input.output := by
  intro s hs
  obtain ⟨r, hRange, hAnchors⟩ := List.mem_flatMap.mp hs
  obtain ⟨a, hAnchor, hMap⟩ := List.mem_filterMap.mp hAnchors
  obtain ⟨c, hReplaced, rfl⟩ := Option.map_eq_some_iff.mp hMap
  exact Text.boundaries_of_charAt? (charAt?_of_mem_align hRange hAnchor hReplaced)

/-- **No class splits a character of the output.** If the spans of the output nodes that can be
reached start and end at boundaries of the output, so do the runs of carried, substituted and
inserted bytes, and all bytes of one character have the same class. -/
theorem wholeCharacters_align (options : Options) (input : AlignmentInput)
    (hSpans : ∀ id n, input.outputTree.Reachable id → input.outputTree.node? id = some n →
      n.span.OnBoundaries input.output) :
    (∀ cls, cls ≠ .removed → ∀ s ∈ (align options input).classes.runsOf cls,
      s.OnBoundaries input.output) ∧
    ∀ offset c, input.output.charAt? offset = some c →
      ∃ cls, ∀ i, offset ≤ i → i < offset + c.utf8Size →
        (align options input).classes.outputClass? i = some cls := by
  have hSame : ∀ place i, input.output.Within place i →
      outputClassOf (align options input).ranges (align options input).ranges.replacements
          (ownerIn? input.outputTree.layers i) i =
        outputClassOf (align options input).ranges (align options input).ranges.replacements
          (ownerIn? input.outputTree.layers place) place :=
    fun place i hByte => Classes.outputClassOf_eq_of_within (onBoundaries_of_mem_layers hSpans)
      (onBoundaries_of_mem_replacements options input) hByte
  constructor
  · intro cls hOutput
    rw [classes_align]
    apply Separated.onBoundaries (Classes.separated_runsOf hOutput)
    intro place i hByte
    obtain ⟨hPlace, hInside⟩ := hByte.lt_size
    rw [Bool.eq_iff_iff, Classes.any_contains_runsOf hOutput, Classes.any_contains_runsOf hOutput,
      hSame place i hByte]
    exact and_congr_left fun _ => iff_of_true hInside hPlace
  · intro offset c hChar
    refine ⟨outputClassOf (align options input).ranges (align options input).ranges.replacements
      (ownerIn? input.outputTree.layers offset) offset, fun i hStart hStop => ?_⟩
    have hByte : input.output.Within offset i := ⟨c, hChar, hStart, hStop⟩
    rw [classes_align, Classes.outputClass?_ofRanges, if_pos hByte.lt_size.2, hSame offset i hByte]

/-- A string between quotes of two bytes each, made of a template. The last byte of the
closing quote is taken for the quote, and it is no character. -/
def guillemets : AlignmentInput where
  source := ⟨['`', 'é', '`']⟩
  output := ⟨['«', 'é', '»']⟩
  sourceTree := ⟨⟨0⟩, #[⟨.upTo 4, false, ⟨.templateLiteral, ⟨[⟨1⟩], []⟩⟩⟩,
    ⟨⟨1, 3, by decide⟩, false, ⟨.templateElement, ⟨"é", true⟩⟩⟩]⟩
  outputTree := ⟨⟨0⟩, #[⟨.upTo 6, false, ⟨.stringLiteral, ⟨"é"⟩⟩⟩]⟩
  provenance := ⟨[(⟨0⟩, .carried .templateLiteral (.upTo 4) ⟨0⟩)], by simp [Ascending]⟩

/-- The anchors of the string are its quotes. -/
def guillemetsRange : Range where
  source := .upTo 4
  output := .upTo 6
  node := ⟨0⟩
  outputKind := .stringLiteral
  anchors := [.substitute 0 0 (some '`') (some '«'), .substitute 3 5 (some '`') none]
  predecessors := [⟨.templateLiteral, .upTo 4, some ⟨0⟩⟩]
  steps := []

theorem preorder_guillemets : guillemets.outputTree.preorder = [⟨0⟩] := by
  cbv

theorem ranges_guillemets : (align .default guillemets).ranges = ⟨[guillemetsRange]⟩ := by
  have hString : candidate? .default guillemets ⟨0⟩ = some guillemetsRange := by
    refine candidate?_eq_some_iff.mpr ⟨_, _, [], rfl, rfl, ?_⟩
    exact rangeOf?_of_settled guillemetsRange.anchors rfl (by decide) (by decide) (by decide) rfl
  rw [ranges_align, candidates, preorder_guillemets, List.filterMap_cons_some hString]
  exact RangeSet.afterInserts_of_ordered (by decide)

theorem classes_guillemets : (align .default guillemets).classes =
    ⟨[⟨2, 6, by decide⟩], [⟨0, 2, by decide⟩], [], [⟨1, 3, by decide⟩]⟩ := by
  have hSourceWalk : guillemets.sourceTree.preorder = [⟨0⟩, ⟨1⟩] := by cbv
  rw [classes_align, ranges_guillemets, Classes.ofRanges, Tree.layers, Tree.layers,
    preorder_guillemets, hSourceWalk]
  rfl

theorem wholeCharacters_guillemets :
    (∀ id n, guillemets.outputTree.Reachable id → guillemets.outputTree.node? id = some n →
      n.span.OnBoundaries guillemets.output) ∧
      (align .default guillemets).classes.substituted = [⟨0, 2, by decide⟩] ∧
      (align .default guillemets).classes.carried = [⟨2, 6, by decide⟩] ∧
      guillemets.output.Boundary 2 ∧
      (align .default guillemets).classes.outputClass? 4 =
        (align .default guillemets).classes.outputClass? 5 := by
  have hSpans : ∀ id n, guillemets.outputTree.Reachable id →
      guillemets.outputTree.node? id = some n → n.span.OnBoundaries guillemets.output := by
    rintro ⟨index⟩ n - hNode
    cases index with
    | zero =>
      cases hNode
      exact ⟨by decide, by decide⟩
    | succ index => cases hNode
  obtain ⟨hRuns, hCharacters⟩ := wholeCharacters_align .default guillemets hSpans
  obtain ⟨cls, hSame⟩ := hCharacters 4 '»' rfl
  have hBytes := (hSame 4 (by decide) (by decide)).trans (hSame 5 (by decide) (by decide)).symm
  have hSubstituted := hRuns .substituted (by decide)
  rw [classes_guillemets] at hSubstituted hBytes ⊢
  exact ⟨hSpans, rfl, rfl, (hSubstituted _ (List.mem_singleton_self _)).2, hBytes⟩

end Alignment

end Retrace
