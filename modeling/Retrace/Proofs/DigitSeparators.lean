import Retrace.Proofs.Shape.Rules

/-!
# Numbers that lose their digit separators

The separators of a number are single bytes between its digits. When they are left out, the
rule goes through both texts at once and passes over the separators of the source. So the
characters that it compares are those behind equally many others, separators not counted
(`getElem?_digits_iff`), and it anchors a pair if the two are equal. Nothing is assumed of the
two texts besides the separators: they may have different lengths and differ anywhere.

If nothing but the separators is gone, every character of the output is anchored, and it lies
behind its place in the source by the separators before it.
-/

namespace Retrace

/-! ## Characters behind equally many others -/

theorem pairwise_zip {α β : Type} {R : α → α → Prop} {S : β → β → Prop} {xs : List α}
    {ys : List β} (hx : xs.Pairwise R) (hy : ys.Pairwise S) :
    (xs.zip ys).Pairwise fun a b => R a.1 b.1 ∧ S a.2 b.2 := by
  induction hx generalizing ys with
  | nil => exact List.Pairwise.nil
  | @cons x xs hHead _ ih =>
    cases hy with
    | nil => exact List.Pairwise.nil
    | @cons y ys hOther hRest =>
      refine List.Pairwise.cons ?_ (ih hRest)
      intro e he
      obtain ⟨hLeft, hRight⟩ := List.of_mem_zip he
      exact ⟨hHead _ hLeft, hOther _ hRight⟩

/-- A split of a list in front of a character is one in front of its head or one of its
tail. -/
theorem exists_split_cons {α : Type} {d c : α} {ds : List α} {P : List α → Prop} :
    (∃ front back, d :: ds = front ++ c :: back ∧ P front) ↔
      (d = c ∧ P []) ∨ ∃ front back, ds = front ++ c :: back ∧ P (d :: front) := by
  constructor
  · rintro ⟨front, back, hSplit, hFront⟩
    cases front with
    | nil => exact Or.inl ⟨(List.cons.inj hSplit).1, hFront⟩
    | cons e front =>
      obtain ⟨rfl, rfl⟩ := List.cons.inj hSplit
      exact Or.inr ⟨front, back, rfl, hFront⟩
  · rintro (⟨rfl, hFront⟩ | ⟨front, back, rfl, hFront⟩)
    · exact ⟨[], ds, rfl, hFront⟩
    · exact ⟨d :: front, back, rfl, hFront⟩

theorem getElem?_digits_iff {start k x : Nat} {c : Char} {piece : List Char} :
    ((charOffsetsFrom start piece).filter (·.2 ≠ '_'))[k]? = some (x, c) ↔
      ∃ front back, piece = front ++ c :: back ∧ c ≠ '_' ∧
        front.countP (· ≠ '_') = k ∧ x = start + byteSize front := by
  induction piece generalizing start k with
  | nil => simp [charOffsetsFrom]
  | cons d ds ih =>
    rw [charOffsetsFrom, exists_split_cons (P := fun front => c ≠ '_' ∧
      front.countP (· ≠ '_') = k ∧ x = start + byteSize front)]
    by_cases hSeparator : d = '_'
    · -- nothing is taken here, and `c` is another character
      subst hSeparator
      have hFilter : ∀ rest : List (Nat × Char),
          ((start, '_') :: rest).filter (·.2 ≠ '_') = rest.filter (·.2 ≠ '_') :=
        fun _ => List.filter_cons_of_neg (by simp)
      have hCount : ∀ front : List Char,
          ('_' :: front).countP (· ≠ '_') = front.countP (· ≠ '_') :=
        fun _ => List.countP_cons_of_neg (by simp)
      simp only [hFilter, ih, hCount, byteSize, Nat.add_assoc]
      constructor
      · exact Or.inr
      · rintro (⟨rfl, hc, -⟩ | hRest)
        · exact absurd rfl hc
        · exact hRest
    · have hFilter : ∀ rest : List (Nat × Char),
          ((start, d) :: rest).filter (·.2 ≠ '_') = (start, d) :: rest.filter (·.2 ≠ '_') :=
        fun _ => List.filter_cons_of_pos (by simpa using hSeparator)
      have hCount : ∀ front : List Char,
          (d :: front).countP (· ≠ '_') = front.countP (· ≠ '_') + 1 :=
        fun _ => List.countP_cons_of_pos (by simpa using hSeparator)
      simp only [hFilter, hCount, byteSize]
      cases k with
      | zero =>
        simp only [List.getElem?_cons_zero, Option.some.injEq, Prod.mk.injEq,
          Nat.succ_ne_zero, and_false, false_and, exists_false, or_false, List.countP_nil]
        constructor
        · rintro ⟨rfl, rfl⟩
          exact ⟨rfl, hSeparator, trivial, rfl⟩
        · rintro ⟨rfl, -, -, rfl⟩
          exact ⟨rfl, rfl⟩
      | succ k =>
        simp only [List.getElem?_cons_succ, ih, List.countP_nil, Nat.add_right_cancel_iff,
          Nat.add_assoc, (Nat.succ_ne_zero k).symm, false_and, and_false, false_or]

/-- A separator is one byte long. -/
theorem byteSize_eq_digits_add_count (piece : List Char) :
    byteSize piece = byteSize (piece.filter (· ≠ '_')) + piece.count '_' := by
  induction piece with
  | nil => rfl
  | cons c cs ih =>
    by_cases hSeparator : c = '_'
    · subst hSeparator
      have hSize : ('_' : Char).utf8Size = 1 := rfl
      have hFilter : ('_' :: cs).filter (· ≠ '_') = cs.filter (· ≠ '_') :=
        List.filter_cons_of_neg (by simp)
      rw [byteSize, hFilter, List.count_cons_self, ih, hSize]
      omega
    · have hFilter : (c :: cs).filter (· ≠ '_') = c :: cs.filter (· ≠ '_') :=
        List.filter_cons_of_pos (by simpa using hSeparator)
      rw [byteSize, hFilter, List.count_cons_of_ne hSeparator, byteSize, ih]
      omega

theorem map_snd_digits (start : Nat) (piece : List Char) :
    ((charOffsetsFrom start piece).filter (·.2 ≠ '_')).map (·.2) = piece.filter (· ≠ '_') := by
  have hFilter := List.filter_map (f := fun e : Nat × Char => e.2) (p := (· ≠ '_'))
    (l := charOffsetsFrom start piece)
  rw [map_snd_charOffsetsFrom] at hFilter
  exact hFilter.symm

/-- If all characters agree, none of the output is passed over. -/
theorem map_output_of_map_snd_eq {digits others : List (Nat × Char)}
    (h : digits.map (·.2) = others.map (·.2)) :
    ((digits.zip others).filterMap fun ((s, c), (o, d)) =>
      if c = d then some (Anchor.plain s o) else none).map (·.output) = others.map (·.1) := by
  induction digits generalizing others with
  | nil =>
    rw [List.map_nil] at h
    rw [List.map_eq_nil_iff.mp h.symm]
    rfl
  | cons e digits ih =>
    cases others with
    | nil => cases h
    | cons f others =>
      obtain ⟨hHead, hTail⟩ := List.cons.inj h
      rw [List.zip_cons_cons, List.filterMap_cons]
      simp only [if_pos hHead, List.map_cons, ih hTail]
      rfl

/-! ## Anchors of the characters that are left -/

/-- The anchors of a number without its separators: in increasing order, those that join the
`k`-th character of the source that is no separator and the `k`-th character of the output,
where the two are equal. -/
structure DigitsKept (source output : Nat) (grouped bare : List Char) (anchors : List Anchor) :
    Prop where
  mem_iff : ∀ a, a ∈ anchors ↔ ∃ k front c back, grouped = front ++ c :: back ∧ c ≠ '_' ∧
    front.countP (· ≠ '_') = k ∧ bare[k]? = some c ∧
    a = .plain (source + byteSize front) (output + byteSize (bare.take k))
  increasing : anchors.Pairwise fun a b => a.source < b.source ∧ a.output < b.output
  /-- If only separators are gone, each character of the output is anchored once. -/
  once : bare = grouped.filter (· ≠ '_') → anchors.map (·.output) =
    (List.range bare.length).map fun k => output + byteSize (bare.take k)
  /-- If only separators are gone, a character is shifted by those before it. -/
  shift : bare = grouped.filter (· ≠ '_') → ∀ a ∈ anchors, ∃ front c back,
    grouped = front ++ c :: back ∧ a.source = source + byteSize front ∧
    ((a.source : Int) - source) - ((a.output : Int) - output) = front.count '_'

namespace Rule

variable {p : Pairing} {grouped bare : List Char}

theorem charOffsets_of_slice? {s : Site} {piece : List Char} (h : s.slice? = some piece) :
    s.text.charOffsets s.node.span = charOffsetsFrom s.start piece := by
  have hSlice : s.text.slice? s.node.span = some piece := h
  unfold Text.charOffsets
  rw [hSlice]
  rfl

theorem mem_dropSeparators_iff (hs : p.source.slice? = some grouped)
    (ho : p.output.slice? = some bare) {a : Anchor} :
    a ∈ dropSeparators p ↔ ∃ k front c back, grouped = front ++ c :: back ∧ c ≠ '_' ∧
      front.countP (· ≠ '_') = k ∧ bare[k]? = some c ∧
      a = .plain (p.source.start + byteSize front) (p.output.start + byteSize (bare.take k)) := by
  unfold dropSeparators
  rw [charOffsets_of_slice? hs, charOffsets_of_slice? ho, List.mem_filterMap]
  constructor
  · rintro ⟨⟨⟨x, c⟩, ⟨y, d⟩⟩, hPair, hSome⟩
    obtain ⟨k, hk⟩ := List.mem_iff_getElem?.mp hPair
    obtain ⟨hDigit, hOther⟩ := List.getElem?_zip_eq_some.mp hk
    obtain ⟨front, back, hSplit, hc, hCount, rfl⟩ := getElem?_digits_iff.mp hDigit
    rw [getElem?_charOffsetsFrom] at hOther
    obtain ⟨e, hChar, hPlace⟩ := Option.map_eq_some_iff.mp hOther
    cases hPlace
    simp only [Option.ite_none_right_eq_some, Option.some.injEq] at hSome
    obtain ⟨rfl, rfl⟩ := hSome
    exact ⟨k, front, c, back, hSplit, hc, hCount, hChar, rfl⟩
  · rintro ⟨k, front, c, back, hSplit, hc, hCount, hChar, rfl⟩
    refine ⟨((p.source.start + byteSize front, c), (p.output.start + byteSize (bare.take k), c)),
      ?_, by simp⟩
    apply List.mem_iff_getElem?.mpr
    refine ⟨k, List.getElem?_zip_eq_some.mpr ⟨?_, ?_⟩⟩
    · exact getElem?_digits_iff.mpr ⟨front, back, hSplit, hc, hCount, rfl⟩
    · rw [getElem?_charOffsetsFrom, hChar]
      rfl

theorem increasing_dropSeparators (p : Pairing) :
    (dropSeparators p).Pairwise fun a b => a.source < b.source ∧ a.output < b.output := by
  have hOffsets : ∀ (t : Text) (span : Span),
      (t.charOffsets span).Pairwise fun a b => a.1 < b.1 := by
    intro t span
    unfold Text.charOffsets
    cases t.slice? span with
    | none => exact List.Pairwise.nil
    | some piece => exact pairwise_charOffsetsFrom span.start piece
  unfold dropSeparators
  apply (pairwise_zip ((hOffsets _ _).filter _) (hOffsets _ _)).filterMap
  rintro ⟨⟨x, c⟩, ⟨y, d⟩⟩ ⟨⟨x', c'⟩, ⟨y', d'⟩⟩ hLess a ha b hb
  simp only [Option.ite_none_right_eq_some, Option.some.injEq] at ha hb
  obtain ⟨-, rfl⟩ := ha
  obtain ⟨-, rfl⟩ := hb
  exact hLess

theorem digitsKept_dropSeparators (hs : p.source.slice? = some grouped)
    (ho : p.output.slice? = some bare) :
    DigitsKept p.source.start p.output.start grouped bare (dropSeparators p) where
  mem_iff _ := mem_dropSeparators_iff hs ho
  increasing := increasing_dropSeparators p
  once hStripped := by
    have hChars : ((charOffsetsFrom p.source.start grouped).filter (·.2 ≠ '_')).map (·.2) =
        (charOffsetsFrom p.output.start bare).map (·.2) := by
      rw [map_snd_digits, map_snd_charOffsetsFrom, hStripped]
    unfold dropSeparators
    rw [charOffsets_of_slice? hs, charOffsets_of_slice? ho, map_output_of_map_snd_eq hChars]
    exact map_fst_charOffsetsFrom p.output.start bare
  shift hStripped := by
    intro a ha
    obtain ⟨k, front, c, back, hSplit, -, hCount, -, rfl⟩ := (mem_dropSeparators_iff hs ho).mp ha
    refine ⟨front, c, back, hSplit, rfl, ?_⟩
    have hTake : bare.take k = front.filter (· ≠ '_') := by
      rw [hStripped, hSplit, List.filter_append]
      apply List.take_left'
      rw [← List.countP_eq_length_filter]
      exact hCount
    have hSize := byteSize_eq_digits_add_count front
    rw [hTake]
    show ((p.source.start + byteSize front : Nat) : Int) - p.source.start -
      (((p.output.start + byteSize (front.filter (· ≠ '_')) : Nat) : Int) - p.output.start) = _
    omega

theorem number_eq_dropSeparators (options : Options) (hs : p.source.slice? = some grouped)
    (ho : p.output.slice? = some bare) (hSeparated : '_' ∈ grouped) (hPlain : '_' ∉ bare) :
    number options p = dropSeparators p := by
  have hNe : grouped ≠ bare := by
    rintro rfl
    exact hPlain hSeparated
  have hText : sameText p = false := by
    unfold sameText
    rw [hs, ho]
    exact decide_eq_false hNe
  have hSource : hasSeparators p.source = true := by
    simp [hasSeparators, hs, hSeparated]
  have hOutput : hasSeparators p.output = false := by
    simp [hasSeparators, ho, hPlain]
  simp [number, hText, hSource, hOutput]

end Rule

theorem Pairing.align_number {p : Pairing} {kind : Kind}
    (hKind : kind = .numericLiteral ∨ kind = .bigIntLiteral)
    (hSource : p.source.node.kind = kind) (hOutput : p.output.node.kind = kind)
    (options : Options) : p.align options = .ofAnchors (Rule.number options p) := by
  unfold Pairing.align Rule.outcome
  unfold Node.kind at hSource hOutput
  generalize p.source.node.construct = source at hSource
  generalize p.output.node.construct = output at hOutput
  obtain ⟨sourceKind, sourcePayload⟩ := source
  obtain ⟨outputKind, outputPayload⟩ := output
  cases hSource
  cases hOutput
  rcases hKind with rfl | rfl
  · rfl
  · rfl

/-- **A number without its separators keeps every character.** For two number literals, of
which the source has digit separators and the output has none, the anchors are, in increasing
order, the plain ones that join the `k`-th character of the source that is no separator and
the `k`-th of the output where both are there and equal. If the separators are all that is
gone, each character of the output is anchored once, shifted by the separators before it. -/
theorem Pairing.digitsKept_align (p : Pairing) (options : Options) {kind : Kind}
    (hKind : kind = .numericLiteral ∨ kind = .bigIntLiteral)
    (hSource : p.source.node.kind = kind) (hOutput : p.output.node.kind = kind)
    {grouped bare : List Char} (hs : p.source.slice? = some grouped)
    (ho : p.output.slice? = some bare) (hSeparated : '_' ∈ grouped) (hPlain : '_' ∉ bare) :
    DigitsKept p.source.start p.output.start grouped bare (p.align options).anchors ∧
      (p.align options).problems = [] := by
  rw [Pairing.align_number hKind hSource hOutput options,
    Rule.number_eq_dropSeparators options hs ho hSeparated hPlain]
  exact ⟨Rule.digitsKept_dropSeparators hs ho, rfl⟩

/-- The number `1__0_5n` behind `a = ` becomes `105n` behind `é=`. -/
def ungroupedNumber : Pairing :=
  let source : Node := ⟨⟨4, 11, by decide⟩, false, ⟨.bigIntLiteral, ⟨"105"⟩⟩⟩
  let output : Node := ⟨⟨3, 7, by decide⟩, false, ⟨.bigIntLiteral, ⟨"105"⟩⟩⟩
  ⟨⟨.ofString "a = 1__0_5n", ⟨⟨0⟩, #[source]⟩, source⟩,
    ⟨.ofString "é=105n", ⟨⟨0⟩, #[output]⟩, output⟩⟩

theorem digitsKept_ungroupedNumber :
    (ungroupedNumber.align .default).anchors =
        [.plain 4 3, .plain 7 4, .plain 9 5, .plain 10 6] ∧
      DigitsKept 4 3 "1__0_5n".toList "105n".toList (ungroupedNumber.align .default).anchors ∧
      "105n".toList = "1__0_5n".toList.filter (· ≠ '_') ∧
      (ungroupedNumber.align .default).problems = [] := by
  have hSource : ungroupedNumber.source.slice? = some "1__0_5n".toList := by decide
  have hOutput : ungroupedNumber.output.slice? = some "105n".toList := by decide
  obtain ⟨hKept, hProblems⟩ := ungroupedNumber.digitsKept_align .default (Or.inr rfl) rfl rfl
    hSource hOutput (by decide) (by decide)
  exact ⟨by decide, hKept, by decide, hProblems⟩

end Retrace
