import Mathlib.Data.List.Basic
import Mathlib.Order.Nat
import Retrace.Proofs.Problems
import Retrace.Proofs.Search

/-!
# Separators of lists with holes

The separator after item `i` is the first one in the gap behind the item, which ends at the
next item or, behind the last one, at the end of the list (`Site.Separates`). Two lists are
gone through item by item, as far as both reach. Their separators with the same number are
joined if both are there and neither stands next to a hole; nothing else is anchored, and the
first number next to a hole is reported.

The number alone does not say which kind of gap is searched: the separator after item `i` can
be a trailing one on one side and stand between two items on the other. If the items follow
one another in the text, the separators do so on either side all the same. A separator that is
followed by another one is never a trailing one, so the item behind it comes between the two
(`Site.Separates.lt`).
-/

namespace Retrace

namespace Site

/-- The items that are there follow one another in the text, with the parentheses around
them. -/
def Ascending (s : Site) (items : List (Option NodeId)) : Prop :=
  (items.filterMap (·.bind s.outer?)).Pairwise fun a b => a.stop ≤ b.start

instance (s : Site) (items : List (Option NodeId)) : Decidable (s.Ascending items) :=
  inferInstanceAs (Decidable (List.Pairwise _ _))

/-- The gap behind item `i` of a list that ends at `close`. -/
inductive GapAfter (s : Site) (items : List (Option NodeId)) (close i : Nat) :
    Nat → Nat → Prop where
  /-- Up to the next item. -/
  | between {item next : NodeId} {left right : Span} (hItem : items[i]? = some (some item))
      (hNext : items[i + 1]? = some (some next)) (hLeft : s.outer? item = some left)
      (hRight : s.outer? next = some right) : GapAfter s items close i left.stop right.start
  /-- Up to the end of the list, behind the last item. -/
  | trailing {item : NodeId} {left : Span} (hItem : items[i]? = some (some item))
      (hLast : items[i + 1]? = none) (hLeft : s.outer? item = some left) :
      GapAfter s items close i left.stop close

/-- The first separator in the gap behind item `i` is at `place`. -/
def Separates (s : Site) (items : List (Option NodeId)) (close i : Nat) (token : String)
    (place : Nat) : Prop :=
  token ≠ "" ∧ ∃ start stop, s.GapAfter items close i start stop ∧ s.text.Readable start stop ∧
    IsLeast (s.text.placesIn start stop token) place

variable {s : Site} {items : List (Option NodeId)} {close i j place other : Nat} {token : String}

theorem separatorAfter?_eq_some_iff :
    s.separatorAfter? items i close token = some place ↔
      s.Separates items close i token place := by
  constructor
  · intro h
    simp only [separatorAfter?, Option.bind_eq_bind, Option.bind_eq_some_iff, outerStop?,
      Option.map_eq_some_iff] at h
    obtain ⟨entry, hItem, item, rfl, start, ⟨left, hLeft, rfl⟩, hRest⟩ := h
    cases hNext : items[i + 1]? with
    | none =>
      rw [hNext] at hRest
      obtain ⟨hToken, hRead, hLeast⟩ := Text.findBetween?_eq_some_iff.mp hRest
      exact ⟨hToken, left.stop, close, .trailing hItem hNext hLeft, hRead, hLeast⟩
    | some next =>
      simp only [hNext, Option.bind_eq_some_iff, outerStart?, Option.map_eq_some_iff] at hRest
      obtain ⟨follower, rfl, stop, ⟨right, hRight, rfl⟩, hFind⟩ := hRest
      obtain ⟨hToken, hRead, hLeast⟩ := Text.findBetween?_eq_some_iff.mp hFind
      exact ⟨hToken, left.stop, right.start, .between hItem hNext hLeft hRight, hRead, hLeast⟩
  · rintro ⟨hToken, start, stop, hGap, hRead, hLeast⟩
    have hFind : s.find? start stop token = some place :=
      Text.findBetween?_eq_some_iff.mpr ⟨hToken, hRead, hLeast⟩
    cases hGap with
    | between hItem hNext hLeft hRight =>
      simpa [separatorAfter?, hItem, hNext, outerStop?, outerStart?, hLeft, hRight] using hFind
    | trailing hItem hLast hLeft =>
      simpa [separatorAfter?, hItem, hLast, outerStop?, hLeft] using hFind

theorem Separates.startsWithAt (h : s.Separates items close i token place) :
    s.text.startsWithAt place token = true := by
  obtain ⟨-, start, stop, -, -, hThere, -⟩ := h
  exact Text.startsWithAt_iff.mpr hThere.2.2

theorem Ascending.stop_le_start {a b : NodeId} {left right : Span} (h : s.Ascending items)
    (hLess : i < j) (ha : items[i]? = some (some a)) (hb : items[j]? = some (some b))
    (hLeft : s.outer? a = some left) (hRight : s.outer? b = some right) :
    left.stop ≤ right.start := by
  unfold Ascending at h
  rw [List.pairwise_filterMap, List.pairwise_iff_getElem] at h
  obtain ⟨hi, hFirst⟩ := List.getElem?_eq_some_iff.mp ha
  obtain ⟨hj, hSecond⟩ := List.getElem?_eq_some_iff.mp hb
  exact h i j hi hj hLess left (by rw [hFirst]; exact hLeft) right (by rw [hSecond]; exact hRight)

/-- Of two separators, the one after the earlier item comes first. -/
theorem Separates.lt (hItems : s.Ascending items) (h : s.Separates items close i token place)
    (hOther : s.Separates items close j token other) (hLess : i < j) : place < other := by
  obtain ⟨hToken, start, stop, hGap, -, ⟨-, hPlace, -⟩, -⟩ := h
  obtain ⟨-, start', stop', hGap', -, ⟨hOther, -, -⟩, -⟩ := hOther
  have hSize : 0 < byteSize token.toList := by
    apply Nat.pos_of_ne_zero
    intro hZero
    exact Text.toList_ne_nil hToken (eq_nil_of_byteSize hZero)
  obtain ⟨item, left, hItem, hLeft, rfl⟩ :
      ∃ item left, items[j]? = some (some item) ∧ s.outer? item = some left ∧
        start' = left.stop := by
    cases hGap' with
    | between hItem _ hLeft _ => exact ⟨_, _, hItem, hLeft, rfl⟩
    | trailing hItem _ hLeft => exact ⟨_, _, hItem, hLeft, rfl⟩
  cases hGap with
  | trailing hFirst hLast _ =>
    -- Behind the last item there is no item `j`.
    have hEnd := List.getElem?_eq_none_iff.mp hLast
    have hInside := (List.getElem?_eq_some_iff.mp hItem).1
    omega
  | @between _ next _ right hFirst hNext _ hRight =>
    -- The window of the first separator ends where item `i + 1` starts, and item `j` is that
    -- item or a later one.
    have hSpan := right.start_le_stop
    have hSpan' := left.start_le_stop
    rcases Nat.eq_or_lt_of_le (Nat.succ_le_of_lt hLess) with rfl | hLater
    · rw [hItem, Option.some.injEq, Option.some.injEq] at hNext
      subst hNext
      rw [hLeft, Option.some.injEq] at hRight
      subst hRight
      omega
    · have hOrder := hItems.stop_le_start hLater hNext hItem hRight hLeft
      omega

end Site

/-! ## Holes -/

/-- The separator after item `i` would stand next to a hole. -/
def BesideHole (items : List (Option NodeId)) (i : Nat) : Prop :=
  items[i]? = some none ∨ items[i + 1]? = some none

/-- The numbers of the separators that stand next to a hole in one of two lists, as far as
both reach. -/
def besideHoles (s o : List (Option NodeId)) : Set Nat :=
  {i | i < s.length ∧ i < o.length ∧ (BesideHole s i ∨ BesideHole o i)}

theorem touchesHole_iff {items : List (Option NodeId)} {i : Nat} :
    touchesHole items i = true ↔ BesideHole items i := by
  simp [touchesHole, BesideHole]

theorem mem_besideHoles_iff {s o : List (Option NodeId)} {i : Nat} :
    i ∈ besideHoles s o ↔
      i < min s.length o.length ∧ (touchesHole s i || touchesHole o i) = true := by
  simp only [besideHoles, Set.mem_ofPred_eq, Bool.or_eq_true, touchesHole_iff, Nat.lt_min,
    and_assoc]

namespace Pairing

variable {s o : List (Option NodeId)} {c d : Nat}

theorem holeProblems_of_isLeast {i : Nat} (h : IsLeast (besideHoles s o) i) :
    holeProblems s o (some c, some d) = [.ambiguous (sparseReason i)] := by
  obtain ⟨hInside, hHole⟩ := mem_besideHoles_iff.mp h.1
  have hFirst : (List.range (min s.length o.length)).find?
      (fun i => touchesHole s i || touchesHole o i) = some i := by
    rw [List.find?_range_eq_some]
    refine ⟨hHole, List.mem_range.mpr hInside, ?_⟩
    intro j hj
    rw [Bool.not_eq_true', Bool.eq_false_iff]
    intro hEarlier
    have hOrder := h.2 (mem_besideHoles_iff.mpr ⟨by omega, hEarlier⟩)
    omega
  simp only [holeProblems, hFirst]
  rfl

theorem holeProblems_of_eq_empty (h : besideHoles s o = ∅) :
    holeProblems s o (some c, some d) = [] := by
  have hNone : (List.range (min s.length o.length)).find?
      (fun i => touchesHole s i || touchesHole o i) = none := by
    rw [List.find?_eq_none]
    intro i hi hHole
    have hMem : i ∈ besideHoles s o := mem_besideHoles_iff.mpr ⟨List.mem_range.mp hi, hHole⟩
    rw [h] at hMem
    exact hMem
  simp only [holeProblems, hNone]

end Pairing

/-! ## Two lists -/

/-- The separators after the item of the same number in two lists, each at its place. -/
structure SeparatorPair where
  index : Nat
  source : Nat
  output : Nat

namespace Pairing

/-- The separators that two lists have in common, from left to right: those that both have, in
the gap behind the same item, without a hole beside them. -/
structure Separated (p : Pairing) (s o : List (Option NodeId)) (c d : Nat) (token : String)
    (pairs : List SeparatorPair) : Prop where
  mem_iff : ∀ e, e ∈ pairs ↔
    (e.index < s.length ∧ e.index < o.length) ∧
      (¬ BesideHole s e.index ∧ ¬ BesideHole o e.index) ∧
      p.source.Separates s c e.index token e.source ∧
      p.output.Separates o d e.index token e.output
  ascending : pairs.Pairwise fun e f =>
    e.index < f.index ∧ e.source < f.source ∧ e.output < f.output

/-- The separators after item `i` in two lists, if they are to be joined. -/
def separatorPair? (p : Pairing) (s o : List (Option NodeId)) (c d : Nat) (token : String)
    (i : Nat) : Option SeparatorPair :=
  if touchesHole s i || touchesHole o i then none
  else do
    let source ← p.source.separatorAfter? s i c token
    let output ← p.output.separatorAfter? o i d token
    return ⟨i, source, output⟩

variable {p : Pairing} {s o : List (Option NodeId)} {c d : Nat} {token : String}

theorem separatorPair?_eq_some_iff {i : Nat} {e : SeparatorPair} :
    p.separatorPair? s o c d token i = some e ↔
      e.index = i ∧ (¬ BesideHole s i ∧ ¬ BesideHole o i) ∧
        p.source.Separates s c i token e.source ∧ p.output.Separates o d i token e.output := by
  have hHoles : ¬ (touchesHole s i || touchesHole o i) = true ↔
      ¬ BesideHole s i ∧ ¬ BesideHole o i := by
    rw [Bool.or_eq_true, touchesHole_iff, touchesHole_iff, not_or]
  unfold separatorPair?
  constructor
  · intro h
    split at h
    · cases h
    · rename_i hHole
      simp only [Option.bind_eq_bind, Option.bind_eq_some_iff] at h
      obtain ⟨source, hSource, output, hOutput, hPair⟩ := h
      cases hPair
      exact ⟨rfl, hHoles.mp hHole, Site.separatorAfter?_eq_some_iff.mp hSource,
        Site.separatorAfter?_eq_some_iff.mp hOutput⟩
  · rintro ⟨rfl, hHole, hSource, hOutput⟩
    rw [if_neg (hHoles.mpr hHole), Site.separatorAfter?_eq_some_iff.mpr hSource,
      Site.separatorAfter?_eq_some_iff.mpr hOutput]
    rfl

/-- A separator that is found stands where it was found, so both are anchored. -/
theorem token_separatorAfter? {i : Nat} :
    (if touchesHole s i || touchesHole o i then []
      else p.token (p.source.separatorAfter? s i c token, p.output.separatorAfter? o i d token)
        token) =
      (p.separatorPair? s o c d token i).toList.flatMap fun e =>
        anchorEach e.source e.output token.toList := by
  unfold separatorPair?
  split
  · rfl
  · cases hSource : p.source.separatorAfter? s i c token with
    | none => rfl
    | some a =>
      cases hOutput : p.output.separatorAfter? o i d token with
      | none => rfl
      | some b =>
        have hThere := (Site.separatorAfter?_eq_some_iff.mp hSource).startsWithAt
        have hThere' := (Site.separatorAfter?_eq_some_iff.mp hOutput).startsWithAt
        simp [Pairing.token, hThere, hThere']

theorem sparseSeparators_eq_flatMap :
    p.sparseSeparators s o (some c, some d) token =
      ((List.range (min s.length o.length)).filterMap (p.separatorPair? s o c d token)).flatMap
        fun e => anchorEach e.source e.output token.toList := by
  rw [List.filterMap_eq_flatMap_toList, List.flatMap_assoc]
  exact congrArg (List.range _).flatMap (funext fun i => token_separatorAfter?)

theorem separated_filterMap (hSource : p.source.Ascending s) (hOutput : p.output.Ascending o) :
    p.Separated s o c d token
      ((List.range (min s.length o.length)).filterMap (p.separatorPair? s o c d token)) := by
  constructor
  · intro e
    rw [List.mem_filterMap]
    constructor
    · rintro ⟨i, hi, hPair⟩
      obtain ⟨rfl, hRest⟩ := separatorPair?_eq_some_iff.mp hPair
      exact ⟨Nat.lt_min.mp (List.mem_range.mp hi), hRest⟩
    · rintro ⟨hInside, hRest⟩
      exact ⟨e.index, List.mem_range.mpr (Nat.lt_min.mpr hInside),
        separatorPair?_eq_some_iff.mpr ⟨rfl, hRest⟩⟩
  · rw [List.pairwise_filterMap]
    apply List.pairwise_lt_range.imp
    intro i j hLess e he f hf
    obtain ⟨rfl, -, hs, ho⟩ := separatorPair?_eq_some_iff.mp he
    obtain ⟨rfl, -, hs', ho'⟩ := separatorPair?_eq_some_iff.mp hf
    exact ⟨hLess, hs.lt hSource hs' hLess, ho.lt hOutput ho' hLess⟩

/-- **Separators are joined item by item, and holes are reported once.** For two lists whose
items follow one another, with known ends, the anchors are those of the separators that both
lists have behind the same item without a hole beside them, from left to right in both texts.
If a separator of either list stands next to a hole, as far as both lists reach, the first
one is reported, and nothing else is; without such a separator, nothing is reported. -/
theorem separated_sparseSeparators (hSource : p.source.Ascending s)
    (hOutput : p.output.Ascending o) :
    (∃ pairs, p.Separated s o c d token pairs ∧
      p.sparseSeparators s o (some c, some d) token =
        pairs.flatMap fun e => anchorEach e.source e.output token.toList) ∧
      ((besideHoles s o).Nonempty → ∃ i, IsLeast (besideHoles s o) i ∧
        holeProblems s o (some c, some d) = [.ambiguous (sparseReason i)]) ∧
      (besideHoles s o = ∅ → holeProblems s o (some c, some d) = []) := by
  refine ⟨⟨_, separated_filterMap hSource hOutput, sparseSeparators_eq_flatMap⟩, ?_,
    holeProblems_of_eq_empty⟩
  intro hSome
  classical
  exact ⟨_, hSome.isLeast_natFind, holeProblems_of_isLeast hSome.isLeast_natFind⟩

/-- A name that stands at one byte of a text. -/
def nameAt (start : Nat) (name : String) (parenthesized : Bool) : Node :=
  ⟨⟨start, start + 1, Nat.le_add_right start 1⟩, parenthesized, ⟨.identifier, ⟨name⟩⟩⟩

/-- Four items with a hole behind the first one. -/
def gappedItems : List (Option NodeId) := [some ⟨1⟩, none, some ⟨2⟩, some ⟨3⟩]

/-- Five items without a hole. -/
def filledItems : List (Option NodeId) := [some ⟨1⟩, some ⟨2⟩, some ⟨3⟩, some ⟨4⟩, some ⟨5⟩]

/-- The array `[a,,(b),c,]` becomes `[x, y ,(z),w ,v]`. -/
def filledArray : Pairing where
  source :=
    let node : Node := ⟨.upTo 11, false, ⟨.arrayExpression, ⟨gappedItems⟩⟩⟩
    ⟨.ofString "[a,,(b),c,]",
      ⟨⟨0⟩, #[node, nameAt 1 "a" false, nameAt 5 "b" true, nameAt 8 "c" false]⟩, node⟩
  output :=
    let node : Node := ⟨.upTo 16, false, ⟨.arrayExpression, ⟨filledItems⟩⟩⟩
    ⟨.ofString "[x, y ,(z),w ,v]",
      ⟨⟨0⟩, #[node, nameAt 1 "x" false, nameAt 4 "y" false, nameAt 8 "z" true,
        nameAt 11 "w" false, nameAt 14 "v" false]⟩, node⟩

/-- The commas behind the third and the fourth item are joined, although the latter is a
trailing one in the source only. The comma behind the first item is reported. -/
theorem separated_filledArray :
    filledArray.sparseSeparators gappedItems filledItems (some 10, some 15) "," =
        [.plain 7 10, .plain 9 13] ∧
      holeProblems gappedItems filledItems (some 10, some 15) = [.ambiguous (sparseReason 0)] ∧
      (∃ pairs, filledArray.Separated gappedItems filledItems 10 15 "," pairs ∧
        filledArray.sparseSeparators gappedItems filledItems (some 10, some 15) "," =
          pairs.flatMap fun e => anchorEach e.source e.output ",".toList) ∧
      ∃ i, IsLeast (besideHoles gappedItems filledItems) i ∧
        holeProblems gappedItems filledItems (some 10, some 15) =
          [.ambiguous (sparseReason i)] := by
  have hHole : 0 ∈ besideHoles gappedItems filledItems :=
    ⟨by decide, by decide, Or.inl (Or.inr rfl)⟩
  have hSource : filledArray.source.Ascending gappedItems := by decide
  have hOutput : filledArray.output.Ascending filledItems := by decide
  have hAll := @separated_sparseSeparators _ _ _ 10 15 "," hSource hOutput
  exact ⟨by decide, by decide, hAll.1, hAll.2.1 ⟨0, hHole⟩⟩

end Pairing

end Retrace
