import Retrace.Proofs.Layout.Basic
import Retrace.Proofs.Parentheses

/-!
# The parentheses of a child

The parentheses around a child are found in two ways. A range is widened by the nearest
characters on either side of the span that are not blank, wherever they stand in the text
(`Text.wrappingParens?`). A rule that looks for a token beside the child takes the last opening
parenthesis in front of it and the first closing one behind it, within the span of the parent
(`Site.outer?`).

The first way is the stricter one. If it finds a pair, there is nothing but blanks between the
parentheses and the span, and these are no parentheses, so any others are further away on their
side (`Text.gaps_of_wrappingParens?`). The searches of the second way then end at the same
pair, as far as the parent reaches: it has to hold both parentheses, and its ends must not split
a character, or its text could not be read at all.
-/

namespace Retrace

theorem Text.spaced_of_blanks {t : Text} {start stop : Nat} {blanks : List Char}
    (h : t.StandsAt start blanks) (hStop : start + byteSize blanks = stop)
    (hBlanks : ∀ c ∈ blanks, isBlank c = true) : t.Spaced start stop := by
  refine spaced_iff.mpr ⟨blanks, h, hStop, ?_⟩
  intro c hc
  rw [isSpacing, hBlanks c hc, Bool.true_or]

/-- The parentheses stand where they are found, with a gap on either side of the span. -/
theorem Text.gaps_of_wrappingParens? {t : Text} {span : Span} {opening closing : Nat}
    (h : t.wrappingParens? span = some (opening, closing)) :
    t.startsWithAt opening "(" = true ∧ t.Spaced (opening + 1) span.start ∧
      t.Spaced span.stop closing ∧ t.startsWithAt closing ")" = true := by
  obtain ⟨hOpen, hClose⟩ := charAt?_of_wrappingParens? h
  obtain ⟨front, left, right, back, hLeft, hRight, hBefore, rfl, hAfter, rfl⟩ :=
    wrappingParens?_spec h
  obtain ⟨⟨rest, hText⟩, hStart⟩ := before?_eq_some_iff.mp hBefore
  obtain ⟨head, hHead, hStop⟩ := from?_eq_some_iff.mp hAfter
  refine ⟨startsWithAt_iff.mpr (charAt?_eq_some_iff.mp hOpen), ?_, ?_,
    startsWithAt_iff.mpr (charAt?_eq_some_iff.mp hClose)⟩
  · have hGap : t.StandsAt (byteSize front + 1) left :=
      ⟨front ++ ['('], rest, by simpa using hText, byteSize_append front ['(']⟩
    refine spaced_of_blanks hGap ?_ hLeft
    rw [← hStart, byteSize_append, Nat.add_assoc]
    rfl
  · have hGap : t.StandsAt span.stop right := ⟨head, ')' :: back, by simpa using hHead, hStop⟩
    exact spaced_of_blanks hGap rfl hRight

namespace Site

/-- **Both ways find the same parentheses.** If the text shows parentheses around the span of
a child, and the parent holds them and starts and ends between two characters, the child with
its parentheses goes from the one to the end of the other, as it does when its range is
widened. -/
theorem outer?_eq_widen {s : Site} {child : NodeId} {n : Node} {opening closing : Nat}
    (hStart : s.text.Boundary s.start) (hStop : s.text.Boundary s.stop)
    (hChild : s.tree.node? child = some n) (hWrapped : n.parenthesized = true)
    (hParens : s.text.wrappingParens? n.span = some (opening, closing))
    (hOpening : s.start ≤ opening) (hClosing : closing < s.stop) :
    ∃ span, s.outer? child = some span ∧ span.start = opening ∧ span.stop = closing + 1 ∧
      span = n.span.widen (opening, closing) := by
  obtain ⟨hOpen, hLeft, hRight, hClose⟩ := Text.gaps_of_wrappingParens? hParens
  have hFirst : s.text.rfindBetween? s.start n.span.start "(" = some opening :=
    Text.rfindBetween?_of_spacing hOpen rfl (by decide) (by simp) hLeft hStart hOpening
  have hLast : s.text.findBetween? n.span.stop s.stop ")" = some closing :=
    Text.findBetween?_of_spacing hRight hClose rfl (by decide) hStop hClosing
  have hBefore := hLeft.le
  have hBehind := hRight.le
  have hSpan := n.span.start_le_stop
  have hOrder : opening ≤ closing + 1 := by omega
  refine ⟨⟨opening, closing + 1, hOrder⟩, ?_, rfl, rfl, ?_⟩
  · simp [outer?, hChild, hWrapped, hFirst, hLast, hOrder]
  · apply Span.ext
    · show opening = min opening n.span.start
      omega
    · show closing + 1 = max (closing + 1) n.span.stop
      omega

/-- A name in two pairs of parentheses. It has a blank of two bytes in front of it and one of
three bytes behind it. -/
def twiceWrappedName : Node := ⟨⟨5, 7, by decide⟩, true, ⟨.identifier, ⟨"ü"⟩⟩⟩

/-- The negation of the name. -/
def twiceWrapped : Site where
  text := ⟨['!', '(', '(', '\u00a0', 'ü', '\u3000', ')', ')']⟩
  tree := ⟨⟨1⟩, #[twiceWrappedName, ⟨.upTo 12, false, ⟨.unaryExpression, ⟨"!", ⟨0⟩⟩⟩⟩]⟩
  node := ⟨.upTo 12, false, ⟨.unaryExpression, ⟨"!", ⟨0⟩⟩⟩⟩

theorem outer?_twiceWrapped :
    twiceWrapped.text.Boundary twiceWrapped.start ∧ twiceWrapped.text.Boundary twiceWrapped.stop ∧
      twiceWrapped.tree.node? ⟨0⟩ = some twiceWrappedName ∧
      twiceWrappedName.parenthesized = true ∧
      twiceWrapped.text.wrappingParens? twiceWrappedName.span = some (2, 10) ∧
      twiceWrapped.start ≤ 2 ∧ 10 < twiceWrapped.stop ∧
      twiceWrapped.outer? ⟨0⟩ = some ⟨2, 11, by decide⟩ := by
  have hStart : twiceWrapped.text.Boundary twiceWrapped.start := by decide
  have hStop : twiceWrapped.text.Boundary twiceWrapped.stop := by decide
  have hParens : twiceWrapped.text.wrappingParens? twiceWrappedName.span = some (2, 10) := by decide
  have hOpening : twiceWrapped.start ≤ 2 := by decide
  have hClosing : 10 < twiceWrapped.stop := by decide
  have hChild : twiceWrapped.tree.node? ⟨0⟩ = some twiceWrappedName := rfl
  obtain ⟨span, hOuter, hFirst, hLast, -⟩ :=
    outer?_eq_widen hStart hStop hChild rfl hParens hOpening hClosing
  have hSpan : span = ⟨2, 11, by decide⟩ := Span.ext hFirst hLast
  exact ⟨hStart, hStop, hChild, rfl, hParens, hOpening, hClosing, hSpan ▸ hOuter⟩

end Site

end Retrace
