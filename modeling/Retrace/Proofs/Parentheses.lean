import Retrace.Alignment.Parentheses
import Retrace.Proofs.Text

/-!
# Parentheses around a span

What stands where `Text.wrappingParens?` says: the opening parenthesis, blanks,
the span, blanks and the closing parenthesis, in this order and without anything
between them.
-/

namespace Retrace

theorem exists_trimEnd_append (cs : List Char) :
    ∃ blanks, (∀ c ∈ blanks, isBlank c = true) ∧ cs = trimEnd cs ++ blanks := by
  refine ⟨(cs.reverse.takeWhile isBlank).reverse, ?_, ?_⟩
  · intro c hc
    exact List.all_eq_true.mp List.all_takeWhile c (List.mem_reverse.mp hc)
  · rw [trimEnd, ← List.reverse_append, List.takeWhile_append_dropWhile, List.reverse_reverse]

namespace Text

/-- The text before the span ends in an opening parenthesis and blanks, and the
text after it starts with blanks and a closing parenthesis. -/
theorem wrappingParens?_spec {t : Text} {span : Span} {opening closing : Nat}
    (h : t.wrappingParens? span = some (opening, closing)) :
    ∃ front left right back,
      (∀ c ∈ left, isBlank c = true) ∧ (∀ c ∈ right, isBlank c = true) ∧
        t.before? span.start = some (front ++ '(' :: left) ∧ byteSize front = opening ∧
        t.from? span.stop = some (right ++ ')' :: back) ∧
        closing = span.stop + byteSize right := by
  unfold wrappingParens? at h
  simp only [Option.bind_eq_bind, Option.bind_eq_some_iff, Option.ite_none_right_eq_some,
    Option.some.injEq, Prod.mk.injEq] at h
  obtain ⟨before, hBefore, after, hAfter, ⟨hLast, hHead⟩, hOpening, hClosing⟩ := h
  obtain ⟨left, hLeft, hSplit⟩ := exists_trimEnd_append before
  obtain ⟨front, hFront⟩ := List.getLast?_eq_some_iff.mp hLast
  obtain ⟨back, hBack⟩ := List.head?_eq_some_iff.mp hHead
  refine ⟨front, left, leadingBlanks after, back, hLeft, ?_, ?_, ?_, ?_, hClosing.symm⟩
  · exact List.all_eq_true.mp List.all_takeWhile
  · rw [hBefore, hSplit, hFront, List.append_assoc, List.singleton_append]
  · rw [← hOpening, hFront, List.dropLast_concat]
  · rw [hAfter, ← hBack, leadingBlanks_append_trimStart]

/-- The two places that are found are those of parentheses. -/
theorem charAt?_of_wrappingParens? {t : Text} {span : Span} {opening closing : Nat}
    (h : t.wrappingParens? span = some (opening, closing)) :
    t.charAt? opening = some '(' ∧ t.charAt? closing = some ')' := by
  obtain ⟨front, left, right, back, -, -, hBefore, hOpening, hAfter, hClosing⟩ :=
    wrappingParens?_spec h
  obtain ⟨⟨rest, hText⟩, -⟩ := before?_eq_some_iff.mp hBefore
  obtain ⟨start, hText', hStart⟩ := from?_eq_some_iff.mp hAfter
  constructor
  · exact charAt?_eq_some_iff.mpr ⟨front, left ++ rest, by simpa using hText, hOpening⟩
  · refine charAt?_eq_some_iff.mpr ⟨start ++ right, back, by simpa using hText', ?_⟩
    rw [byteSize_append, hStart, hClosing]

end Text

end Retrace
