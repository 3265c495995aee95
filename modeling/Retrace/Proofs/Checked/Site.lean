import Mathlib.Tactic.SplitIfs
import Retrace.Proofs.Checked.Basic
import Retrace.Proofs.Text
import Retrace.Rule.Statement

/-!
# Checked look-ups of a site

A search adds the place of a match in its window to the start of the window. Both
lie in the text together with the token that was found, so the sum is below every
bound that the size of the text is below (`Text.bounds_of_find?`). The same goes for
everything that is said about a place where a token stands: the place behind it is
still in the text.
-/

namespace Retrace

/-! ## Where matches lie -/

theorem byteSize_le_of_isPrefixOf {needle hay : List Char} (h : needle.isPrefixOf hay = true) :
    byteSize needle ≤ byteSize hay := by
  obtain ⟨rest, rfl⟩ := List.isPrefixOf_iff_prefix.mp h
  rw [byteSize_append]
  omega

theorem firstMatch?_le {needle hay : List Char} {i : Nat} (h : firstMatch? needle hay = some i) :
    i + byteSize needle ≤ byteSize hay := by
  induction hay generalizing i with
  | nil => cases h
  | cons c cs ih =>
    rw [firstMatch?] at h
    split_ifs at h with hHere
    · cases h
      have hSize := byteSize_le_of_isPrefixOf hHere
      omega
    · obtain ⟨j, hj, rfl⟩ := Option.map_eq_some_iff.mp h
      have hSize := ih hj
      simp only [byteSize]
      omega

theorem lastMatch?_le {needle hay : List Char} {i : Nat} (h : lastMatch? needle hay = some i) :
    i + byteSize needle ≤ byteSize hay := by
  induction hay generalizing i with
  | nil => cases h
  | cons c cs ih =>
    rw [lastMatch?] at h
    split at h
    · rename_i j hj
      cases h
      have hSize := ih hj
      simp only [byteSize]
      omega
    · split_ifs at h with hHere
      cases h
      have hSize := byteSize_le_of_isPrefixOf hHere
      omega

namespace Text

theorem StandsAt.add_size_le {t : Text} {offset : Nat} {piece : List Char}
    (h : t.StandsAt offset piece) : offset + byteSize piece ≤ t.size := by
  obtain ⟨before, after, hText, rfl⟩ := h
  rw [size, hText, byteSize_append, byteSize_append]
  omega

theorem stop_le_of_slice? {t : Text} {span : Span} {piece : List Char}
    (h : t.slice? span = some piece) : span.start + byteSize piece = span.stop ∧
      span.stop ≤ t.size := by
  obtain ⟨hStands, hSize⟩ := slice?_eq_some_iff.mp h
  have hEnd := hStands.add_size_le
  have hOrder := span.start_le_stop
  have hLength : span.length = span.stop - span.start := rfl
  omega

theorem find?_eq_some_iff {t : Text} {window : Span} {token : String} {i : Nat} :
    t.find? window token = some i ↔
      token.isEmpty = false ∧ ∃ hay j, t.slice? window = some hay ∧
        firstMatch? token.toList hay = some j ∧ window.start + j = i := by
  cases hEmpty : token.isEmpty <;>
    simp [find?, hEmpty, Option.bind_eq_some_iff, Option.map_eq_some_iff]

theorem rfind?_eq_some_iff {t : Text} {window : Span} {token : String} {i : Nat} :
    t.rfind? window token = some i ↔
      token.isEmpty = false ∧ ∃ hay j, t.slice? window = some hay ∧
        lastMatch? token.toList hay = some j ∧ window.start + j = i := by
  cases hEmpty : token.isEmpty <;>
    simp [rfind?, hEmpty, Option.bind_eq_some_iff, Option.map_eq_some_iff]

/-- A match lies in its window, and the window lies in the text. -/
theorem bounds_of_find? {t : Text} {window : Span} {token : String} {i : Nat}
    (h : t.find? window token = some i) :
    window.start ≤ i ∧ i + byteSize token.toList ≤ window.stop ∧ window.stop ≤ t.size := by
  obtain ⟨-, hay, j, hSlice, hMatch, rfl⟩ := find?_eq_some_iff.mp h
  have hSize := firstMatch?_le hMatch
  have hStop := stop_le_of_slice? hSlice
  omega

theorem bounds_of_rfind? {t : Text} {window : Span} {token : String} {i : Nat}
    (h : t.rfind? window token = some i) :
    window.start ≤ i ∧ i + byteSize token.toList ≤ window.stop ∧ window.stop ≤ t.size := by
  obtain ⟨-, hay, j, hSlice, hMatch, rfl⟩ := rfind?_eq_some_iff.mp h
  have hSize := lastMatch?_le hMatch
  have hStop := stop_le_of_slice? hSlice
  omega

end Text

/-! ## Sites that fit -/

/-- The node lies in the text, and there is room for one more byte below the bound of
offsets. -/
structure Site.Fits (s : Site) : Prop where
  node : s.node.span.stop ≤ s.text.size
  size : s.text.size + 1 < offsetBound

namespace Site

theorem start_le_size {s : Site} (h : s.Fits) : s.start ≤ s.text.size :=
  Nat.le_trans s.node.span.start_le_stop h.node

theorem between?_eq_some_iff {start stop : Nat} {window : Span} :
    Span.between? start stop = some window ↔ window.start = start ∧ window.stop = stop := by
  unfold Span.between?
  split_ifs with hOrder
  · simp only [Option.some.injEq, Span.ext_iff, eq_comm]
  · simp only [false_iff, not_and]
    rintro rfl rfl
    exact hOrder window.start_le_stop

theorem bounds_of_find? {s : Site} {start stop i : Nat} {token : String}
    (h : s.find? start stop token = some i) :
    start ≤ i ∧ i + byteSize token.toList ≤ stop ∧ stop ≤ s.text.size := by
  obtain ⟨window, hWindow, hFind⟩ := Option.bind_eq_some_iff.mp h
  obtain ⟨rfl, rfl⟩ := between?_eq_some_iff.mp hWindow
  exact Text.bounds_of_find? hFind

theorem bounds_of_rfind? {s : Site} {start stop i : Nat} {token : String}
    (h : s.rfind? start stop token = some i) :
    start ≤ i ∧ i + byteSize token.toList ≤ stop ∧ stop ≤ s.text.size := by
  obtain ⟨window, hWindow, hFind⟩ := Option.bind_eq_some_iff.mp h
  obtain ⟨rfl, rfl⟩ := between?_eq_some_iff.mp hWindow
  exact Text.bounds_of_rfind? hFind

end Site

namespace Checked

open Lookup

/-! ## Searches -/

/-- The place of a match in a window, counted from the start of the text. -/
def place (search : List Char → List Char → Option Nat) (t : Text) (window : Span)
    (token : String) : Lookup Nat :=
  if token.isEmpty then found none
  else do
    let hay ← found (t.slice? window)
    known (add window.start (← found (search token.toList hay)))

/-- The first place of a token between two offsets. -/
def find (s : Site) (start stop : Nat) (token : String) : Lookup Nat := do
  place firstMatch? s.text (← found (Span.between? start stop)) token

/-- The last place of a token between two offsets. -/
def rfind (s : Site) (start stop : Nat) (token : String) : Lookup Nat := do
  place lastMatch? s.text (← found (Span.between? start stop)) token

theorem place_eq {search : List Char → List Char → Option Nat} {t : Text}
    (hSearch : ∀ needle hay i, search needle hay = some i → i ≤ byteSize hay)
    (hSize : t.size < offsetBound) (window : Span) (token : String) :
    place search t window token = found
      (if token.isEmpty then none
      else (t.slice? window).bind fun hay =>
        (search token.toList hay).map (window.start + ·)) := by
  unfold place
  split_ifs
  · rfl
  · refine found_bind ?_
    intro hay hSlice
    rw [Option.map_eq_bind]
    refine found_bind ?_
    intro i hMatch
    have hFits : window.start + i < offsetBound := by
      have hInside := hSearch _ _ _ hMatch
      have hStop := Text.stop_le_of_slice? hSlice
      omega
    rw [add_eq hFits]
    rfl

@[simp]
theorem find_eq {s : Site} (h : s.Fits) (start stop : Nat) (token : String) :
    find s start stop token = found (s.find? start stop token) := by
  have hSize : s.text.size < offsetBound := by
    have hRoom := h.size
    omega
  unfold find
  refine found_bind ?_
  intro window _
  refine place_eq ?_ hSize window token
  intro needle hay i hMatch
  have hInside := firstMatch?_le hMatch
  omega

@[simp]
theorem rfind_eq {s : Site} (h : s.Fits) (start stop : Nat) (token : String) :
    rfind s start stop token = found (s.rfind? start stop token) := by
  have hSize : s.text.size < offsetBound := by
    have hRoom := h.size
    omega
  unfold rfind
  refine found_bind ?_
  intro window _
  refine place_eq ?_ hSize window token
  intro needle hay i hMatch
  have hInside := lastMatch?_le hMatch
  omega

/-! ## Tokens of a node -/

/-- The span of a child with the parentheses around it. -/
def outer (s : Site) (child : NodeId) : Lookup Span := do
  let n ← found (s.tree.node? child)
  if n.parenthesized then
    let opening ← rfind s s.start n.span.start "("
    let closing ← find s n.span.stop s.stop ")"
    known (span opening (← known (add closing 1)))
  else return n.span

/-- Where a child starts, with its parentheses. -/
def outerStart (s : Site) (child : NodeId) : Lookup Nat := do
  return (← outer s child).start

/-- Where a child ends, with its parentheses. -/
def outerStop (s : Site) (child : NodeId) : Lookup Nat := do
  return (← outer s child).stop

/-- The first place of a token between two children. -/
def between (s : Site) (left right : NodeId) (token : String) : Lookup Nat := do
  find s (← outerStop s left) (← outerStart s right) token

/-- The last place of a token between two children. -/
def lastBetween (s : Site) (left right : NodeId) (token : String) : Lookup Nat := do
  rfind s (← outerStop s left) (← outerStart s right) token

/-- The first place of a token before a child. -/
def before (s : Site) (child : NodeId) (token : String) : Lookup Nat := do
  find s s.start (← outerStart s child) token

/-- The last place of a token before a child. -/
def lastBefore (s : Site) (child : NodeId) (token : String) : Lookup Nat := do
  rfind s s.start (← outerStart s child) token

/-- The first place of a token after a child. -/
def after (s : Site) (child : NodeId) (token : String) : Lookup Nat := do
  find s (← outerStop s child) s.stop token

/-- The place of a token that the node starts with. -/
def leading (s : Site) (token : String) : Lookup Nat :=
  found (if s.text.startsWithAt s.start token then some s.start else none)

/-- The place of a token that the node ends with. The length of the token has to fit
into an offset. -/
def trailing (s : Site) (token : String) : Lookup Nat :=
  if s.text.endsWithAt s.stop token then do
    known (sub s.stop (← known (number (byteSize token.toList))))
  else found none

/-- The two parentheses around a child are in order, because the child is between
them. -/
@[simp]
theorem outer_eq {s : Site} (h : s.Fits) (child : NodeId) :
    outer s child = found (s.outer? child) := by
  unfold outer Site.outer?
  refine found_bind ?_
  intro n _
  split_ifs
  · rw [rfind_eq h]
    refine found_bind ?_
    intro opening hOpening
    rw [find_eq h]
    refine found_bind ?_
    intro closing hClosing
    have hBefore := Site.bounds_of_rfind? hOpening
    have hAfter := Site.bounds_of_find? hClosing
    have hToken : byteSize ")".toList = 1 := rfl
    have hNode := n.span.start_le_stop
    have hSize := h.size
    have hSum : closing + 1 < offsetBound := by omega
    have hOrder : opening ≤ closing + 1 := by omega
    simp only [add_eq hSum, known_ok, found_some_bind, span_eq hOrder]
    rw [Span.between?_of_le hOrder]
  · rfl

@[simp]
theorem outerStart_eq {s : Site} (h : s.Fits) (child : NodeId) :
    outerStart s child = found (s.outerStart? child) := by
  simp only [outerStart, outer_eq h, pure_eq_found, found_bind_found, Site.outerStart?,
    Option.map_eq_bind]
  rfl

@[simp]
theorem outerStop_eq {s : Site} (h : s.Fits) (child : NodeId) :
    outerStop s child = found (s.outerStop? child) := by
  simp only [outerStop, outer_eq h, pure_eq_found, found_bind_found, Site.outerStop?,
    Option.map_eq_bind]
  rfl

@[simp]
theorem between_eq {s : Site} (h : s.Fits) (left right : NodeId) (token : String) :
    between s left right token = found (s.between? left right token) := by
  simp [between, Site.between?, h]

@[simp]
theorem lastBetween_eq {s : Site} (h : s.Fits) (left right : NodeId) (token : String) :
    lastBetween s left right token = found (Rule.lastBetween? s left right token) := by
  simp [lastBetween, Rule.lastBetween?, h]

@[simp]
theorem before_eq {s : Site} (h : s.Fits) (child : NodeId) (token : String) :
    before s child token = found (s.before? child token) := by
  simp [before, Site.before?, h]

@[simp]
theorem lastBefore_eq {s : Site} (h : s.Fits) (child : NodeId) (token : String) :
    lastBefore s child token = found (s.lastBefore? child token) := by
  simp [lastBefore, Site.lastBefore?, h]

@[simp]
theorem after_eq {s : Site} (h : s.Fits) (child : NodeId) (token : String) :
    after s child token = found (s.after? child token) := by
  simp [after, Site.after?, h]

@[simp]
theorem leading_eq (s : Site) (token : String) :
    leading s token = found (s.leading? token) := rfl

/-- A token that the text has before an offset is no longer than the offset. -/
theorem byteSize_le_of_endsWithAt {t : Text} {offset : Nat} {token : String}
    (h : t.endsWithAt offset token = true) :
    byteSize token.toList ≤ offset ∧ offset ≤ t.size := by
  obtain ⟨front, hFront, hSuffix⟩ := (Option.any_eq_true _ _).mp h
  obtain ⟨⟨rest, hText⟩, hSize⟩ := Text.before?_eq_some_iff.mp hFront
  obtain ⟨start, hStart⟩ := List.isSuffixOf_iff_suffix.mp hSuffix
  have hTotal : t.size = byteSize front + byteSize rest := by
    rw [Text.size, hText, byteSize_append]
  rw [← hStart, byteSize_append] at hSize
  rw [← hStart, byteSize_append] at hTotal
  omega

@[simp]
theorem trailing_eq {s : Site} (h : s.Fits) (token : String) :
    trailing s token = found (s.trailing? token) := by
  unfold trailing Site.trailing?
  split_ifs with hEnds
  · obtain ⟨hToken, hStop⟩ := byteSize_le_of_endsWithAt hEnds
    have hSize := h.size
    have hNumber : byteSize token.toList < offsetBound := by omega
    rw [number_eq hNumber, known_ok, found_some_bind, sub_eq hToken, known_ok]
  · rfl

end Checked

end Retrace
