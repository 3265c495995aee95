import Mathlib.Order.Bounds.Image
import Retrace.Proofs.Checked.Site

/-!
# What a bounded search finds

A search between two offsets answers with the least, or the greatest, place of the token in
the window (`Text.findBetween?_eq_some_iff`, `Text.rfindBetween?_eq_some_iff`). It reads the
window as a text of its own, so the argument goes from places in a piece to places in the text
around it: a piece can be cut at every offset at which something stands (`Text.StandsAt.cut`),
and of two pieces at one place the shorter one starts the longer one
(`Text.StandsAt.starts_of_le`).
-/

namespace Retrace

theorem eq_nil_of_byteSize {piece : List Char} (h : byteSize piece = 0) : piece = [] := by
  cases piece with
  | nil => rfl
  | cons c cs =>
    have hPos := c.utf8Size_pos
    rw [byteSize] at h
    omega

namespace Text

/-! ## Two pieces of one text -/

namespace StandsAt

variable {t : Text} {offset place : Nat} {piece other : List Char}

theorem append (h : t.StandsAt offset piece) (hOther : t.StandsAt (offset + byteSize piece) other) :
    t.StandsAt offset (piece ++ other) := by
  obtain ⟨before, after, hText, rfl⟩ := h
  obtain ⟨front, back, hText', hSize⟩ := hOther
  have hAfter : t.from? (byteSize before + byteSize piece) = some after :=
    from?_eq_some_iff.mpr ⟨before ++ piece, by rw [hText, List.append_assoc], byteSize_append _ _⟩
  have hOther' : t.from? (byteSize before + byteSize piece) = some (other ++ back) :=
    from?_eq_some_iff.mpr ⟨front, hText', hSize⟩
  rw [hAfter, Option.some.injEq] at hOther'
  exact ⟨before, back, by rw [hText, hOther', List.append_assoc], rfl⟩

/-- Something stands at an offset only if the text can be cut there. -/
theorem cut (h : t.StandsAt offset piece) (hOther : t.StandsAt place other)
    (hStart : offset ≤ place) (hStop : place ≤ offset + byteSize piece) :
    ∃ left right, piece = left ++ right ∧ offset + byteSize left = place := by
  obtain ⟨before, after, hText, rfl⟩ := h
  obtain ⟨front, back, hText', rfl⟩ := hOther
  rw [hText, List.append_eq_append_iff] at hText'
  -- What comes before `place` reaches into the piece, or both start at the same offset.
  rcases hText' with ⟨left, rfl, hRest⟩ | ⟨extra, rfl, -⟩
  · rw [byteSize_append] at hStop ⊢
    rcases List.append_eq_append_iff.mp hRest with ⟨extra, rfl, -⟩ | ⟨right, rfl, -⟩
    · rw [byteSize_append] at hStop
      have hExtra : extra = [] := eq_nil_of_byteSize (by omega)
      exact ⟨piece, [], by simp, by simp [hExtra]⟩
    · exact ⟨left, right, rfl, rfl⟩
  · rw [byteSize_append] at hStart ⊢
    have hExtra : extra = [] := eq_nil_of_byteSize (by omega)
    exact ⟨[], piece, rfl, by simp [hExtra, byteSize]⟩

theorem eq_of_byteSize (h : t.StandsAt offset piece) (hOther : t.StandsAt offset other)
    (hSize : byteSize piece = byteSize other) : piece = other := by
  obtain ⟨before, after, hText, rfl⟩ := h
  obtain ⟨front, back, hText', hFront⟩ := hOther
  have hAfter := from?_eq_some_iff.mpr ⟨before, hText, rfl⟩
  rw [from?_eq_some_iff.mpr ⟨front, hText', hFront⟩, Option.some.injEq] at hAfter
  have hTake := takeBytes?_append piece after
  rw [← hAfter, hSize, takeBytes?_append, Option.some.injEq] at hTake
  exact hTake.symm

theorem stop (h : t.StandsAt offset piece) : t.StandsAt (offset + byteSize piece) [] :=
  part piece [] [] (by simpa using h)

/-- Of two pieces at one place, the shorter one starts the longer one. -/
theorem starts_of_le (h : t.StandsAt offset piece) (hOther : t.StandsAt offset other)
    (hSize : byteSize other ≤ byteSize piece) : other <+: piece := by
  obtain ⟨left, right, rfl, hLeft⟩ := h.cut hOther.stop (by omega) (by omega)
  have hPart : t.StandsAt offset left := part [] left right h
  rw [hPart.eq_of_byteSize hOther (by omega)]
  exact List.prefix_append other right

/-- What starts inside a piece starts with a character of the piece. -/
theorem mem_of_lt {c : Char} {cs : List Char} (h : t.StandsAt offset piece)
    (hOther : t.StandsAt place (c :: cs)) (hStart : offset ≤ place)
    (hStop : place < offset + byteSize piece) : c ∈ piece := by
  obtain ⟨left, right, rfl, rfl⟩ := h.cut hOther hStart (by omega)
  rw [byteSize_append] at hStop
  cases right with
  | nil => simp [byteSize] at hStop
  | cons d ds =>
    have hHere : t.StandsAt (offset + byteSize left) [d] := part left [d] ds h
    have hThere : t.StandsAt (offset + byteSize left) [c] := part [] [c] cs hOther
    rw [← charAt?_eq_some_iff] at hHere hThere
    rw [hHere, Option.some.injEq] at hThere
    rw [hThere]
    simp

/-- Nothing stands inside a character. -/
theorem next_le {c : Char} {cs : List Char} (h : t.StandsAt offset (c :: cs))
    (hOther : t.StandsAt place other) (hLess : offset < place) : offset + c.utf8Size ≤ place := by
  have hChar : t.StandsAt offset [c] := part [] [c] cs h
  have hSize : byteSize [c] = c.utf8Size := rfl
  by_contra hInside
  obtain ⟨left, right, hCut, hLeft⟩ := hChar.cut hOther (by omega) (by omega)
  rcases List.append_eq_singleton_iff.mp hCut.symm with ⟨rfl, -⟩ | ⟨rfl, -⟩
  · simp only [byteSize] at hLeft
    omega
  · omega

/-- A token stands in a piece where it stands in the text and does not leave the piece. -/
theorem inside_iff {j : Nat} (h : t.StandsAt offset piece) :
    (⟨piece⟩ : Text).StandsAt j other ↔
      t.StandsAt (offset + j) other ∧ j + byteSize other ≤ byteSize piece := by
  constructor
  · rintro ⟨before, after, hPiece, rfl⟩
    replace hPiece : piece = before ++ (other ++ after) := hPiece
    subst hPiece
    refine ⟨part before other after h, ?_⟩
    simp only [byteSize_append]
    omega
  · rintro ⟨hOther, hStop⟩
    obtain ⟨left, right, rfl, hLeft⟩ := h.cut hOther (by omega) (by omega)
    rw [byteSize_append] at hStop
    have hRight : t.StandsAt (offset + j) right := by
      rw [← hLeft]
      exact part left right [] (by simpa using h)
    obtain ⟨rest, rfl⟩ := hRight.starts_of_le hOther (by omega)
    exact ⟨left, rest, rfl, by omega⟩

end StandsAt

theorem standsAt_cons_iff {c : Char} {cs needle : List Char} {i : Nat} :
    (⟨c :: cs⟩ : Text).StandsAt i needle ↔
      (i = 0 ∧ needle <+: c :: cs) ∨ ∃ j, (⟨cs⟩ : Text).StandsAt j needle ∧ j + c.utf8Size = i := by
  constructor
  · rintro ⟨before, after, hText, rfl⟩
    cases before with
    | nil => exact Or.inl ⟨rfl, after, hText.symm⟩
    | cons d ds =>
      obtain ⟨rfl, rfl⟩ := List.cons.inj hText
      exact Or.inr ⟨byteSize ds, ⟨ds, after, rfl, rfl⟩, by rw [byteSize, Nat.add_comm]⟩
  · rintro (⟨rfl, after, hText⟩ | ⟨j, ⟨before, after, hText, rfl⟩, rfl⟩)
    · exact ⟨[], after, hText.symm, rfl⟩
    · refine ⟨c :: before, after, ?_, by rw [byteSize, Nat.add_comm]⟩
      exact congrArg (c :: ·) hText

end Text

/-! ## Matches -/

theorem not_standsAt_nil {needle : List Char} (hNeedle : needle ≠ []) (i : Nat) :
    ¬ (⟨[]⟩ : Text).StandsAt i needle := by
  rintro ⟨before, after, hText, -⟩
  have hParts := List.append_eq_nil_iff.mp hText.symm
  exact hNeedle (List.append_eq_nil_iff.mp hParts.2).1

theorem exists_firstMatch?_of_standsAt {needle hay : List Char} {i : Nat} (hNeedle : needle ≠ [])
    (h : (⟨hay⟩ : Text).StandsAt i needle) : ∃ j, firstMatch? needle hay = some j := by
  induction hay generalizing i with
  | nil => exact absurd h (not_standsAt_nil hNeedle i)
  | cons c cs ih =>
    rw [firstMatch?]
    split_ifs with hHere
    · exact ⟨0, rfl⟩
    · rcases Text.standsAt_cons_iff.mp h with ⟨-, hStarts⟩ | ⟨k, hLater, -⟩
      · exact absurd (List.isPrefixOf_iff_prefix.mpr hStarts) hHere
      · obtain ⟨j, hj⟩ := ih hLater
        exact ⟨j + c.utf8Size, by rw [hj, Option.map_some]⟩

theorem isLeast_of_firstMatch? {needle hay : List Char} {i : Nat}
    (h : firstMatch? needle hay = some i) :
    IsLeast {j | (⟨hay⟩ : Text).StandsAt j needle} i := by
  induction hay generalizing i with
  | nil => cases h
  | cons c cs ih =>
    rw [firstMatch?] at h
    split_ifs at h with hHere
    · cases h
      refine ⟨Text.standsAt_cons_iff.mpr (Or.inl ⟨rfl, List.isPrefixOf_iff_prefix.mp hHere⟩), ?_⟩
      intro j _
      exact Nat.zero_le j
    · obtain ⟨k, hk, rfl⟩ := Option.map_eq_some_iff.mp h
      obtain ⟨hStands, hLeast⟩ := ih hk
      refine ⟨Text.standsAt_cons_iff.mpr (Or.inr ⟨k, hStands, rfl⟩), ?_⟩
      intro j hj
      rcases Text.standsAt_cons_iff.mp hj with ⟨-, hStarts⟩ | ⟨l, hl, rfl⟩
      · exact absurd (List.isPrefixOf_iff_prefix.mpr hStarts) hHere
      · have hOrder := hLeast hl
        omega

theorem exists_lastMatch?_of_standsAt {needle hay : List Char} {i : Nat} (hNeedle : needle ≠ [])
    (h : (⟨hay⟩ : Text).StandsAt i needle) : ∃ j, lastMatch? needle hay = some j := by
  induction hay generalizing i with
  | nil => exact absurd h (not_standsAt_nil hNeedle i)
  | cons c cs ih =>
    rw [lastMatch?]
    cases hRest : lastMatch? needle cs with
    | some j => exact ⟨_, rfl⟩
    | none =>
      rcases Text.standsAt_cons_iff.mp h with ⟨-, hHere⟩ | ⟨k, hLater, -⟩
      · exact ⟨0, by simp [hHere]⟩
      · obtain ⟨j, hj⟩ := ih hLater
        rw [hRest] at hj
        cases hj

theorem isGreatest_of_lastMatch? {needle hay : List Char} {i : Nat} (hNeedle : needle ≠ [])
    (h : lastMatch? needle hay = some i) :
    IsGreatest {j | (⟨hay⟩ : Text).StandsAt j needle} i := by
  induction hay generalizing i with
  | nil => cases h
  | cons c cs ih =>
    rw [lastMatch?] at h
    cases hRest : lastMatch? needle cs with
    | some k =>
      simp only [hRest, Option.some.injEq] at h
      subst h
      obtain ⟨hStands, hGreatest⟩ := ih hRest
      refine ⟨Text.standsAt_cons_iff.mpr (Or.inr ⟨k, hStands, rfl⟩), ?_⟩
      intro j hj
      rcases Text.standsAt_cons_iff.mp hj with ⟨rfl, -⟩ | ⟨l, hl, rfl⟩
      · exact Nat.zero_le _
      · have hOrder := hGreatest hl
        omega
    | none =>
      simp only [hRest, Option.ite_none_right_eq_some, Option.some.injEq] at h
      obtain ⟨hHere, rfl⟩ := h
      refine ⟨Text.standsAt_cons_iff.mpr (Or.inl ⟨rfl, List.isPrefixOf_iff_prefix.mp hHere⟩), ?_⟩
      intro j hj
      rcases Text.standsAt_cons_iff.mp hj with ⟨rfl, -⟩ | ⟨l, hl, -⟩
      · exact Nat.le_refl 0
      · obtain ⟨k, hk⟩ := exists_lastMatch?_of_standsAt hNeedle hl
        rw [hRest] at hk
        cases hk

namespace Text

/-! ## Windows -/

/-- The places between two offsets where the whole of a token stands. -/
def placesIn (t : Text) (start stop : Nat) (token : String) : Set Nat :=
  {place | start ≤ place ∧ place + byteSize token.toList ≤ stop ∧ t.StandsAt place token.toList}

variable {t : Text} {start stop place : Nat} {piece : List Char} {token : String}

/-- The places in a window are those in the piece that the window cuts out. -/
theorem placesIn_eq_image (h : t.StandsAt start piece) (hStop : start + byteSize piece = stop) :
    t.placesIn start stop token =
      (start + ·) '' {j | (⟨piece⟩ : Text).StandsAt j token.toList} := by
  ext place
  constructor
  · rintro ⟨hStart, hInside, hToken⟩
    obtain ⟨j, rfl⟩ := Nat.exists_eq_add_of_le hStart
    exact ⟨j, h.inside_iff.mpr ⟨hToken, by omega⟩, rfl⟩
  · rintro ⟨j, hToken, rfl⟩
    obtain ⟨hStands, hInside⟩ := h.inside_iff.mp hToken
    exact ⟨Nat.le_add_right start j, by show start + j + _ ≤ stop; omega, hStands⟩

theorem exists_piece_between (hStart : t.StandsAt start []) (hStop : t.StandsAt stop [])
    (hOrder : start ≤ stop) : ∃ piece, t.StandsAt start piece ∧ start + byteSize piece = stop := by
  obtain ⟨before, after, hText, rfl⟩ := hStart
  have hAfter : t.StandsAt (byteSize before) after := ⟨before, [], by simpa using hText, rfl⟩
  have hSize : stop ≤ byteSize before + byteSize after := by
    have hInside := hStop.add_size_le
    rw [size, hText, byteSize_append, List.nil_append] at hInside
    omega
  obtain ⟨left, right, rfl, hLeft⟩ := hAfter.cut hStop hOrder hSize
  exact ⟨left, StandsAt.part [] left right hAfter, hLeft⟩

theorem slice?_of_piece (h : t.StandsAt start piece) (hStop : start + byteSize piece = stop) :
    ∃ window, Span.between? start stop = some window ∧ window.start = start ∧
      t.slice? window = some piece := by
  have hOrder : start ≤ stop := by omega
  refine ⟨⟨start, stop, hOrder⟩, Span.between?_of_le hOrder, rfl, ?_⟩
  exact slice?_eq_some_iff.mpr ⟨h, by show _ = stop - start; omega⟩

theorem findBetween?_of_piece (h : t.StandsAt start piece) (hStop : start + byteSize piece = stop)
    (hToken : token ≠ "") :
    t.findBetween? start stop token = (firstMatch? token.toList piece).map (start + ·) := by
  obtain ⟨window, hWindow, rfl, hSlice⟩ := slice?_of_piece h hStop
  simp [findBetween?, find?, hWindow, hSlice, hToken]

theorem rfindBetween?_of_piece (h : t.StandsAt start piece) (hStop : start + byteSize piece = stop)
    (hToken : token ≠ "") :
    t.rfindBetween? start stop token = (lastMatch? token.toList piece).map (start + ·) := by
  obtain ⟨window, hWindow, rfl, hSlice⟩ := slice?_of_piece h hStop
  simp [rfindBetween?, rfind?, hWindow, hSlice, hToken]

theorem shift_mono (start : Nat) : Monotone (start + ·) :=
  fun _ _ hOrder => Nat.add_le_add_left hOrder start

/-- The text between two offsets can be read: both fall between two characters. -/
def Readable (t : Text) (start stop : Nat) : Prop :=
  ∃ piece, t.StandsAt start piece ∧ start + byteSize piece = stop

theorem readable_of_slice? {window : Span} (h : t.slice? window = some piece) :
    t.StandsAt window.start piece ∧ window.start + byteSize piece = window.stop :=
  ⟨(slice?_eq_some_iff.mp h).1, (stop_le_of_slice? h).1⟩

theorem toList_ne_nil (h : token ≠ "") : token.toList ≠ [] := by
  rw [ne_eq, String.toList_eq_nil_iff]
  exact h

/-- A search from the front finds the least place in the window. -/
theorem findBetween?_eq_some_iff :
    t.findBetween? start stop token = some place ↔
      token ≠ "" ∧ t.Readable start stop ∧ IsLeast (t.placesIn start stop token) place := by
  constructor
  · intro h
    obtain ⟨window, hWindow, hFind⟩ := Option.bind_eq_some_iff.mp h
    obtain ⟨hToken, piece, j, hSlice, hMatch, rfl⟩ := find?_eq_some_iff.mp hFind
    obtain ⟨rfl, rfl⟩ := Site.between?_eq_some_iff.mp hWindow
    obtain ⟨hPiece, hStop⟩ := readable_of_slice? hSlice
    refine ⟨by simpa using hToken, ⟨piece, hPiece, hStop⟩, ?_⟩
    rw [placesIn_eq_image hPiece hStop]
    exact Monotone.map_isLeast (shift_mono window.start) (isLeast_of_firstMatch? hMatch)
  · rintro ⟨hToken, ⟨piece, hPiece, hStop⟩, hLeast⟩
    rw [placesIn_eq_image hPiece hStop] at hLeast
    obtain ⟨j, hj, -⟩ := hLeast.1
    obtain ⟨k, hk⟩ := exists_firstMatch?_of_standsAt (toList_ne_nil hToken) hj
    have hFirst := Monotone.map_isLeast (shift_mono start) (isLeast_of_firstMatch? hk)
    rw [findBetween?_of_piece hPiece hStop hToken, hk, hLeast.unique hFirst]
    rfl

/-- A search from the back finds the greatest place in the window. -/
theorem rfindBetween?_eq_some_iff :
    t.rfindBetween? start stop token = some place ↔
      token ≠ "" ∧ t.Readable start stop ∧ IsGreatest (t.placesIn start stop token) place := by
  constructor
  · intro h
    obtain ⟨window, hWindow, hFind⟩ := Option.bind_eq_some_iff.mp h
    obtain ⟨hToken, piece, j, hSlice, hMatch, rfl⟩ := rfind?_eq_some_iff.mp hFind
    obtain ⟨rfl, rfl⟩ := Site.between?_eq_some_iff.mp hWindow
    obtain ⟨hPiece, hStop⟩ := readable_of_slice? hSlice
    have hSome : token ≠ "" := by simpa using hToken
    refine ⟨hSome, ⟨piece, hPiece, hStop⟩, ?_⟩
    rw [placesIn_eq_image hPiece hStop]
    exact Monotone.map_isGreatest (shift_mono window.start)
      (isGreatest_of_lastMatch? (toList_ne_nil hSome) hMatch)
  · rintro ⟨hToken, ⟨piece, hPiece, hStop⟩, hGreatest⟩
    rw [placesIn_eq_image hPiece hStop] at hGreatest
    obtain ⟨j, hj, -⟩ := hGreatest.1
    obtain ⟨k, hk⟩ := exists_lastMatch?_of_standsAt (toList_ne_nil hToken) hj
    have hLast := Monotone.map_isGreatest (shift_mono start)
      (isGreatest_of_lastMatch? (toList_ne_nil hToken) hk)
    rw [rfindBetween?_of_piece hPiece hStop hToken, hk, hGreatest.unique hLast]
    rfl

end Text

end Retrace
