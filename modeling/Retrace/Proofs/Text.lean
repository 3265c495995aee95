import Retrace.Text.Search

/-!
# Pieces of a text

Every look-up in a text is a statement about how the text is cut into pieces.
`Text.StandsAt t offset piece` says that `piece` is what the text reads from byte
`offset` on; slices, single characters and tokens are pieces in this sense, and
so is every character of a piece at its own offset
(`Text.StandsAt.charAt?_of_mem`).

Nothing is assumed of an offset: one that falls inside a character or past the
end of the text is the place of no piece.
-/

namespace Retrace

/-! ## Cutting a list of characters -/

@[simp]
theorem byteSize_append (front rest : List Char) :
    byteSize (front ++ rest) = byteSize front + byteSize rest := by
  induction front with
  | nil => simp [byteSize]
  | cons c cs ih =>
    simp only [List.cons_append, byteSize, ih]
    omega

theorem dropBytes?_zero (cs : List Char) : dropBytes? cs 0 = some cs := by
  cases cs <;> rfl

theorem takeBytes?_zero (cs : List Char) : takeBytes? cs 0 = some [] := by
  cases cs <;> rfl

theorem dropBytes?_append (front rest : List Char) :
    dropBytes? (front ++ rest) (byteSize front) = some rest := by
  induction front with
  | nil => exact dropBytes?_zero rest
  | cons c cs ih =>
    have hPos := c.utf8Size_pos
    obtain ⟨n, hn⟩ : ∃ n, byteSize (c :: cs) = n + 1 :=
      ⟨byteSize (c :: cs) - 1, by simp only [byteSize]; omega⟩
    have hSize : n + 1 = c.utf8Size + byteSize cs := hn.symm
    rw [hn, List.cons_append, dropBytes?, if_pos (by omega),
      show n + 1 - c.utf8Size = byteSize cs by omega]
    exact ih

theorem takeBytes?_append (front rest : List Char) :
    takeBytes? (front ++ rest) (byteSize front) = some front := by
  induction front with
  | nil => exact takeBytes?_zero rest
  | cons c cs ih =>
    have hPos := c.utf8Size_pos
    obtain ⟨n, hn⟩ : ∃ n, byteSize (c :: cs) = n + 1 :=
      ⟨byteSize (c :: cs) - 1, by simp only [byteSize]; omega⟩
    have hSize : n + 1 = c.utf8Size + byteSize cs := hn.symm
    rw [hn, List.cons_append, takeBytes?, if_pos (by omega),
      show n + 1 - c.utf8Size = byteSize cs by omega, ih]
    rfl

/-- The second half of a list at an offset is what is left after a first half of
that many bytes. -/
theorem dropBytes?_eq_some_iff {cs rest : List Char} {n : Nat} :
    dropBytes? cs n = some rest ↔ ∃ front, cs = front ++ rest ∧ byteSize front = n := by
  constructor
  · intro h
    induction cs generalizing n with
    | nil =>
      cases n with
      | zero => exact ⟨[], by simpa [dropBytes?] using h, rfl⟩
      | succ n => simp [dropBytes?] at h
    | cons c cs ih =>
      cases n with
      | zero => exact ⟨[], by simpa [dropBytes?] using h, rfl⟩
      | succ n =>
        rw [dropBytes?] at h
        split at h
        · obtain ⟨front, rfl, hFront⟩ := ih h
          refine ⟨c :: front, rfl, ?_⟩
          simp only [byteSize]
          omega
        · cases h
  · rintro ⟨front, rfl, rfl⟩
    exact dropBytes?_append front rest

theorem takeBytes?_eq_some_iff {cs front : List Char} {n : Nat} :
    takeBytes? cs n = some front ↔ (∃ rest, cs = front ++ rest) ∧ byteSize front = n := by
  constructor
  · intro h
    induction cs generalizing n front with
    | nil =>
      cases n with
      | zero =>
        cases h
        exact ⟨⟨[], rfl⟩, rfl⟩
      | succ n => simp [takeBytes?] at h
    | cons c cs ih =>
      cases n with
      | zero =>
        cases h
        exact ⟨⟨c :: cs, rfl⟩, rfl⟩
      | succ n =>
        rw [takeBytes?] at h
        split at h
        · obtain ⟨tail, hTail, rfl⟩ := Option.map_eq_some_iff.mp h
          obtain ⟨⟨rest, rfl⟩, hSize⟩ := ih hTail
          refine ⟨⟨rest, rfl⟩, ?_⟩
          simp only [byteSize]
          omega
        · cases h
  · rintro ⟨⟨rest, rfl⟩, rfl⟩
    exact takeBytes?_append front rest

/-- The offset of a character is the size of what stands before it. -/
theorem mem_charOffsetsFrom {start i : Nat} {c : Char} {piece : List Char} :
    (i, c) ∈ charOffsetsFrom start piece ↔
      ∃ before after, piece = before ++ c :: after ∧ i = start + byteSize before := by
  induction piece generalizing start with
  | nil => simp [charOffsetsFrom]
  | cons d ds ih =>
    rw [charOffsetsFrom, List.mem_cons, Prod.mk.injEq, ih]
    constructor
    · rintro (⟨rfl, rfl⟩ | ⟨before, after, rfl, rfl⟩)
      · exact ⟨[], ds, rfl, rfl⟩
      · refine ⟨d :: before, after, rfl, ?_⟩
        simp only [byteSize]
        omega
    · rintro ⟨before, after, hPiece, rfl⟩
      cases before with
      | nil =>
        obtain ⟨rfl, rfl⟩ := List.cons.inj hPiece
        exact Or.inl ⟨rfl, rfl⟩
      | cons e before =>
        obtain ⟨rfl, rfl⟩ := List.cons.inj hPiece
        refine Or.inr ⟨before, after, rfl, ?_⟩
        simp only [byteSize]
        omega

theorem getElem?_charOffsetsFrom (start i : Nat) (piece : List Char) :
    (charOffsetsFrom start piece)[i]? =
      piece[i]?.map fun c => (start + byteSize (piece.take i), c) := by
  induction piece generalizing start i with
  | nil => rfl
  | cons c cs ih =>
    cases i with
    | zero => rfl
    | succ i =>
      rw [charOffsetsFrom, List.getElem?_cons_succ, List.getElem?_cons_succ, ih,
        List.take_succ_cons, byteSize, Nat.add_assoc]

theorem map_snd_charOffsetsFrom (start : Nat) (piece : List Char) :
    (charOffsetsFrom start piece).map (·.2) = piece := by
  apply List.ext_getElem?
  intro i
  rw [List.getElem?_map, getElem?_charOffsetsFrom, Option.map_map]
  exact Option.map_id'

theorem map_fst_charOffsetsFrom (start : Nat) (piece : List Char) :
    (charOffsetsFrom start piece).map (·.1) =
      (List.range piece.length).map fun i => start + byteSize (piece.take i) := by
  apply List.ext_getElem?
  intro i
  rw [List.getElem?_map, getElem?_charOffsetsFrom, List.getElem?_map]
  by_cases hInside : i < piece.length
  · simp [hInside]
  · simp [hInside]

/-- The places of the characters of a piece go up with their numbers. -/
theorem byteSize_take_lt {piece : List Char} {i j : Nat} (hOrder : i < j)
    (hInside : i < piece.length) : byteSize (piece.take i) < byteSize (piece.take j) := by
  induction piece generalizing i j with
  | nil => cases hInside
  | cons c cs ih =>
    obtain ⟨j, rfl⟩ : ∃ n, j = n + 1 := ⟨j - 1, by omega⟩
    have hChar := c.utf8Size_pos
    cases i with
    | zero =>
      rw [List.take_zero, List.take_succ_cons, byteSize, byteSize]
      omega
    | succ i =>
      rw [List.length_cons] at hInside
      have hRest := ih (i := i) (j := j) (by omega) (by omega)
      rw [List.take_succ_cons, List.take_succ_cons, byteSize, byteSize]
      omega

namespace Text

/-! ## Pieces and where they stand -/

/-- The text reads `piece` from byte `offset` on. -/
def StandsAt (t : Text) (offset : Nat) (piece : List Char) : Prop :=
  ∃ before after, t.chars = before ++ (piece ++ after) ∧ byteSize before = offset

/-- The offset falls between two characters of the text or is one of its ends. -/
def Boundary (t : Text) (offset : Nat) : Prop := t.StandsAt offset []

theorem from?_eq_some_iff {t : Text} {offset : Nat} {rest : List Char} :
    t.from? offset = some rest ↔
      ∃ before, t.chars = before ++ rest ∧ byteSize before = offset :=
  dropBytes?_eq_some_iff

theorem boundary_iff_isSome {t : Text} {offset : Nat} :
    t.Boundary offset ↔ (t.from? offset).isSome = true := by
  simp only [Option.isSome_iff_exists, from?_eq_some_iff]
  exact exists_comm

instance (t : Text) (offset : Nat) : Decidable (t.Boundary offset) :=
  decidable_of_iff _ boundary_iff_isSome.symm

theorem before?_eq_some_iff {t : Text} {offset : Nat} {front : List Char} :
    t.before? offset = some front ↔
      (∃ rest, t.chars = front ++ rest) ∧ byteSize front = offset :=
  takeBytes?_eq_some_iff

theorem charAt?_eq_some_iff {t : Text} {offset : Nat} {c : Char} :
    t.charAt? offset = some c ↔ t.StandsAt offset [c] := by
  unfold charAt? StandsAt
  rw [Option.bind_eq_some_iff]
  constructor
  · rintro ⟨rest, hRest, hHead⟩
    obtain ⟨before, hText, hSize⟩ := from?_eq_some_iff.mp hRest
    obtain ⟨after, rfl⟩ := List.head?_eq_some_iff.mp hHead
    exact ⟨before, after, hText, hSize⟩
  · rintro ⟨before, after, hText, hSize⟩
    exact ⟨c :: after, from?_eq_some_iff.mpr ⟨before, hText, hSize⟩, rfl⟩

theorem lt_size_of_charAt? {t : Text} {offset : Nat} {c : Char} (h : t.charAt? offset = some c) :
    offset < t.size := by
  obtain ⟨before, after, hText, hOffset⟩ := charAt?_eq_some_iff.mp h
  have hChar : 0 < c.utf8Size := c.utf8Size_pos
  rw [size, hText, byteSize_append, byteSize_append, hOffset]
  simp only [byteSize]
  omega

theorem slice?_eq_some_iff {t : Text} {span : Span} {piece : List Char} :
    t.slice? span = some piece ↔ t.StandsAt span.start piece ∧ byteSize piece = span.length := by
  unfold slice? StandsAt
  rw [Option.bind_eq_some_iff]
  constructor
  · rintro ⟨rest, hRest, hPiece⟩
    obtain ⟨before, hText, hStart⟩ := from?_eq_some_iff.mp hRest
    obtain ⟨⟨after, rfl⟩, hSize⟩ := takeBytes?_eq_some_iff.mp hPiece
    exact ⟨⟨before, after, hText, hStart⟩, hSize⟩
  · rintro ⟨⟨before, after, hText, hStart⟩, hSize⟩
    exact ⟨piece ++ after, from?_eq_some_iff.mpr ⟨before, hText, hStart⟩,
      takeBytes?_eq_some_iff.mpr ⟨⟨after, rfl⟩, hSize⟩⟩

theorem startsWithAt_iff {t : Text} {offset : Nat} {token : String} :
    t.startsWithAt offset token = true ↔ t.StandsAt offset token.toList := by
  unfold startsWithAt StandsAt
  rw [Option.any_eq_true]
  constructor
  · rintro ⟨rest, hRest, hToken⟩
    obtain ⟨before, hText, hSize⟩ := from?_eq_some_iff.mp hRest
    obtain ⟨after, rfl⟩ := List.isPrefixOf_iff_prefix.mp hToken
    exact ⟨before, after, hText, hSize⟩
  · rintro ⟨before, after, hText, hSize⟩
    exact ⟨token.toList ++ after, from?_eq_some_iff.mpr ⟨before, hText, hSize⟩,
      List.isPrefixOf_iff_prefix.mpr (List.prefix_append _ _)⟩

namespace StandsAt

/-- A part of a piece stands behind the parts before it. -/
theorem part {t : Text} {offset : Nat} (left middle right : List Char)
    (h : t.StandsAt offset (left ++ (middle ++ right))) :
    t.StandsAt (offset + byteSize left) middle := by
  obtain ⟨before, after, hText, rfl⟩ := h
  exact ⟨before ++ left, right ++ after, by simpa using hText, by simp⟩

/-- Every character of a piece can be read off the text. -/
theorem charAt?_of_mem {t : Text} {offset i : Nat} {c : Char} {piece : List Char}
    (h : t.StandsAt offset piece) (hMem : (i, c) ∈ charOffsetsFrom 0 piece) :
    t.charAt? (offset + i) = some c := by
  obtain ⟨left, right, rfl, hi⟩ := mem_charOffsetsFrom.mp hMem
  rw [hi, Nat.zero_add]
  exact charAt?_eq_some_iff.mpr (part left [c] right h)

end StandsAt

/-- The characters listed for a span are those of the text. -/
theorem charAt?_of_mem_charOffsets {t : Text} {span : Span} {i : Nat} {c : Char}
    (h : (i, c) ∈ t.charOffsets span) : t.charAt? i = some c := by
  unfold charOffsets at h
  cases hSlice : t.slice? span with
  | none => simp [hSlice] at h
  | some piece =>
    simp only [hSlice, Option.map_some, Option.getD_some] at h
    obtain ⟨left, right, rfl, rfl⟩ := mem_charOffsetsFrom.mp h
    have hPiece := (slice?_eq_some_iff.mp hSlice).1
    exact charAt?_eq_some_iff.mpr (hPiece.part left [c] right)

end Text

end Retrace
