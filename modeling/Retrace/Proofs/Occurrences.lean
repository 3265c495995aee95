import Retrace.Proofs.Search

/-!
# Occurrences in the bytes of a text

A text is searched character by character, but a token is found where its bytes are. The
two are the same, because an encoding in UTF-8 keeps its characters apart. Only the first
byte of a character can start one, so what stands at some place of the bytes and begins with
a character begins between two characters of the text (`exists_cut_of_utf8`). From there on
each character is read off its own bytes alone (`prefix_of_utf8`). The bytes of a token that
is not empty occur therefore exactly where the token stands (`Text.occursAt_iff`).

The main statement says what a bounded search finds in terms of the bytes
(`Text.finds_exactly`): the least, or the greatest, place of the token in the window.
-/

namespace Retrace

/-- The bytes of a list of characters. -/
def utf8 (cs : List Char) : List UInt8 := cs.flatMap String.utf8EncodeChar

@[simp]
theorem utf8_append (front rest : List Char) : utf8 (front ++ rest) = utf8 front ++ utf8 rest :=
  List.flatMap_append

theorem utf8_cons (c : Char) (cs : List Char) :
    utf8 (c :: cs) = String.utf8EncodeChar c ++ utf8 cs :=
  List.flatMap_cons

theorem length_utf8 (cs : List Char) : (utf8 cs).length = byteSize cs := by
  induction cs with
  | nil => rfl
  | cons c cs ih => rw [utf8_cons, List.length_append, String.length_utf8EncodeChar, ih, byteSize]

/-- A character is read off its bytes, whatever follows them. -/
theorem char_of_utf8 {c d : Char} {rest other : List UInt8}
    (h : String.utf8EncodeChar c ++ rest = String.utf8EncodeChar d ++ other) : c = d := by
  have hLeft := ByteArray.utf8DecodeChar?_utf8EncodeChar_append (b := rest.toByteArray) (c := c)
  have hRight := ByteArray.utf8DecodeChar?_utf8EncodeChar_append (b := other.toByteArray) (c := d)
  rw [← List.toByteArray_append] at hLeft hRight
  rw [h, hRight, Option.some.injEq] at hLeft
  exact hLeft.symm

theorem prefix_of_utf8 {needle cs : List Char} (h : utf8 needle <+: utf8 cs) : needle <+: cs := by
  induction needle generalizing cs with
  | nil => exact List.nil_prefix
  | cons c needle ih =>
    obtain ⟨rest, hBytes⟩ := h
    rw [utf8_cons, List.append_assoc] at hBytes
    cases cs with
    | nil => simp [utf8] at hBytes
    | cons d cs =>
      rw [utf8_cons] at hBytes
      obtain rfl := char_of_utf8 hBytes
      exact List.cons_prefix_cons.mpr ⟨rfl, ih ⟨rest, List.append_cancel_left hBytes⟩⟩

/-- A character starts inside the bytes of another one only at their first byte. -/
theorem length_eq_zero_of_utf8EncodeChar {c d : Char} {front rest : List UInt8}
    {other : List UInt8} (h : String.utf8EncodeChar d ++ other =
      front ++ (String.utf8EncodeChar c ++ rest)) (hInside : front.length < d.utf8Size) :
    front.length = 0 := by
  have hSize : front.length < (String.utf8EncodeChar d).length := by
    rwa [String.length_utf8EncodeChar]
  have hFirst : 0 < (String.utf8EncodeChar c).length := by
    rw [String.length_utf8EncodeChar]
    exact c.utf8Size_pos
  have hByte := congrArg (·[front.length]?) h
  rw [List.getElem?_append_left hSize, List.getElem?_append_right (Nat.le_refl _), Nat.sub_self,
    List.getElem?_append_left hFirst, List.getElem?_eq_getElem hSize,
    List.getElem?_eq_getElem hFirst, Option.some.injEq] at hByte
  apply UInt8.isUTF8FirstByte_getElem_utf8EncodeChar.mp
  rw [hByte]
  exact UInt8.isUTF8FirstByte_getElem_zero_utf8EncodeChar

/-- Where the bytes of a character stand, the text can be cut. -/
theorem exists_cut_of_utf8 {c : Char} {cs : List Char} {front rest : List UInt8}
    (h : utf8 cs = front ++ (String.utf8EncodeChar c ++ rest)) :
    ∃ before after, cs = before ++ after ∧ utf8 before = front ∧
      utf8 after = String.utf8EncodeChar c ++ rest := by
  induction cs generalizing front with
  | nil =>
    have hParts := List.append_eq_nil_iff.mp h.symm
    exact absurd (List.append_eq_nil_iff.mp hParts.2).1 String.utf8EncodeChar_ne_nil
  | cons d cs ih =>
    by_cases hInside : front.length < d.utf8Size
    · rw [utf8_cons] at h
      obtain rfl : front = [] :=
        List.length_eq_zero_iff.mp (length_eq_zero_of_utf8EncodeChar h hInside)
      exact ⟨[], d :: cs, rfl, rfl, by rw [utf8_cons]; exact h⟩
    · -- The bytes of `d` all come before the place, so `front` starts with them.
      rw [utf8_cons] at h
      have hSize : (String.utf8EncodeChar d).length ≤ front.length := by
        rw [String.length_utf8EncodeChar]
        omega
      obtain ⟨later, rfl⟩ := List.prefix_of_prefix_length_le ⟨utf8 cs, h⟩ ⟨_, rfl⟩ hSize
      rw [List.append_assoc] at h
      obtain ⟨before, after, rfl, rfl, hAfter⟩ := ih (List.append_cancel_left h)
      exact ⟨d :: before, after, rfl, utf8_cons d before, hAfter⟩

namespace Text

/-- From `offset` on, the bytes of the text start with those of the token. -/
def OccursAt (t : Text) (offset : Nat) (token : String) : Prop :=
  utf8 token.toList <+: (utf8 t.chars).drop offset

instance (t : Text) (offset : Nat) (token : String) : Decidable (t.OccursAt offset token) :=
  inferInstanceAs (Decidable (_ <+: _))

variable {t : Text} {offset place : Nat} {token : String} {window : Span}

theorem StandsAt.occursAt (h : t.StandsAt offset token.toList) : t.OccursAt offset token := by
  obtain ⟨before, after, hText, rfl⟩ := h
  unfold OccursAt
  rw [hText, utf8_append, ← length_utf8, List.drop_left, utf8_append]
  exact List.prefix_append _ _

/-- The bytes of a token occur nowhere but where the token stands. -/
theorem occursAt_iff (hToken : token ≠ "") :
    t.OccursAt offset token ↔ t.StandsAt offset token.toList := by
  refine ⟨?_, StandsAt.occursAt⟩
  rintro ⟨rest, hRest⟩
  obtain ⟨c, needle, hNeedle⟩ := List.exists_cons_of_ne_nil (toList_ne_nil hToken)
  have hFirst : utf8 token.toList ++ rest = String.utf8EncodeChar c ++ (utf8 needle ++ rest) := by
    rw [hNeedle, utf8_cons, List.append_assoc]
  have hBytes : utf8 t.chars = (utf8 t.chars).take offset ++
      (String.utf8EncodeChar c ++ (utf8 needle ++ rest)) := by
    rw [← hFirst, hRest, List.take_append_drop]
  obtain ⟨before, after, hText, hBefore, hAfter⟩ := exists_cut_of_utf8 hBytes
  obtain ⟨behind, rfl⟩ := prefix_of_utf8 ⟨rest, hFirst.trans hAfter.symm⟩
  refine ⟨before, behind, hText, ?_⟩
  have hPlace : offset < (utf8 t.chars).length := by
    by_contra hPast
    rw [List.drop_eq_nil_of_le (by omega), hNeedle, utf8_cons] at hRest
    simp at hRest
  rw [← length_utf8, hBefore, List.length_take]
  omega

/-! ## Searches -/

/-- The places where the bytes of a token occur and the whole of it lies in a window. -/
def occurrencesIn (t : Text) (window : Span) (token : String) : Set Nat :=
  {place | t.OccursAt place token ∧ window.start ≤ place ∧
    place + (utf8 token.toList).length ≤ window.stop}

/-- The window lies in the text, and both its ends fall between two characters. -/
structure CutsOut (t : Text) (window : Span) : Prop where
  inside : window.stop ≤ t.size
  start : t.Boundary window.start
  stop : t.Boundary window.stop

theorem readable_iff : t.Readable window.start window.stop ↔ t.CutsOut window := by
  constructor
  · rintro ⟨piece, hPiece, hStop⟩
    have hInside := hPiece.add_size_le
    exact ⟨by omega, StandsAt.part [] [] piece hPiece, hStop ▸ hPiece.stop⟩
  · intro h
    exact exists_piece_between h.start h.stop window.start_le_stop

theorem occurrencesIn_eq (hToken : token ≠ "") :
    t.occurrencesIn window token = t.placesIn window.start window.stop token := by
  ext place
  show _ ∧ _ ∧ _ ↔ _ ∧ _ ∧ _
  rw [occursAt_iff hToken, length_utf8, and_comm, and_assoc]

theorem findBetween?_eq (t : Text) (token : String) (start stop : Nat) :
    t.findBetween? start stop token =
      if h : start ≤ stop then t.find? ⟨start, stop, h⟩ token else none := by
  unfold findBetween? Span.between?
  split_ifs <;> rfl

theorem rfindBetween?_eq (t : Text) (token : String) (start stop : Nat) :
    t.rfindBetween? start stop token =
      if h : start ≤ stop then t.rfind? ⟨start, stop, h⟩ token else none := by
  unfold rfindBetween? Span.between?
  split_ifs <;> rfl

theorem find?_eq_some_iff_isLeast : t.find? window token = some place ↔
    token ≠ "" ∧ t.CutsOut window ∧ IsLeast (t.occurrencesIn window token) place := by
  have hBetween : t.findBetween? window.start window.stop token = t.find? window token :=
    (findBetween?_eq t token _ _).trans (dif_pos window.start_le_stop)
  rw [← hBetween, findBetween?_eq_some_iff, readable_iff]
  refine and_congr_right ?_
  intro hToken
  rw [occurrencesIn_eq hToken]

theorem rfind?_eq_some_iff_isGreatest : t.rfind? window token = some place ↔
    token ≠ "" ∧ t.CutsOut window ∧ IsGreatest (t.occurrencesIn window token) place := by
  have hBetween : t.rfindBetween? window.start window.stop token = t.rfind? window token :=
    (rfindBetween?_eq t token _ _).trans (dif_pos window.start_le_stop)
  rw [← hBetween, rfindBetween?_eq_some_iff, readable_iff]
  refine and_congr_right ?_
  intro hToken
  rw [occurrencesIn_eq hToken]

/-- An occurrence starts and ends between two characters. -/
theorem boundaries_of_occursAt (hToken : token ≠ "") (h : t.OccursAt place token) :
    t.Boundary place ∧ t.Boundary (place + (utf8 token.toList).length) ∧
      t.startsWithAt place token = true := by
  have hStands := (occursAt_iff hToken).mp h
  rw [length_utf8]
  exact ⟨StandsAt.part [] [] token.toList hStands, hStands.stop, startsWithAt_iff.mpr hStands⟩

/-- **A bounded search is exact.** It finds a token exactly if the token is not empty, the
window can be cut out of the text and the bytes of the token occur in it. The answer is the
least place at which they occur with the whole token in the window, and the greatest one for
a search from the back. The token found starts and ends between two characters of the text,
and the text goes on with it at its place. A search between two offsets is the same search
in the window between them, and finds nothing if they are out of order. -/
theorem finds_exactly (t : Text) (token : String) :
    (∀ window place, t.find? window token = some place ↔
      token ≠ "" ∧ t.CutsOut window ∧ IsLeast (t.occurrencesIn window token) place) ∧
    (∀ window place, t.rfind? window token = some place ↔
      token ≠ "" ∧ t.CutsOut window ∧ IsGreatest (t.occurrencesIn window token) place) ∧
    (∀ window place, t.find? window token = some place ∨ t.rfind? window token = some place →
      t.Boundary place ∧ t.Boundary (place + (utf8 token.toList).length) ∧
        t.startsWithAt place token = true) ∧
    ∀ start stop,
      t.findBetween? start stop token =
        (if h : start ≤ stop then t.find? ⟨start, stop, h⟩ token else none) ∧
      t.rfindBetween? start stop token =
        (if h : start ≤ stop then t.rfind? ⟨start, stop, h⟩ token else none) := by
  refine ⟨fun _ _ => find?_eq_some_iff_isLeast, fun _ _ => rfind?_eq_some_iff_isGreatest, ?_,
    fun start stop => ⟨findBetween?_eq t token start stop, rfindBetween?_eq t token start stop⟩⟩
  rintro window place (hFind | hFind)
  · obtain ⟨hToken, -, hLeast⟩ := find?_eq_some_iff_isLeast.mp hFind
    exact boundaries_of_occursAt hToken hLeast.1.1
  · obtain ⟨hToken, -, hGreatest⟩ := rfind?_eq_some_iff_isGreatest.mp hFind
    exact boundaries_of_occursAt hToken hGreatest.1.1

/-- Two occurrences that overlap in a character of two bytes on either side. -/
theorem finds_exactly_overlapping :
    (ofString "aéaéa").find? (.upTo 7) "aéa" = some 0 ∧
      (ofString "aéaéa").rfind? (.upTo 7) "aéa" = some 3 ∧
      IsLeast ((ofString "aéaéa").occurrencesIn (.upTo 7) "aéa") 0 ∧
      IsGreatest ((ofString "aéaéa").occurrencesIn (.upTo 7) "aéa") 3 ∧
      (ofString "aéaéa").Boundary 3 ∧
      (ofString "aéaéa").Boundary (3 + (utf8 "aéa".toList).length) ∧
      (ofString "aéaéa").startsWithAt 3 "aéa" = true := by
  have hFirst : (ofString "aéaéa").find? (.upTo 7) "aéa" = some 0 := by decide
  have hLast : (ofString "aéaéa").rfind? (.upTo 7) "aéa" = some 3 := by decide
  obtain ⟨hLeast, hGreatest, hPlace, -⟩ := finds_exactly (ofString "aéaéa") "aéa"
  exact ⟨hFirst, hLast, ((hLeast _ _).mp hFirst).2.2, ((hGreatest _ _).mp hLast).2.2,
    hPlace _ _ (.inr hLast)⟩

end Text

end Retrace
