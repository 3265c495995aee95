import Retrace.Proofs.Checked.Site
import Retrace.Rule.Separator

/-!
# Checked operations of a pairing

An anchor of a piece of text adds the place of a character in the piece to the places
of the piece on the two sides. The operations anchor a piece only after they have
seen it in both texts, so these sums are places of the texts
(`anchorEach_eq`, `token_eq`). The exception is `run`, which is handed a length and
adds it to two offsets before it looks at the texts: there it has to be known that
both sums fit (`run_eq`).

The other thing to check are the entries of lists. A respelling asks the output token
for the character at the same place as in the source token, or for the last one, and
the separators of two lists are looked for up to the end of the shorter list.
-/

namespace Retrace

/-- Both nodes lie in their texts, and the sizes of the two texts have a sum that fits
into an offset with room for one more byte. -/
structure Pairing.Fits (p : Pairing) : Prop where
  source : p.source.node.span.stop ≤ p.source.text.size
  output : p.output.node.span.stop ≤ p.output.text.size
  sizes : p.source.text.size + p.output.text.size + 1 < offsetBound

namespace Pairing.Fits

variable {p : Pairing}

@[simp]
theorem sourceSite (h : p.Fits) : p.source.Fits where
  node := h.source
  size := by
    have hSizes := h.sizes
    omega

@[simp]
theorem outputSite (h : p.Fits) : p.output.Fits where
  node := h.output
  size := by
    have hSizes := h.sizes
    omega

end Pairing.Fits

theorem lt_byteSize_of_mem_charOffsetsFrom {piece : List Char} {i : Nat} {c : Char}
    (h : (i, c) ∈ charOffsetsFrom 0 piece) : i < byteSize piece := by
  obtain ⟨before, after, rfl, rfl⟩ := mem_charOffsetsFrom.mp h
  have hChar := c.utf8Size_pos
  rw [byteSize_append]
  simp only [byteSize]
  omega

namespace Checked

open Lookup

/-! ## Pieces and tokens -/

/-- Plain anchors for a piece of text that stands at two places. -/
def anchorEach (source output : Nat) (piece : List Char) : Checked (List Anchor) :=
  (charOffsetsFrom 0 piece).mapM fun (i, _) => do
    let i ← number i
    return .plain (← add source i) (← add output i)

/-- Anchors a token that stands at two places. -/
def token (p : Pairing) (s o : Lookup Nat) (token : String) : Checked (List Anchor) := do
  match ← s.run, ← o.run with
  | some s, some o =>
    if p.source.text.startsWithAt s token && p.output.text.startsWithAt o token then
      anchorEach s o token.toList
    else return []
  | _, _ => return []

/-- Anchors a token that is looked for on both sides. -/
def tokenAt (p : Pairing) (find : Site → Lookup Nat) (token : String) : Checked (List Anchor) :=
  Checked.token p (find p.source) (find p.output) token

/-- Anchors a token that is looked for on both sides, given the payloads of the two
nodes. -/
def tokenOf {α : Type} (p : Pairing) (s o : α) (find : Site → α → Lookup Nat)
    (token : String) : Checked (List Anchor) :=
  Checked.token p (find p.source s) (find p.output o) token

/-- Anchors a token that both nodes start with. -/
def lead (p : Pairing) (token : String) : Checked (List Anchor) :=
  tokenAt p (leading · token) token

/-- Anchors a token that both nodes end with. -/
def trail (p : Pairing) (token : String) : Checked (List Anchor) :=
  tokenAt p (trailing · token) token

theorem anchorEach_eq {source output : Nat} {piece : List Char}
    (hs : source + byteSize piece < offsetBound) (ho : output + byteSize piece < offsetBound) :
    anchorEach source output piece = .ok (Retrace.anchorEach source output piece) := by
  refine mapM_eq ?_
  rintro ⟨i, c⟩ hMem
  have hInside := lt_byteSize_of_mem_charOffsetsFrom hMem
  have hNumber : i < offsetBound := by omega
  have hSource : source + i < offsetBound := by omega
  have hOutput : output + i < offsetBound := by omega
  simp only [number_eq hNumber, ok_bind, add_eq hSource, add_eq hOutput, pure_eq_ok]

@[simp]
theorem token_eq {p : Pairing} (h : p.Fits) (s o : Option Nat) (token : String) :
    Checked.token p (found s) (found o) token = .ok (p.token (s, o) token) := by
  unfold Checked.token Pairing.token
  simp only [run_found, ok_bind]
  cases s with
  | none => rfl
  | some s =>
    cases o with
    | none => rfl
    | some o =>
      dsimp only
      split_ifs with hBoth
      · obtain ⟨hs, ho⟩ := (Bool.and_eq_true _ _).mp hBoth
        have hSource := (Text.startsWithAt_iff.mp hs).add_size_le
        have hOutput := (Text.startsWithAt_iff.mp ho).add_size_le
        have hSizes := h.sizes
        exact anchorEach_eq (by omega) (by omega)
      · rfl

@[simp]
theorem lead_eq {p : Pairing} (h : p.Fits) (token : String) :
    lead p token = .ok (p.leading token) :=
  token_eq h _ _ token

@[simp]
theorem trail_eq {p : Pairing} (h : p.Fits) (token : String) :
    trail p token = .ok (p.trailing token) := by
  simp only [trail, tokenAt, trailing_eq h.sourceSite, trailing_eq h.outputSite, token_eq h]
  rfl

/-! ## Respellings -/

/-- Substitutions that respell one token as another. The place in the output token is
that of the entry with the same number, or of the last entry. -/
def respell (source output : Nat) (sourceToken outputToken : List (Nat × Char)) :
    Checked (List Anchor) :=
  if outputToken = [] then return []
  else
    sourceToken.zipIdx.mapM fun ((i, c), k) => do
      let (j, _) ← entry outputToken (min k (← sub outputToken.length 1))
      return .substitute (← add source (← number i)) (← add output (← number j)) (some c)
        (outputToken[k]?.map (·.2))

/-- Anchors a token that may be spelled differently on the two sides. -/
def tokenOrRespelling (p : Pairing) (s o : Lookup Nat) (sourceToken outputToken : String) :
    Checked (List Anchor) :=
  if sourceToken = outputToken then Checked.token p s o sourceToken
  else do
    match ← s.run, ← o.run with
    | some s, some o =>
      if p.source.text.startsWithAt s sourceToken && p.output.text.startsWithAt o outputToken then
        respell s o (charOffsetsFrom 0 sourceToken.toList) (charOffsetsFrom 0 outputToken.toList)
      else return []
    | _, _ => return []

/-- The substitution for the entry with number `k` of the source token. -/
def substitutionAt (source output : Nat) (others : List (Nat × Char)) (e : (Nat × Char) × Nat) :
    Anchor :=
  .substitute (source + e.1.1)
    (output + ((others[min e.2 (others.length - 1)]?).map (·.1)).getD 0) (some e.1.2)
    (others[e.2]?.map (·.2))

/-- The recursion over both tokens and the access by number agree: the last place that
was met is that of the entry before. -/
theorem respell_eq_map {source output : Nat} {others : List (Nat × Char)} (hOthers : others ≠ [])
    (rest : List (Nat × Char)) (k : Nat) (last : Option Nat)
    (hLast : 0 < k → last = (others[min (k - 1) (others.length - 1)]?).map (·.1)) :
    Retrace.respell source output last rest (others.drop k) =
      (rest.zipIdx k).map (substitutionAt source output others) := by
  have hLength : 0 < others.length := List.length_pos_iff.mpr hOthers
  induction rest generalizing k last with
  | nil => cases hDrop : others.drop k <;> rfl
  | cons e rest ih =>
    obtain ⟨i, c⟩ := e
    rw [List.zipIdx_cons, List.map_cons]
    by_cases hk : k < others.length
    · have hMin : min k (others.length - 1) = k := by omega
      have hNext := ih (k + 1) (some others[k].1) (by
        intro _
        simp [hMin, hk])
      rw [List.drop_eq_getElem_cons hk, Retrace.respell, hNext]
      simp [substitutionAt, hMin, hk]
    · -- the other token is used up, and the place of its last entry is kept from here on
      have hMin : min k (others.length - 1) = others.length - 1 := by omega
      have hMinLast : min (k - 1) (others.length - 1) = others.length - 1 := by omega
      have hEnd : others.length - 1 < others.length := by omega
      have hSome : last = some others[others.length - 1].1 := by
        rw [hLast (by omega), hMinLast]
        simp [hEnd]
      have hNext := ih (k + 1) last (by
        intro _
        rw [hSome, Nat.add_sub_cancel, hMin]
        simp [hEnd])
      have hNone : others.drop k = [] := List.drop_eq_nil_of_le (by omega)
      have hNoneNext : others.drop (k + 1) = [] := List.drop_eq_nil_of_le (by omega)
      rw [hNoneNext, hSome] at hNext
      rw [hNone, hSome, Retrace.respell, hNext]
      simp [substitutionAt, hMin, hEnd, hk]

theorem respell_eq {source output : Nat} {sourceToken outputToken : List (Nat × Char)}
    (hs : ∀ e ∈ sourceToken, source + e.1 < offsetBound)
    (ho : ∀ e ∈ outputToken, output + e.1 < offsetBound) :
    respell source output sourceToken outputToken =
      .ok (Retrace.respell source output none sourceToken outputToken) := by
  unfold respell
  split_ifs with hEmpty
  · subst hEmpty
    cases sourceToken <;> rfl
  · have hMap := @respell_eq_map source output outputToken hEmpty sourceToken 0 none (by omega)
    rw [List.drop_zero] at hMap
    rw [hMap]
    refine mapM_eq ?_
    rintro ⟨⟨i, c⟩, k⟩ hMem
    have hLength : 0 < outputToken.length := List.length_pos_iff.mpr hEmpty
    have hIndex : min k (outputToken.length - 1) < outputToken.length := by omega
    have hEntry := List.getElem?_eq_getElem hIndex
    have hSource := hs (i, c) (List.fst_mem_of_mem_zipIdx hMem)
    have hOutput := ho _ (List.getElem_mem hIndex)
    have hi : i < offsetBound := by omega
    have hj : outputToken[min k (outputToken.length - 1)].1 < offsetBound := by omega
    simp only [sub_eq (Nat.one_le_iff_ne_zero.mpr (by omega) : 1 ≤ outputToken.length), ok_bind,
      entry_eq hEntry, number_eq hi, number_eq hj, add_eq hSource, add_eq hOutput, pure_eq_ok,
      substitutionAt, hEntry, Option.map_some, Option.getD_some]

@[simp]
theorem tokenOrRespelling_eq {p : Pairing} (h : p.Fits) (s o : Option Nat)
    (sourceToken outputToken : String) :
    tokenOrRespelling p (found s) (found o) sourceToken outputToken =
      .ok (p.tokenOrRespelling (s, o) sourceToken outputToken) := by
  unfold tokenOrRespelling Pairing.tokenOrRespelling
  split_ifs with hSame
  · exact token_eq h s o sourceToken
  · simp only [run_found, ok_bind]
    cases s with
    | none => rfl
    | some s =>
      cases o with
      | none => rfl
      | some o =>
        dsimp only
        split_ifs with hBoth
        · obtain ⟨hs, ho⟩ := (Bool.and_eq_true _ _).mp hBoth
          have hSource := (Text.startsWithAt_iff.mp hs).add_size_le
          have hOutput := (Text.startsWithAt_iff.mp ho).add_size_le
          have hSizes := h.sizes
          refine respell_eq ?_ ?_
          · rintro ⟨i, c⟩ hMem
            have hInside := lt_byteSize_of_mem_charOffsetsFrom hMem
            show s + i < offsetBound
            omega
          · rintro ⟨j, d⟩ hMem
            have hInside := lt_byteSize_of_mem_charOffsetsFrom hMem
            show o + j < offsetBound
            omega
        · rfl

/-! ## Runs -/

/-- Anchors `length` bytes that are the same on both sides. -/
def run (p : Pairing) (s o length : Nat) : Checked (List Anchor) := do
  let sourceSpan := Span.between? s (← add s length)
  let outputSpan := Span.between? o (← add o length)
  match sourceSpan.bind p.source.text.slice?, outputSpan.bind p.output.text.slice? with
  | some piece, some other => if piece = other then anchorEach s o piece else return []
  | _, _ => return []

theorem run_eq {p : Pairing} {s o length : Nat} (hs : s + length < offsetBound)
    (ho : o + length < offsetBound) : run p s o length = .ok (p.run s o length) := by
  have hSourceSpan := Span.between?_of_le (Nat.le_add_right s length)
  have hOutputSpan := Span.between?_of_le (Nat.le_add_right o length)
  unfold run Pairing.run
  simp only [add_eq hs, add_eq ho, ok_bind, hSourceSpan, hOutputSpan, Option.bind_some]
  cases hPiece : p.source.text.slice? ⟨s, s + length, Nat.le_add_right s length⟩ with
  | none => rfl
  | some piece =>
    cases hOther : p.output.text.slice? ⟨o, o + length, Nat.le_add_right o length⟩ with
    | none => rfl
    | some other =>
      have hSize := (Text.stop_le_of_slice? hPiece).1
      dsimp only at hSize ⊢
      split_ifs
      · exact anchorEach_eq (by omega) (by omega)
      · rfl

/-! ## Separators -/

/-- The separator after item `i`, looked for up to the next item or to the end of the
list. -/
def separatorAfter (s : Site) (items : List (Option NodeId)) (i close : Nat) (token : String) :
    Lookup Nat := do
  let item ← found (← found items[i]?)
  let start ← outerStop s item
  let stop ←
    match items[i + 1]? with
    | some next => do outerStart s (← found next)
    | none => found (some close)
  find s start stop token

/-- Item `i` or the item after it is a hole. -/
def touchesHole (items : List (Option NodeId)) (i : Nat) : Checked Bool := do
  return (← entry items i).isNone || (items[i + 1]?).any (·.isNone)

/-- There is a hole next to separator `i` of one of two lists. -/
def nextToHole (s o : List (Option NodeId)) (i : Nat) : Checked Bool := do
  return (← touchesHole s i) || (← touchesHole o i)

/-- Anchors the separators of two lists that may have holes, up to where the lists
end. -/
def sparseSeparators (p : Pairing) (s o : List (Option NodeId))
    (sourceClose outputClose : Lookup Nat) (token : String) : Checked (List Anchor) := do
  match ← sourceClose.run, ← outputClose.run with
  | some sourceClose, some outputClose =>
    collect (List.range (min s.length o.length)) fun i => do
      if ← nextToHole s o i then return []
      else
        Checked.token p (separatorAfter p.source s i sourceClose token)
          (separatorAfter p.output o i outputClose token) token
  | _, _ => return []

/-- The separator that is left out for a hole, if there is one. -/
def holeProblems (s o : List (Option NodeId)) (sourceClose outputClose : Lookup Nat) :
    Checked (List Problem) := do
  match ← sourceClose.run, ← outputClose.run with
  | some _, some _ =>
    match ← (List.range (min s.length o.length)).findM? (nextToHole s o) with
    | some first =>
      return [.ambiguous ("sparse collection: separator after element " ++ toString first ++
        " sits next to a hole")]
    | none => return []
  | _, _ => return []

/-- Anchors the separators of two lists without holes. -/
def separators (p : Pairing) (s o : List NodeId) (sourceClose outputClose : Lookup Nat)
    (token : String) : Checked (List Anchor) :=
  sparseSeparators p (s.map some) (o.map some) sourceClose outputClose token

@[simp]
theorem separatorAfter_eq {s : Site} (h : s.Fits) (items : List (Option NodeId)) (i close : Nat)
    (token : String) :
    separatorAfter s items i close token = found (s.separatorAfter? items i close token) := by
  unfold separatorAfter Site.separatorAfter?
  refine found_bind fun slot _ => found_bind fun item _ => ?_
  cases hNext : items[i + 1]? <;> simp [h]

theorem touchesHole_eq {items : List (Option NodeId)} {i : Nat} (h : i < items.length) :
    touchesHole items i = .ok (Retrace.touchesHole items i) := by
  have hEntry := List.getElem?_eq_getElem h
  simp only [touchesHole, entry_eq hEntry, ok_bind, pure_eq_ok, Retrace.touchesHole, hEntry]
  cases items[i] <;> cases hNext : items[i + 1]? with
  | none => simp
  | some next => cases next <;> simp

theorem nextToHole_eq {s o : List (Option NodeId)} {i : Nat}
    (h : i ∈ List.range (min s.length o.length)) :
    nextToHole s o i = .ok (Retrace.touchesHole s i || Retrace.touchesHole o i) := by
  have hBoth := List.mem_range.mp h
  have hSource : i < s.length := by omega
  have hOutput : i < o.length := by omega
  simp only [nextToHole, touchesHole_eq hSource, touchesHole_eq hOutput, ok_bind, pure_eq_ok]

@[simp]
theorem sparseSeparators_eq {p : Pairing} (h : p.Fits) (s o : List (Option NodeId))
    (sourceClose outputClose : Option Nat) (token : String) :
    sparseSeparators p s o (found sourceClose) (found outputClose) token =
      .ok (p.sparseSeparators s o (sourceClose, outputClose) token) := by
  unfold sparseSeparators Pairing.sparseSeparators
  simp only [run_found, ok_bind]
  cases sourceClose with
  | none => rfl
  | some sourceClose =>
    cases outputClose with
    | none => rfl
    | some outputClose =>
      refine collect_eq ?_
      intro i hi
      simp only [nextToHole_eq hi, ok_bind, separatorAfter_eq h.sourceSite,
        separatorAfter_eq h.outputSite, token_eq h, pure_eq_ok, ite_ok]

theorem findM?_eq {α : Type} {xs : List α} {f : α → Checked Bool} {g : α → Bool}
    (h : ∀ x ∈ xs, f x = .ok (g x)) : xs.findM? f = .ok (xs.find? g) := by
  induction xs with
  | nil => rfl
  | cons x xs ih =>
    obtain ⟨hHead, hTail⟩ := List.forall_mem_cons.mp h
    rw [List.findM?, hHead, ok_bind, ih hTail, List.find?_cons]
    cases g x <;> rfl

@[simp]
theorem holeProblems_eq (s o : List (Option NodeId)) (sourceClose outputClose : Option Nat) :
    holeProblems s o (found sourceClose) (found outputClose) =
      .ok (Pairing.holeProblems s o (sourceClose, outputClose)) := by
  unfold holeProblems Pairing.holeProblems
  simp only [run_found, ok_bind]
  cases sourceClose with
  | none => rfl
  | some sourceClose =>
    cases outputClose with
    | none => rfl
    | some outputClose =>
      simp only [findM?_eq fun _ => nextToHole_eq, ok_bind]
      cases (List.range (min s.length o.length)).find? fun i =>
        Retrace.touchesHole s i || Retrace.touchesHole o i <;> rfl

@[simp]
theorem separators_eq {p : Pairing} (h : p.Fits) (s o : List NodeId)
    (sourceClose outputClose : Option Nat) (token : String) :
    separators p s o (found sourceClose) (found outputClose) token =
      .ok (p.separators s o (sourceClose, outputClose) token) :=
  sparseSeparators_eq h _ _ _ _ _

end Checked

end Retrace
