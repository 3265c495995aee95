import Retrace.Proofs.Checked.Pairing

/-!
# Tokens that are spelled differently

A keyword or an operator that is rewritten stands at a known place on both sides, spelled in
two ways. Every character of the old spelling is joined to the character of the new one with
the same number, or to the last character where the new spelling is shorter
(`Respelled.pairs`). So the old spelling is covered whatever the lengths are. The new one is
covered as far as the old one reaches: the characters by which it is longer are the end of no
anchor (`uncovered_lengthenedKeyword`).
-/

namespace Retrace

/-- The substitution for the `k`-th character of the old spelling, which is `c`. It leads to
the `k`-th character of the new spelling, or to the last one if that is shorter, and then it
replaces nothing there. -/
def respelledAt (source output : Nat) (old new : List Char) (k : Nat) (c : Char) : Anchor :=
  .substitute (source + byteSize (old.take k))
    (output + byteSize (new.take (min k (new.length - 1)))) (some c) new[k]?

/-- The anchors of a token that is spelled `old` in the source and `new` in the output. -/
structure Respelled (source output : Nat) (old new : List Char) (anchors : List Anchor) :
    Prop where
  pairs : ∀ k, anchors[k]? = old[k]?.map (respelledAt source output old new k)
  ordered : anchors.Pairwise fun a b => a.source < b.source ∧ a.output ≤ b.output
  sources : ∀ k < old.length, ∃ a ∈ anchors, a.source = source + byteSize (old.take k)
  outputs : ∀ k < new.length,
    (∃ a ∈ anchors, a.output = output + byteSize (new.take k)) ↔ k < old.length

theorem byteSize_take_le {piece : List Char} {i j : Nat} (hOrder : i ≤ j)
    (hInside : i < piece.length) : byteSize (piece.take i) ≤ byteSize (piece.take j) := by
  rcases Nat.eq_or_lt_of_le hOrder with rfl | hLess
  · exact Nat.le_refl _
  · exact Nat.le_of_lt (byteSize_take_lt hLess hInside)

theorem eq_of_byteSize_take_eq {piece : List Char} {i j : Nat} (hi : i < piece.length)
    (hj : j < piece.length) (h : byteSize (piece.take i) = byteSize (piece.take j)) : i = j := by
  rcases Nat.lt_trichotomy i j with hLess | hSame | hGreater
  · have hPlaces := byteSize_take_lt hLess hi
    omega
  · exact hSame
  · have hPlaces := byteSize_take_lt hGreater hj
    omega

/-- Order and coverage follow from the pairs, since a later character has a later place. -/
theorem respelled_of_pairs {source output : Nat} {old new : List Char} {anchors : List Anchor}
    (hNew : new ≠ [])
    (h : ∀ k, anchors[k]? = old[k]?.map (respelledAt source output old new k)) :
    Respelled source output old new anchors := by
  have hLength : 0 < new.length := List.length_pos_iff.mpr hNew
  have hInside : ∀ k, min k (new.length - 1) < new.length := by
    intro k
    omega
  have hEnds : ∀ k a, anchors[k]? = some a → k < old.length ∧
      a.source = source + byteSize (old.take k) ∧
      a.output = output + byteSize (new.take (min k (new.length - 1))) := by
    intro k a ha
    rw [h k] at ha
    obtain ⟨c, hc, rfl⟩ := Option.map_eq_some_iff.mp ha
    exact ⟨(List.getElem?_eq_some_iff.mp hc).1, rfl, rfl⟩
  have hMem : ∀ k < old.length, ∃ a, anchors[k]? = some a := by
    intro k hk
    rw [h k, List.getElem?_eq_getElem hk]
    exact ⟨_, rfl⟩
  refine ⟨h, ?_, ?_, ?_⟩
  · rw [List.pairwise_iff_getElem]
    intro i j hi hj hLess
    obtain ⟨hOld, hSource, hOutput⟩ := hEnds i _ (List.getElem?_eq_getElem hi)
    obtain ⟨-, hSource', hOutput'⟩ := hEnds j _ (List.getElem?_eq_getElem hj)
    have hSources := byteSize_take_lt hLess hOld
    have hOutputs := byteSize_take_le
      (show min i (new.length - 1) ≤ min j (new.length - 1) by omega) (hInside i)
    omega
  · intro k hk
    obtain ⟨a, ha⟩ := hMem k hk
    exact ⟨a, List.mem_of_getElem? ha, (hEnds k a ha).2.1⟩
  · intro k hk
    constructor
    · rintro ⟨a, hA, hPlace⟩
      obtain ⟨j, hj⟩ := List.mem_iff_getElem?.mp hA
      obtain ⟨hOld, -, hOutput⟩ := hEnds j a hj
      have hSame : k = min j (new.length - 1) :=
        eq_of_byteSize_take_eq hk (hInside j) (by omega)
      omega
    · intro hOld
      obtain ⟨a, ha⟩ := hMem k hOld
      refine ⟨a, List.mem_of_getElem? ha, ?_⟩
      rw [(hEnds k a ha).2.2, show min k (new.length - 1) = k by omega]

theorem getElem?_respell {source output : Nat} {old new : List Char} (hNew : new ≠ []) (k : Nat) :
    (respell source output none (charOffsetsFrom 0 old) (charOffsetsFrom 0 new))[k]? =
      old[k]?.map (respelledAt source output old new k) := by
  have hLength : (charOffsetsFrom 0 new).length = new.length := by
    rw [← List.length_map (·.2), map_snd_charOffsetsFrom]
  have hOthers : charOffsetsFrom 0 new ≠ [] := by
    rw [← List.length_pos_iff, hLength]
    exact List.length_pos_iff.mpr hNew
  have hMap := @Checked.respell_eq_map source output _ hOthers (charOffsetsFrom 0 old) 0 none
    (by omega)
  rw [List.drop_zero] at hMap
  rw [hMap, List.getElem?_map, List.getElem?_zipIdx, getElem?_charOffsetsFrom]
  cases hChar : old[k]? with
  | none => rfl
  | some c =>
    have hPos : 0 < new.length := List.length_pos_iff.mpr hNew
    have hInside : min k (new.length - 1) < new.length := by omega
    have hShown : (new[k]?.map fun d => (byteSize (new.take k), d)).map (·.2) = new[k]? := by
      cases new[k]? <;> rfl
    simp only [Option.map_some, Checked.substitutionAt, respelledAt, getElem?_charOffsetsFrom,
      hLength, Nat.zero_add, List.getElem?_eq_getElem hInside, Option.getD_some, hShown]

namespace Pairing

/-- **A respelled token is covered as far as its old spelling reaches.** For two different
spellings that stand at the two places, every character of the old one is joined to the
character of the new one with the same number, or to the last one. The anchors go up in the
source and never down in the output, every character of the old spelling has one, and a
character of the new spelling has one exactly if the old one is long enough. -/
theorem respelled_tokenOrRespelling (p : Pairing) {s o : Nat} {old new : String}
    (hNe : old ≠ new) (hNew : new ≠ "") (hSource : p.source.text.startsWithAt s old = true)
    (hOutput : p.output.text.startsWithAt o new = true) :
    Respelled s o old.toList new.toList (p.tokenOrRespelling (some s, some o) old new) := by
  have hChars : new.toList ≠ [] := by
    rw [ne_eq, String.toList_eq_nil_iff]
    exact hNew
  have hAnchors : p.tokenOrRespelling (some s, some o) old new =
      respell s o none (charOffsetsFrom 0 old.toList) (charOffsetsFrom 0 new.toList) := by
    simp [tokenOrRespelling, hNe, hSource, hOutput]
  rw [hAnchors]
  exact respelled_of_pairs hChars (getElem?_respell hChars)

/-- A text that ends in the declaration of `a` with the given keyword. -/
def declaring (front keyword : List Char) : Site :=
  let start := byteSize front
  let name := start + (byteSize keyword + 1)
  let node : Node := ⟨⟨start, name + 1, by omega⟩, false,
    ⟨.variableDeclaration, ⟨String.ofList keyword, [⟨1⟩]⟩⟩⟩
  ⟨⟨front ++ keyword ++ [' ', 'a']⟩,
    ⟨⟨0⟩, #[node, ⟨⟨name, name + 1, by omega⟩, false, ⟨.variableDeclarator, ⟨⟨2⟩, none⟩⟩⟩,
      ⟨⟨name, name + 1, by omega⟩, false, ⟨.identifier, ⟨"a"⟩⟩⟩]⟩,
    node⟩

/-- The declaration `const a`, behind a character of two bytes, becomes `var a`. -/
def shortenedKeyword : Pairing := ⟨declaring "é ".toList "const".toList, declaring [] "var".toList⟩

theorem respelled_shortenedKeyword :
    shortenedKeyword.tokenOrRespelling (some 3, some 0) "const" "var" =
        [.substitute 3 0 (some 'c') (some 'v'), .substitute 4 1 (some 'o') (some 'a'),
          .substitute 5 2 (some 'n') (some 'r'), .substitute 6 2 (some 's') none,
          .substitute 7 2 (some 't') none] ∧
      Respelled 3 0 "const".toList "var".toList
        (shortenedKeyword.tokenOrRespelling (some 3, some 0) "const" "var") :=
  ⟨by decide, shortenedKeyword.respelled_tokenOrRespelling (by decide) (by decide) (by decide)
    (by decide)⟩

/-- The declaration `var a` becomes `const a`. -/
def lengthenedKeyword : Pairing := ⟨declaring [] "var".toList, declaring [] "const".toList⟩

/-- Both keywords are found, and yet no anchor ends at the last letter of the longer one. -/
theorem uncovered_lengthenedKeyword :
    lengthenedKeyword.source.text.startsWithAt 0 "var" = true ∧
      lengthenedKeyword.output.text.startsWithAt 0 "const" = true ∧
      lengthenedKeyword.output.text.charAt? 4 = some 't' ∧
      ¬ ∃ a ∈ lengthenedKeyword.tokenOrRespelling (some 0, some 0) "var" "const",
        a.output = 4 := by
  decide

end Pairing

end Retrace
