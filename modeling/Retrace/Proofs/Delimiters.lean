import Retrace.Proofs.Checked.Site
import Retrace.Proofs.Parentheses
import Retrace.Rule.Dispatch

/-!
# Bodies that change their delimiters

A few rewritings leave a body as it is and change what stands around it: a string loses its
quotes, a template or a string gets others, a name or a text of markup becomes a string. All
of them anchor the body character by character, at whatever place and whatever its characters
are (`Redelimited`). The delimiters are single bytes, so the body stands right behind the
first one, and a body of the same length on both sides ends right before the second one. Text
of markup has blanks around it, which are passed over: the body is what trimming leaves
(`trim_of_blanks`).
-/

namespace Retrace

/-! ## Trimming -/

/-- A piece that trimming leaves alone has no blanks at either end. -/
theorem trimStart_trimEnd_of_trim {body : List Char} (h : trim body = body) :
    trimStart body = body ∧ trimEnd body = body := by
  obtain ⟨blanks, -, hEnd⟩ := exists_trimEnd_append (trimStart body)
  have hStart := leadingBlanks_append_trimStart body
  have hLengths := congrArg List.length hStart
  rw [show trimEnd (trimStart body) = body from h] at hEnd
  rw [hEnd] at hLengths
  simp only [List.length_append] at hLengths
  have hLeading : leadingBlanks body = [] := List.length_eq_zero_iff.mp (by omega)
  have hTrimStart : trimStart body = body := by
    rw [hLeading] at hStart
    exact hStart
  refine ⟨hTrimStart, ?_⟩
  unfold trim at h
  rw [hTrimStart] at h
  exact h

theorem trimStart_of_blanks {front body back : List Char} (hFront : ∀ c ∈ front, isBlank c = true)
    (hBody : trim body = body) (hSome : body ≠ []) :
    trimStart (front ++ (body ++ back)) = body ++ back := by
  have hStart : body.dropWhile isBlank = body := (trimStart_trimEnd_of_trim hBody).1
  unfold trimStart
  rw [List.dropWhile_append_of_pos hFront, List.dropWhile_append, hStart, if_neg]
  rw [List.isEmpty_iff]
  exact hSome

theorem trim_of_blanks {front body back : List Char} (hFront : ∀ c ∈ front, isBlank c = true)
    (hBack : ∀ c ∈ back, isBlank c = true) (hBody : trim body = body) (hSome : body ≠ []) :
    trim (front ++ (body ++ back)) = body := by
  have hReverse : ∀ c ∈ back.reverse, isBlank c = true := by
    intro c hc
    exact hBack c (List.mem_reverse.mp hc)
  have hEnd : trimEnd body = body := (trimStart_trimEnd_of_trim hBody).2
  unfold trim
  rw [trimStart_of_blanks hFront hBody hSome, trimEnd, List.reverse_append,
    List.dropWhile_append_of_pos hReverse]
  exact hEnd

theorem leadingBlanks_of_blanks {front body back : List Char}
    (hFront : ∀ c ∈ front, isBlank c = true) (hBody : trim body = body) (hSome : body ≠ []) :
    leadingBlanks (front ++ (body ++ back)) = front := by
  have hSplit := leadingBlanks_append_trimStart (front ++ (body ++ back))
  rw [trimStart_of_blanks hFront hBody hSome] at hSplit
  exact List.append_cancel_right hSplit

/-! ## A body and its delimiters -/

/-- Plain anchors that join each character of a body to itself, where the body stands at two
places. -/
def bodyAnchors (source output : Nat) (body : List Char) : List Anchor :=
  (List.range body.length).map fun k =>
    .plain (source + byteSize (body.take k)) (output + byteSize (body.take k))

/-- The anchor of two delimiters: a substitution exactly if they differ. -/
def delimiterAnchor (source output : Nat) (old new : Char) : Anchor :=
  if old = new then .plain source output else .substitute source output (some old) (some new)

/-- The anchors of a body between two delimiters on either side. -/
def betweenAnchors (source output : Nat) (opening closing : Char × Char) (body : List Char) :
    List Anchor :=
  delimiterAnchor source output opening.1 opening.2 ::
    (bodyAnchors (source + 1) (output + 1) body ++
      [delimiterAnchor (source + 1 + byteSize body) (output + 1 + byteSize body) closing.1
        closing.2])

theorem anchorEach_eq_bodyAnchors (source output : Nat) (body : List Char) :
    anchorEach source output body = bodyAnchors source output body := by
  have hPlaces := congrArg (List.map fun i => Anchor.plain (source + i) (output + i))
    (map_fst_charOffsetsFrom 0 body)
  simp only [List.map_map, Function.comp_def, Nat.zero_add] at hPlaces
  exact hPlaces

/-- The node is of the given kind, and its text is `piece`. -/
structure Site.Reads (s : Site) (kind : Kind) (piece : List Char) : Prop where
  kind : s.node.kind = kind
  text : s.slice? = some piece

theorem Site.stop_of_slice? {s : Site} {piece : List Char} (h : s.slice? = some piece) :
    s.stop = s.start + byteSize piece :=
  (Text.stop_le_of_slice? h).1.symm

theorem Site.standsAt_of_slice? {s : Site} {piece : List Char} (h : s.slice? = some piece) :
    s.text.StandsAt s.start piece :=
  (Text.slice?_eq_some_iff.mp h).1

/-- A delimiter of one byte, a body and another delimiter, each at its place. -/
theorem Text.StandsAt.delimited {t : Text} {offset : Nat} {opening closing : Char}
    {body : List Char} (h : t.StandsAt offset (opening :: (body ++ [closing])))
    (hOpening : opening.utf8Size = 1) :
    t.charAt? offset = some opening ∧ t.StandsAt (offset + 1) body ∧
      t.charAt? (offset + 1 + byteSize body) = some closing := by
  have hSize : byteSize [opening] = 1 := by
    rw [byteSize, hOpening]
    rfl
  refine ⟨?_, ?_, ?_⟩
  · exact charAt?_eq_some_iff.mpr (h.part [] [opening] (body ++ [closing]))
  · have hBody := h.part [opening] body [closing]
    rw [hSize] at hBody
    exact hBody
  · have hClosing := StandsAt.part (opening :: body) [closing] [] (by simpa using h)
    rw [byteSize, hOpening, ← Nat.add_assoc] at hClosing
    exact charAt?_eq_some_iff.mpr hClosing

namespace Pairing

theorem run_eq_bodyAnchors {p : Pairing} {s o : Nat} {body : List Char}
    (hs : p.source.text.StandsAt s body) (ho : p.output.text.StandsAt o body) :
    p.run s o (byteSize body) = bodyAnchors s o body := by
  have hSlice : ∀ {t : Text} {offset : Nat}, t.StandsAt offset body →
      t.slice? ⟨offset, offset + byteSize body, Nat.le_add_right _ _⟩ = some body := by
    intro t offset h
    apply Text.slice?_eq_some_iff.mpr
    exact ⟨h, (Nat.add_sub_cancel_left _ _).symm⟩
  unfold Pairing.run
  rw [hSlice hs, hSlice ho, ← anchorEach_eq_bodyAnchors]
  exact if_pos rfl

theorem character_eq_delimiterAnchor {p : Pairing} {s o : Nat} {old new : Char}
    (hs : p.source.text.charAt? s = some old) (ho : p.output.text.charAt? o = some new) :
    p.character s o = [delimiterAnchor s o old new] := by
  unfold character delimiterAnchor Site.charAt?
  rw [hs, ho]
  by_cases hSame : old = new
  · simp [hSame]
  · simp [hSame]

end Pairing

/-! ## The rules -/

/-- A single or a double quotation mark. -/
def IsQuotationMark (c : Char) : Prop := c = '"' ∨ c = '\x27'

theorem IsQuotationMark.utf8Size {q : Char} (h : IsQuotationMark q) : q.utf8Size = 1 := by
  rcases h with rfl | rfl <;> rfl

theorem IsQuotationMark.isQuote {q : Char} (h : IsQuotationMark q) : Rule.isQuote q = true := by
  rcases h with rfl | rfl <;> rfl

namespace Rule

variable {p : Pairing} {body : List Char}

theorem delimited_eq_betweenAnchors {s o : Nat} {opening closing : Char × Char}
    (hs : p.source.text.StandsAt s (opening.1 :: (body ++ [closing.1])))
    (ho : p.output.text.StandsAt o (opening.2 :: (body ++ [closing.2])))
    (hSource : opening.1.utf8Size = 1) (hOutput : opening.2.utf8Size = 1) :
    delimited p (s, s + 1 + byteSize body) (o, o + 1 + byteSize body) =
      betweenAnchors s o opening closing body := by
  obtain ⟨hOpening, hBody, hClosing⟩ := hs.delimited hSource
  obtain ⟨hOpening', hBody', hClosing'⟩ := ho.delimited hOutput
  have hRun : ∀ n, n + 1 + byteSize body - n - 1 = byteSize body := by
    intro n
    omega
  have hLengths : s + 1 + byteSize body - s = o + 1 + byteSize body - o := by omega
  unfold delimited betweenAnchors
  simp only [if_pos hLengths, hRun, Pairing.run_eq_bodyAnchors hBody hBody',
    Pairing.character_eq_delimiterAnchor hOpening hOpening',
    Pairing.character_eq_delimiterAnchor hClosing hClosing']
  rfl

/-- The end of a delimited body is the place of its second delimiter and one byte more. -/
theorem stop_eq_of_delimited {s : Site} {opening closing : Char}
    (h : s.slice? = some (opening :: (body ++ [closing]))) (hOpening : opening.utf8Size = 1)
    (hClosing : closing.utf8Size = 1) : s.stop - 1 = s.start + 1 + byteSize body := by
  rw [Site.stop_of_slice? h, byteSize, byteSize_append, byteSize, byteSize, hOpening, hClosing]
  omega

theorem quotes?_of_delimited {s : Site} {opening closing : Char}
    (h : s.slice? = some (opening :: (body ++ [closing]))) (hOpening : IsQuotationMark opening)
    (hClosing : IsQuotationMark closing) :
    quotes? s = some (s.start, s.start + 1 + byteSize body) := by
  obtain ⟨hFirst, -, hLast⟩ := (Site.standsAt_of_slice? h).delimited hOpening.utf8Size
  have hStop := stop_eq_of_delimited h hOpening.utf8Size hClosing.utf8Size
  unfold quotes?
  simp only [hStop]
  rw [if_pos]
  refine ⟨by omega, ?_, ?_⟩
  · rw [Site.charAt?, hFirst]
    exact hOpening.isQuote
  · rw [Site.charAt?, hLast]
    exact hClosing.isQuote

theorem string_of_delimited (options : Options) {opening closing : Char × Char}
    (hSource : p.source.slice? = some (opening.1 :: (body ++ [closing.1])))
    (hOutput : p.output.slice? = some (opening.2 :: (body ++ [closing.2])))
    (hOpening : IsQuotationMark opening.1 ∧ IsQuotationMark opening.2)
    (hClosing : IsQuotationMark closing.1 ∧ IsQuotationMark closing.2)
    (hDiffer : opening.1 ≠ opening.2 ∨ closing.1 ≠ closing.2) :
    string options p = betweenAnchors p.source.start p.output.start opening closing body := by
  have hText : sameText p = false := by
    unfold sameText
    rw [hSource, hOutput]
    apply decide_eq_false
    intro hSame
    obtain ⟨hFirst, hRest⟩ := List.cons.inj hSame
    have hLast := List.append_cancel_left hRest
    rcases hDiffer with hNe | hNe
    · exact hNe hFirst
    · exact hNe (List.cons.inj hLast).1
  unfold string
  rw [hText, quotes?_of_delimited hSource hOpening.1 hClosing.1,
    quotes?_of_delimited hOutput hOpening.2 hClosing.2]
  exact delimited_eq_betweenAnchors (Site.standsAt_of_slice? hSource)
    (Site.standsAt_of_slice? hOutput) hOpening.1.utf8Size hOpening.2.utf8Size

theorem requote_of_delimited {old new : Char}
    (hSource : p.source.slice? = some (old :: (body ++ [old])))
    (hOutput : p.output.slice? = some (new :: (body ++ [new])))
    (hOld : old.utf8Size = 1) (hNew : new.utf8Size = 1) :
    requote p = betweenAnchors p.source.start p.output.start (old, new) (old, new) body := by
  unfold requote
  simp only [stop_eq_of_delimited hSource hOld hOld, stop_eq_of_delimited hOutput hNew hNew]
  rw [if_pos (by omega)]
  exact delimited_eq_betweenAnchors (Site.standsAt_of_slice? hSource)
    (Site.standsAt_of_slice? hOutput) hOld hNew

theorem unquote_of_delimited {q : Char} (hQuote : IsQuotationMark q)
    (hSource : p.source.slice? = some (q :: (body ++ [q])))
    (hOutput : p.output.slice? = some body) :
    unquote p = .substitute p.source.start p.output.start (some q) none ::
      bodyAnchors (p.source.start + 1) p.output.start body := by
  obtain ⟨hFirst, hBody, -⟩ := (Site.standsAt_of_slice? hSource).delimited hQuote.utf8Size
  have hLength : p.output.node.span.length = byteSize body :=
    (Text.slice?_eq_some_iff.mp hOutput).2.symm
  have hFilter : (p.source.charAt? p.source.start).filter isQuote = some q := by
    rw [Site.charAt?, hFirst, Option.filter_some, if_pos hQuote.isQuote]
  unfold unquote
  rw [hFilter, hLength]
  simp only [Pairing.run_eq_bodyAnchors hBody (Site.standsAt_of_slice? hOutput)]

theorem nameToString_of_delimited {q : Char} (hQuote : q.utf8Size = 1)
    (hSource : p.source.slice? = some body)
    (hOutput : p.output.slice? = some (q :: (body ++ [q]))) :
    nameToString p = bodyAnchors p.source.start (p.output.start + 1) body := by
  obtain ⟨-, hBody, -⟩ := (Site.standsAt_of_slice? hOutput).delimited hQuote
  have hLength : p.source.node.span.length = byteSize body :=
    (Text.slice?_eq_some_iff.mp hSource).2.symm
  unfold nameToString
  rw [hLength, Pairing.run_eq_bodyAnchors (Site.standsAt_of_slice? hSource) hBody]

theorem textToString_of_delimited {q : Char} {front back : List Char} (hQuote : q.utf8Size = 1)
    (hFront : ∀ c ∈ front, isBlank c = true) (hBack : ∀ c ∈ back, isBlank c = true)
    (hTrim : trim body = body) (hSome : body ≠ [])
    (hSource : p.source.slice? = some (front ++ (body ++ back)))
    (hOutput : p.output.slice? = some (q :: (body ++ [q]))) :
    textToString p =
      bodyAnchors (p.source.start + byteSize front) (p.output.start + 1) body := by
  obtain ⟨-, hBody, -⟩ := (Site.standsAt_of_slice? hOutput).delimited hQuote
  have hNonempty : ¬ body.isEmpty = true := by
    rw [List.isEmpty_iff]
    exact hSome
  unfold textToString
  rw [hSource]
  simp only [trim_of_blanks hFront hBack hTrim hSome, leadingBlanks_of_blanks hFront hTrim hSome,
    if_neg hNonempty]
  exact Pairing.run_eq_bodyAnchors ((Site.standsAt_of_slice? hSource).part front body back) hBody

end Rule

/-! ## Rewritings that keep a body -/

/-- A node is rewritten in such a way that its body is kept and its delimiters are changed,
and these are the anchors for it. -/
inductive Redelimited (p : Pairing) (body : List Char) : List Anchor → Prop where
  /-- A string becomes a name. -/
  | unquoted {q : Char} (hQuote : IsQuotationMark q)
      (hSource : p.source.Reads .stringLiteral (q :: (body ++ [q])))
      (hOutput : p.output.Reads .identifier body) :
      Redelimited p body (.substitute p.source.start p.output.start (some q) none ::
        bodyAnchors (p.source.start + 1) p.output.start body)
  /-- A template without expressions becomes a string. -/
  | templateToString {q : Char} {t : TemplateLiteral} (hQuote : IsQuotationMark q)
      (hSource : p.source.node.construct = ⟨.templateLiteral, t⟩) (hPlain : t.expressions = [])
      (hText : p.source.slice? = some ('\x60' :: (body ++ ['\x60'])))
      (hOutput : p.output.Reads .stringLiteral (q :: (body ++ [q]))) :
      Redelimited p body
        (betweenAnchors p.source.start p.output.start ('\x60', q) ('\x60', q) body)
  /-- A string changes at least one of its quotes. -/
  | requoted {opening closing : Char × Char}
      (hOpening : IsQuotationMark opening.1 ∧ IsQuotationMark opening.2)
      (hClosing : IsQuotationMark closing.1 ∧ IsQuotationMark closing.2)
      (hDiffer : opening.1 ≠ opening.2 ∨ closing.1 ≠ closing.2)
      (hSource : p.source.Reads .stringLiteral (opening.1 :: (body ++ [closing.1])))
      (hOutput : p.output.Reads .stringLiteral (opening.2 :: (body ++ [closing.2]))) :
      Redelimited p body (betweenAnchors p.source.start p.output.start opening closing body)
  /-- A name of markup becomes a string. -/
  | nameToString {q : Char} (hQuote : IsQuotationMark q)
      (hSource : p.source.Reads .jsxIdentifier body)
      (hOutput : p.output.Reads .stringLiteral (q :: (body ++ [q]))) :
      Redelimited p body (bodyAnchors p.source.start (p.output.start + 1) body)
  /-- Text of markup becomes a string and loses the blanks around it. -/
  | textToString {q : Char} {front back : List Char} (hQuote : IsQuotationMark q)
      (hFront : ∀ c ∈ front, isBlank c = true) (hBack : ∀ c ∈ back, isBlank c = true)
      (hTrim : trim body = body) (hSome : body ≠ [])
      (hSource : p.source.Reads .jsxText (front ++ (body ++ back)))
      (hOutput : p.output.Reads .stringLiteral (q :: (body ++ [q]))) :
      Redelimited p body
        (bodyAnchors (p.source.start + byteSize front) (p.output.start + 1) body)

theorem Site.Reads.exists_construct {s : Site} {kind : Kind} {piece : List Char}
    (h : s.Reads kind piece) : ∃ payload, s.node.construct = ⟨kind, payload⟩ := by
  obtain ⟨rfl, -⟩ := h
  exact ⟨s.node.construct.payload, rfl⟩

namespace Pairing

theorem align_eq_reshape {p : Pairing} {source output : Kind} {s : Payload source}
    {o : Payload output} (hSource : p.source.node.construct = ⟨source, s⟩)
    (hOutput : p.output.node.construct = ⟨output, o⟩) (hKinds : source ≠ output)
    (hPart : output ≠ .program) (options : Options) :
    p.align options = Rule.reshape p ⟨source, s⟩ ⟨output, o⟩ := by
  unfold Pairing.align Rule.outcome
  rw [hSource, hOutput, if_neg hPart, dif_neg hKinds]

theorem align_string {p : Pairing} {s o : TextLiteral}
    (hSource : p.source.node.construct = ⟨.stringLiteral, s⟩)
    (hOutput : p.output.node.construct = ⟨.stringLiteral, o⟩) (options : Options) :
    p.align options = .ofAnchors (Rule.string options p) := by
  unfold Pairing.align
  rw [hSource, hOutput]
  rfl

/-- **Rewritings that change delimiters anchor the whole body.** A string that becomes a name,
a template without expressions or a string that gets other quotes, a name or a text of markup
that becomes a string: the `k`-th character of the body is joined to the `k`-th character of
the body by a plain anchor, the delimiters are joined where both sides have them, and nothing
else is anchored or reported. -/
theorem align_redelimited {p : Pairing} {body : List Char} {anchors : List Anchor}
    (h : Redelimited p body anchors) (options : Options) : p.align options = ⟨anchors, []⟩ := by
  cases h with
  | unquoted hQuote hSource hOutput =>
    obtain ⟨s, hs⟩ := hSource.exists_construct
    obtain ⟨o, ho⟩ := hOutput.exists_construct
    rw [align_eq_reshape hs ho (by decide) (by decide),
      ← Rule.unquote_of_delimited hQuote hSource.text hOutput.text]
    rfl
  | templateToString hQuote hSource hPlain hText hOutput =>
    obtain ⟨o, ho⟩ := hOutput.exists_construct
    rw [align_eq_reshape hSource ho (by decide) (by decide),
      ← Rule.requote_of_delimited hText hOutput.text rfl hQuote.utf8Size]
    simp only [Rule.reshape, hPlain]
    rfl
  | requoted hOpening hClosing hDiffer hSource hOutput =>
    obtain ⟨s, hs⟩ := hSource.exists_construct
    obtain ⟨o, ho⟩ := hOutput.exists_construct
    rw [align_string hs ho, Rule.string_of_delimited options hSource.text hOutput.text hOpening
      hClosing hDiffer]
    rfl
  | nameToString hQuote hSource hOutput =>
    obtain ⟨s, hs⟩ := hSource.exists_construct
    obtain ⟨o, ho⟩ := hOutput.exists_construct
    rw [align_eq_reshape hs ho (by decide) (by decide),
      ← Rule.nameToString_of_delimited hQuote.utf8Size hSource.text hOutput.text]
    rfl
  | textToString hQuote hFront hBack hTrim hSome hSource hOutput =>
    obtain ⟨s, hs⟩ := hSource.exists_construct
    obtain ⟨o, ho⟩ := hOutput.exists_construct
    rw [align_eq_reshape hs ho (by decide) (by decide),
      ← Rule.textToString_of_delimited hQuote.utf8Size hFront hBack hTrim hSome hSource.text
        hOutput.text]
    rfl

/-- A text in which one node stands behind `front` and before `back`. -/
def standing (front piece back : List Char) (construct : Construct) : Site :=
  let node : Node :=
    ⟨⟨byteSize front, byteSize front + byteSize piece, Nat.le_add_right _ _⟩, false, construct⟩
  ⟨⟨front ++ (piece ++ back)⟩, ⟨⟨0⟩, #[node]⟩, node⟩

/-- The key `"né"` becomes `né`, behind a longer text. -/
def unquotedKey : Pairing where
  source := standing "(".toList "\"né\"".toList ")".toList ⟨.stringLiteral, ⟨"né"⟩⟩
  output := standing "ö.".toList "né".toList [] ⟨.identifier, ⟨"né"⟩⟩

/-- Text of markup with a quote in it becomes a string, without the wide blanks around it. -/
def quotedText : Pairing where
  source := standing ">".toList "\u3000a\" é\n".toList "<".toList ⟨.jsxText, ⟨"\u3000a\" é\n"⟩⟩
  output := standing [] "\x27a\" é\x27".toList [] ⟨.stringLiteral, ⟨"a\" é"⟩⟩

theorem align_unquotedKey_quotedText :
    unquotedKey.align .default =
        ⟨[.substitute 1 3 (some '"') none, .plain 2 3, .plain 3 4], []⟩ ∧
      quotedText.align .default = ⟨[.plain 4 1, .plain 5 2, .plain 6 3, .plain 7 4], []⟩ := by
  have hKey : Redelimited unquotedKey "né".toList
      [.substitute 1 3 (some '"') none, .plain 2 3, .plain 3 4] :=
    .unquoted (Or.inl rfl) ⟨rfl, by decide⟩ ⟨rfl, by decide⟩
  have hSource : quotedText.source.Reads .jsxText
      ("\u3000".toList ++ ("a\" é".toList ++ "\n".toList)) := ⟨rfl, by decide⟩
  have hText : Redelimited quotedText "a\" é".toList
      [.plain 4 1, .plain 5 2, .plain 6 3, .plain 7 4] :=
    .textToString (Or.inr rfl) (List.all_eq_true.mp (by decide))
      (List.all_eq_true.mp (by decide)) (by decide) (by decide) hSource ⟨rfl, by decide⟩
  exact ⟨align_redelimited hKey .default, align_redelimited hText .default⟩

end Pairing

end Retrace
