import Retrace.Proofs.Checked.Function
import Retrace.Proofs.Parentheses
import Retrace.Proofs.Truthful.Rules

/-!
# Checked rules of leaves and of changes of shape

Here lengths that were taken on one side, or from a payload, are added to offsets of
the other side before anything is compared. No text bears these sums out, and they
can lie past the end of both. What bounds them is the room that the two texts leave
below the bound of offsets: a place of one text and the length of a piece of the other
one stay below it together, and so do a place and the length of a pattern or of
flags, where these are short enough.

Differences are taken only between a place and one that has been found to lie before
it.
-/

namespace Retrace

/-! ## Sizes of pieces -/

theorem byteSize_trimEnd_le (cs : List Char) : byteSize (trimEnd cs) ≤ byteSize cs := by
  obtain ⟨blanks, -, hSplit⟩ := exists_trimEnd_append cs
  have hSize := congrArg byteSize hSplit
  rw [byteSize_append] at hSize
  omega

theorem byteSize_leadingBlanks_add (cs : List Char) :
    byteSize (leadingBlanks cs) + byteSize (trimStart cs) = byteSize cs := by
  rw [← byteSize_append, leadingBlanks_append_trimStart]

theorem charOffsetsFrom_eq_map (start : Nat) (piece : List Char) :
    charOffsetsFrom start piece = (charOffsetsFrom 0 piece).map fun (i, c) => (start + i, c) := by
  have hShift : ∀ (piece : List Char) (first : Nat), charOffsetsFrom (start + first) piece =
      (charOffsetsFrom first piece).map fun (i, c) => (start + i, c) := by
    intro piece
    induction piece with
    | nil =>
      intro first
      rfl
    | cons c cs ih =>
      intro first
      rw [charOffsetsFrom, charOffsetsFrom, List.map_cons, Nat.add_assoc, ih]
  exact hShift piece 0

theorem Site.Fits.start_add_length_le {s : Site} (h : s.Fits) :
    s.start + s.node.span.length ≤ s.text.size := by
  have hStop := h.node
  have hOrder := s.node.span.start_le_stop
  have hLength : s.node.span.length = s.node.span.stop - s.node.span.start := rfl
  have hStart : s.start = s.node.span.start := rfl
  omega

namespace Checked

open Lookup

/-- The length of a node as the difference of its ends. -/
theorem nodeLength_eq (s : Site) : sub s.stop s.start = .ok s.node.span.length :=
  length_eq s.node.span

/-! ## Leaves -/

/-- Anchors two nodes of the same text. -/
def identity (options : Options) (p : Pairing) : Checked (List Anchor) := do
  if options.identityLeaves then
    run p p.source.start p.output.start (← number (byteSize (p.source.slice?.getD [])))
  else return []

/-- A token that is anchored as a whole or not at all. -/
def leaf (options : Options) (p : Pairing) : Checked (List Anchor) :=
  if Rule.sameText p then identity options p else return []

/-- The characters of a span with their offsets. -/
def charOffsets (t : Text) (span : Span) : Checked (List (Nat × Char)) :=
  match t.slice? span with
  | some piece => (charOffsetsFrom 0 piece).mapM fun (i, c) => do return (← add span.start i, c)
  | none => return []

/-- Pairs the characters of a source that are no digit separators with those of an
output, in order, and anchors the pairs that agree. -/
def dropSeparators (p : Pairing) : Checked (List Anchor) := do
  let digits := (← charOffsets p.source.text p.source.node.span).filter (·.2 ≠ '_')
  let others ← charOffsets p.output.text p.output.node.span
  return (digits.zip others).filterMap fun ((s, c), (o, d)) =>
    if c = d then some (.plain s o) else none

/-- A number literal, which may lose its digit separators. -/
def numberLiteral (options : Options) (p : Pairing) : Checked (List Anchor) :=
  if Rule.sameText p then identity options p
  else if Rule.hasSeparators p.source && !Rule.hasSeparators p.output then dropSeparators p
  else return []

/-- The text of a node is no longer than the room between its ends, on either side. -/
theorem identity_eq {p : Pairing} (h : p.Fits) (options : Options)
    (hText : Rule.sameText p = true) : identity options p = .ok (Rule.identity options p) := by
  unfold identity Rule.identity
  split_ifs
  · obtain ⟨piece, hPiece, hOther⟩ := Rule.exists_slice_of_sameText hText
    have hSource : p.source.start + byteSize piece = p.source.node.span.stop :=
      (Text.stop_le_of_slice? hPiece).1
    have hOutput : p.output.start + byteSize piece = p.output.node.span.stop :=
      (Text.stop_le_of_slice? hOther).1
    have hSourceStop := h.source
    have hOutputStop := h.output
    have hSizes := h.sizes
    rw [hPiece, Option.getD_some, number_eq (by omega), ok_bind]
    exact run_eq (by omega) (by omega)
  · rfl

@[simp]
theorem leaf_eq {p : Pairing} (h : p.Fits) (options : Options) :
    leaf options p = .ok (Rule.leaf options p) := by
  unfold leaf Rule.leaf
  split_ifs with hText
  · exact identity_eq h options hText
  · rfl

theorem charOffsets_eq {t : Text} (h : t.size < offsetBound) (span : Span) :
    charOffsets t span = .ok (t.charOffsets span) := by
  unfold charOffsets Text.charOffsets
  cases hPiece : t.slice? span with
  | none => rfl
  | some piece =>
    rw [Option.map_some, Option.getD_some, charOffsetsFrom_eq_map]
    refine mapM_eq ?_
    rintro ⟨i, c⟩ hMem
    have hInside := lt_byteSize_of_mem_charOffsetsFrom hMem
    have hStop := Text.stop_le_of_slice? hPiece
    have hSum : span.start + i < offsetBound := by omega
    simp only [add_eq hSum, ok_bind, pure_eq_ok]

@[simp]
theorem numberLiteral_eq {p : Pairing} (h : p.Fits) (options : Options) :
    numberLiteral options p = .ok (Rule.number options p) := by
  have hSource := charOffsets_eq (Nat.lt_of_succ_lt h.sourceSite.size) p.source.node.span
  have hOutput := charOffsets_eq (Nat.lt_of_succ_lt h.outputSite.size) p.output.node.span
  unfold numberLiteral Rule.number
  split_ifs with hText
  · exact identity_eq h options hText
  · simp only [dropSeparators, hSource, hOutput, ok_bind, pure_eq_ok, Rule.dropSeparators]
  · rfl

/-! ## Quotes -/

/-- The place before an offset, if there is one. -/
def placeBefore (offset : Nat) : Lookup Nat :=
  if 1 ≤ offset then known (sub offset 1) else found none

/-- The places of the quotes around a string literal. -/
def quotes (s : Site) : Lookup (Nat × Nat) := do
  let close ← placeBefore s.stop
  found
    (if s.start < close ∧ (s.charAt? s.start).any Rule.isQuote ∧
        (s.charAt? close).any Rule.isQuote then
      some (s.start, close)
    else none)

/-- Anchors two delimiters around a body, and the body if it has the same length on
both sides. -/
def delimited (p : Pairing) (s o : Nat × Nat) : Checked (List Anchor) :=
  .ok (p.character s.1 o.1) ++
    (do
      if (← sub s.2 s.1) = (← sub o.2 o.1) then
        run p (← add s.1 1) (← add o.1 1) (← sub (← sub s.2 s.1) 1)
      else return []) ++
    .ok (p.character s.2 o.2)

/-- A string literal, which may change its quotes. -/
def stringLiteral (options : Options) (p : Pairing) : Checked (List Anchor) :=
  if Rule.sameText p then identity options p
  else do
    match ← (quotes p.source).run, ← (quotes p.output).run with
    | some s, some o => delimited p s o
    | _, _ => return []

/-- A template without expressions that became a quoted string. -/
def requote (p : Pairing) : Checked (List Anchor) := do
  match ← (placeBefore p.source.stop).run, ← (placeBefore p.output.stop).run with
  | some sourceClose, some outputClose =>
    if p.source.start < sourceClose ∧ p.output.start < outputClose then
      delimited p (p.source.start, sourceClose) (p.output.start, outputClose)
    else return []
  | _, _ => return []

@[simp]
theorem placeBefore_eq (offset : Nat) :
    placeBefore offset = found (if 1 ≤ offset then some (offset - 1) else none) := by
  unfold placeBefore
  split_ifs with hSome
  · rw [sub_eq hSome, known_ok]
  · rfl

@[simp]
theorem quotes_eq (s : Site) : quotes s = found (Rule.quotes? s) := by
  unfold quotes Rule.quotes?
  rw [placeBefore_eq, found_bind_found]
  by_cases hStop : 1 ≤ s.stop
  · rw [if_pos hStop, Option.bind_some]
  · have hNone : ¬ s.start < s.stop - 1 := by omega
    rw [if_neg hStop, Option.bind_none]
    simp only [hNone, false_and, if_false]

theorem stop_of_quotes? {s : Site} {delimiters : Nat × Nat}
    (h : Rule.quotes? s = some delimiters) :
    delimiters.1 < delimiters.2 ∧ delimiters.2 < s.stop := by
  unfold Rule.quotes? at h
  dsimp only at h
  split_ifs at h with hQuoted
  cases h
  have hOrder := hQuoted.1
  constructor <;> omega

/-- The second delimiter bounds all that is computed for the body. -/
theorem delimited_eq {p : Pairing} (h : p.Fits) {s o : Nat × Nat} (hs : s.1 < s.2)
    (hsStop : s.2 < p.source.stop) (ho : o.1 < o.2) (hoStop : o.2 < p.output.stop) :
    delimited p s o = .ok (Rule.delimited p s o) := by
  have hSource : p.source.stop ≤ p.source.text.size := h.source
  have hOutput : p.output.stop ≤ p.output.text.size := h.output
  have hSizes := h.sizes
  have hSourceNext : s.1 + 1 < offsetBound := by omega
  have hOutputNext : o.1 + 1 < offsetBound := by omega
  have hSourceLength : s.1 ≤ s.2 := by omega
  have hOutputLength : o.1 ≤ o.2 := by omega
  have hBody : 1 ≤ s.2 - s.1 := by omega
  unfold delimited Rule.delimited
  simp only [sub_eq hSourceLength, sub_eq hOutputLength, ok_bind, add_eq hSourceNext,
    add_eq hOutputNext, sub_eq hBody]
  split_ifs with hSame
  · rw [run_eq (by omega) (by omega), ok_append, ok_append]
  · rfl

@[simp]
theorem stringLiteral_eq {p : Pairing} (h : p.Fits) (options : Options) :
    stringLiteral options p = .ok (Rule.string options p) := by
  unfold stringLiteral Rule.string
  split_ifs with hText
  · exact identity_eq h options hText
  · simp only [quotes_eq, run_found, ok_bind]
    cases hSource : Rule.quotes? p.source with
    | none => rfl
    | some s =>
      cases hOutput : Rule.quotes? p.output with
      | none => rfl
      | some o =>
        obtain ⟨hs, hsStop⟩ := stop_of_quotes? hSource
        obtain ⟨ho, hoStop⟩ := stop_of_quotes? hOutput
        exact delimited_eq h hs hsStop ho hoStop

@[simp]
theorem requote_eq {p : Pairing} (h : p.Fits) : requote p = .ok (Rule.requote p) := by
  unfold requote Rule.requote
  simp only [placeBefore_eq, run_found, ok_bind]
  by_cases hBoth : p.source.start < p.source.stop - 1 ∧ p.output.start < p.output.stop - 1
  · obtain ⟨hSource, hOutput⟩ := hBoth
    have hSourceStop : 1 ≤ p.source.stop := by omega
    have hOutputStop : 1 ≤ p.output.stop := by omega
    simp only [if_pos hSourceStop, if_pos hOutputStop, hSource, hOutput, and_self, if_true]
    exact delimited_eq h hSource (Nat.sub_one_lt (by omega)) hOutput (Nat.sub_one_lt (by omega))
  · simp only [if_neg hBoth]
    split_ifs
    · exact if_neg hBoth
    · rfl
    · rfl
    · rfl

/-! ## Regular expressions and templates -/

/-- The place of the slash that ends the pattern of a regular expression. -/
def patternStop (s : Site) : Lookup Nat := do
  rfind s (← known (add s.start 1)) s.stop "/"

/-- A regular expression: the slashes, then the pattern and the flags if they are
unchanged. -/
def regExp (options : Options) (p : Pairing) (s o : RegExpLiteral) : Checked (List Anchor) :=
  if Rule.sameText p then identity options p
  else
    lead p "/" ++ tokenAt p patternStop "/" ++ do
      match ← (patternStop p.source).run, ← (patternStop p.output).run with
      | some sourceClose, some outputClose =>
        (do
          if s.pattern = o.pattern then
            run p (← add p.source.start 1) (← add p.output.start 1)
              (← number (byteSize s.pattern.toList))
          else return []) ++
        (do
          if s.flags = o.flags ∧ s.flags ≠ "" then
            run p (← add sourceClose 1) (← add outputClose 1)
              (← number (byteSize s.flags.toList))
          else return [])
      | _, _ => return []

/-- A template: the backticks, and the delimiters around each expression. -/
def template (p : Pairing) (s o : TemplateLiteral) : Checked (List Anchor) :=
  lead p "`" ++
    collect (s.expressions.zip o.expressions) (fun (a, b) =>
      Checked.token p (lastBefore p.source a "$\x7b") (lastBefore p.output b "$\x7b") "$\x7b" ++
        Checked.token p (after p.source a "\x7d") (after p.output b "\x7d") "\x7d") ++
    trail p "`"

@[simp]
theorem patternStop_eq {s : Site} (h : s.Fits) :
    patternStop s = found (Rule.patternStop? s) := by
  have hStart := Site.start_le_size h
  have hSize := h.size
  have hNext : s.start + 1 < offsetBound := by omega
  simp only [patternStop, add_eq hNext, known_ok, found_some_bind, rfind_eq h]
  rfl

theorem regExp_eq {p : Pairing} (h : p.Fits) (options : Options) {s : RegExpLiteral}
    (o : RegExpLiteral)
    (hPattern : p.source.text.size + p.output.text.size + byteSize s.pattern.toList + 1 <
      offsetBound)
    (hFlags : p.source.text.size + p.output.text.size + byteSize s.flags.toList + 1 <
      offsetBound) : regExp options p s o = .ok (Rule.regExp options p s o) := by
  unfold regExp Rule.regExp
  by_cases hText : Rule.sameText p = true
  · rw [if_pos hText, if_pos hText]
    exact identity_eq h options hText
  · rw [if_neg hText, if_neg hText]
    simp only [tokenAt, Pairing.places, patternStop_eq h.sourceSite, patternStop_eq h.outputSite,
      run_found, ok_bind, lead_eq h, token_eq h, ok_append]
    cases hSourceClose : Rule.patternStop? p.source with
    | none => rfl
    | some sourceClose =>
      cases hOutputClose : Rule.patternStop? p.output with
      | none => rfl
      | some outputClose =>
        have hSlash : byteSize "/".toList = 1 := rfl
        have hSourceBounds := Site.bounds_of_rfind? hSourceClose
        have hOutputBounds := Site.bounds_of_rfind? hOutputClose
        have hSourceStart := Site.start_le_size h.sourceSite
        have hOutputStart := Site.start_le_size h.outputSite
        have hSourceFirst : p.source.start + 1 < offsetBound := by omega
        have hOutputFirst : p.output.start + 1 < offsetBound := by omega
        have hSourceNext : sourceClose + 1 < offsetBound := by omega
        have hOutputNext : outputClose + 1 < offsetBound := by omega
        have hPatternFits : byteSize s.pattern.toList < offsetBound := by omega
        have hFlagsFit : byteSize s.flags.toList < offsetBound := by omega
        -- the lengths come from the payload, and nothing in the texts bears them out
        have hPatternRun := @run_eq p (p.source.start + 1) (p.output.start + 1)
          (byteSize s.pattern.toList) (by omega) (by omega)
        have hFlagsRun := @run_eq p (sourceClose + 1) (outputClose + 1)
          (byteSize s.flags.toList) (by omega) (by omega)
        simp only [add_eq hSourceFirst, add_eq hOutputFirst, add_eq hSourceNext,
          add_eq hOutputNext, number_eq hPatternFits, number_eq hFlagsFit, ok_bind, hPatternRun,
          hFlagsRun, pure_eq_ok, ite_ok, ok_append]

/-- The room for the pattern is needed. Two patterns that are the same in the payloads
are added up even if they are longer than both texts. -/
theorem regExp_eq_overflow {p : Pairing} (h : p.Fits) (options : Options) {s o : RegExpLiteral}
    {sourceClose outputClose : Nat} (hText : Rule.sameText p = false)
    (hSourceClose : Rule.patternStop? p.source = some sourceClose)
    (hOutputClose : Rule.patternStop? p.output = some outputClose)
    (hPattern : s.pattern = o.pattern)
    (hLong : offsetBound ≤ p.source.start + 1 + byteSize s.pattern.toList) :
    regExp options p s o = .error .overflow := by
  have hSizes := h.sizes
  have hSourceStart := Site.start_le_size h.sourceSite
  have hOutputStart := Site.start_le_size h.outputSite
  have hSourceFirst : p.source.start + 1 < offsetBound := by omega
  have hOutputFirst : p.output.start + 1 < offsetBound := by omega
  have hRun : (number (byteSize s.pattern.toList) >>=
      run p (p.source.start + 1) (p.output.start + 1)) = .error .overflow := by
    by_cases hFits : byteSize s.pattern.toList < offsetBound
    · rw [number_eq hFits, ok_bind, run, add, number, if_neg (by omega)]
      rfl
    · rw [number, if_neg hFits]
      rfl
  unfold regExp
  simp only [hText, Bool.false_eq_true, if_false, tokenAt, patternStop_eq h.sourceSite,
    patternStop_eq h.outputSite, run_found, ok_bind, lead_eq h, token_eq h, ok_append,
    hSourceClose, hOutputClose, if_pos hPattern, add_eq hSourceFirst, add_eq hOutputFirst, hRun]
  rfl

@[simp]
theorem template_eq {p : Pairing} (h : p.Fits) (s o : TemplateLiteral) :
    template p s o = .ok (Rule.template p s o) := by
  unfold template Rule.template
  rw [lead_eq h, trail_eq h, collect_eq (g := fun e =>
    p.token (p.source.lastBefore? e.1 "$\x7b", p.output.lastBefore? e.2 "$\x7b") "$\x7b" ++
      p.token (p.source.after? e.1 "\x7d", p.output.after? e.2 "\x7d") "\x7d"), ok_append,
    ok_append]
  intro e _
  simp [h]

/-! ## Changes of shape -/

/-- The characters before a byte of a piece. -/
def cut (piece : List Char) (n : Nat) : Checked (List Char) :=
  match takeBytes? piece n with
  | some front => .ok front
  | none => .error .outOfRange

/-- An attribute that became a property: its equals sign turns into a colon. -/
def attributeToProperty (p : Pairing) (s : JsxAttribute) (o : ObjectProperty) :
    Checked (List Anchor) := do
  let equals ← OptionT.run do between p.source s.name (← found s.value) "="
  match equals, ← (between p.output o.key o.value ":").run with
  | some equals, some colon => return p.character equals colon
  | _, _ => return []

/-- A name that became a quoted string. -/
def nameToString (p : Pairing) : Checked (List Anchor) := do
  run p p.source.start (← add p.output.start 1) (← sub p.source.stop p.source.start)

/-- A name of markup that became a name. -/
def nameToName (p : Pairing) : Checked (List Anchor) := do
  run p p.source.start p.output.start (← sub p.source.stop p.source.start)

/-- Text of markup that became a quoted string, without the blanks around it. -/
def textToString (p : Pairing) : Checked (List Anchor) :=
  match p.source.slice? with
  | some piece =>
    if (trim piece).isEmpty then return []
    else do
      let blanks ← cut piece (← sub (byteSize piece) (byteSize (trimStart piece)))
      run p (← add p.source.start (← number (byteSize blanks))) (← add p.output.start 1)
        (← number (byteSize (trim piece)))
  | none => return []

/-- A quoted string that became a name. -/
def unquote (p : Pairing) : Checked (List Anchor) :=
  match (p.source.charAt? p.source.start).filter Rule.isQuote with
  | some quote =>
    .ok [.substitute p.source.start p.output.start (some quote) none] ++ do
      run p (← add p.source.start 1) p.output.start (← sub p.output.stop p.output.start)
  | none => return []

theorem cut_leadingBlanks (piece : List Char) :
    cut piece (byteSize (leadingBlanks piece)) = .ok (leadingBlanks piece) := by
  have hTake := takeBytes?_append (leadingBlanks piece) (trimStart piece)
  rw [leadingBlanks_append_trimStart] at hTake
  simp only [cut, hTake]

section

variable {p : Pairing} (h : p.Fits)
include h

@[simp]
theorem attributeToProperty_eq (s : JsxAttribute) (o : ObjectProperty) :
    attributeToProperty p s o = .ok (Rule.attributeToProperty p s o) := by
  unfold attributeToProperty Rule.attributeToProperty
  simp only [between_eq h.sourceSite, between_eq h.outputSite, found_bind_found, run_found,
    ok_bind]
  cases s.value.bind fun value => p.source.between? s.name value "=" <;>
    cases p.output.between? o.key o.value ":" <;> rfl

@[simp]
theorem nameToString_eq : nameToString p = .ok (Rule.nameToString p) := by
  have hSource := h.sourceSite.start_add_length_le
  have hOutput := Site.start_le_size h.outputSite
  have hSizes := h.sizes
  have hNext : p.output.start + 1 < offsetBound := by omega
  rw [nameToString, add_eq hNext, ok_bind, nodeLength_eq, ok_bind]
  exact run_eq (by omega) (by omega)

@[simp]
theorem nameToName_eq : nameToName p = .ok (Rule.nameToName p) := by
  have hSource := h.sourceSite.start_add_length_le
  have hOutput := Site.start_le_size h.outputSite
  have hSizes := h.sizes
  rw [nameToName, nodeLength_eq, ok_bind]
  exact run_eq (by omega) (by omega)

@[simp]
theorem textToString_eq : textToString p = .ok (Rule.textToString p) := by
  unfold textToString Rule.textToString
  cases hPiece : p.source.slice? with
  | none => rfl
  | some piece =>
    dsimp only
    split_ifs
    · rfl
    · have hBlanks := byteSize_leadingBlanks_add piece
      have hTrim : byteSize (trim piece) ≤ byteSize (trimStart piece) := byteSize_trimEnd_le _
      have hStop : p.source.start + byteSize piece = p.source.node.span.stop :=
        (Text.stop_le_of_slice? hPiece).1
      have hSource := h.source
      have hOutput := Site.start_le_size h.outputSite
      have hSizes := h.sizes
      have hCut : byteSize piece - byteSize (trimStart piece) = byteSize (leadingBlanks piece) := by
        omega
      have hLead : byteSize (leadingBlanks piece) < offsetBound := by omega
      have hFirst : p.source.start + byteSize (leadingBlanks piece) < offsetBound := by omega
      have hNext : p.output.start + 1 < offsetBound := by omega
      have hBody : byteSize (trim piece) < offsetBound := by omega
      rw [sub_eq (by omega : byteSize (trimStart piece) ≤ byteSize piece), ok_bind, hCut,
        cut_leadingBlanks, ok_bind, number_eq hLead, ok_bind, add_eq hFirst, ok_bind,
        add_eq hNext, ok_bind, number_eq hBody, ok_bind]
      exact run_eq (by omega) (by omega)

@[simp]
theorem unquote_eq : unquote p = .ok (Rule.unquote p) := by
  unfold unquote Rule.unquote
  cases (p.source.charAt? p.source.start).filter Rule.isQuote with
  | none => rfl
  | some quote =>
    have hSource := Site.start_le_size h.sourceSite
    have hOutput := h.outputSite.start_add_length_le
    have hSizes := h.sizes
    have hNext : p.source.start + 1 < offsetBound := by omega
    have hRun := @run_eq p (p.source.start + 1) p.output.start p.output.node.span.length
      (by omega) (by omega)
    dsimp only
    rw [add_eq hNext, ok_bind, nodeLength_eq, ok_bind, hRun]
    rfl

end

end Checked

end Retrace
