import Mathlib.Tactic.SplitIfs
import Retrace.Proofs.Checked.Classes
import Retrace.Proofs.Checked.Dispatch
import Retrace.Proofs.Inside
import Retrace.Proofs.Truthful.Alignment

/-!
# Checked alignments

The alignment of a fixture with every step checked, from the walks that link the two
trees to the runs of the classes. Input that was checked beforehand meets no trap, if
the two texts and the longest spelling leave room below the bound of offsets
(`align_eq_ok`).

Two facts about the input carry this. Every node lies in its text, so the rules are
handed pairings that fit. And what the program computes from the texts points into the
texts: parentheses stand where they were found, the opening one before the closing one,
and an anchor that shows a character of the output points at it. Snapshots that run
past the source do no harm, since nothing is ever added to their ends.
-/

namespace Retrace

/-! ## What an input leaves room for -/

/-- The length in bytes of the longest spelling in a tree. -/
def Tree.longestSpelling (t : Tree) : Nat :=
  ((t.nodes.toList.flatMap (·.construct.spellings)).map fun spelling =>
    byteSize spelling.toList).max?.getD 0

/-- The length in bytes of the longest spelling in the trees of a fixture. -/
def Fixture.longestSpelling (f : Fixture) : Nat :=
  max f.sourceTree.longestSpelling f.outputTree.longestSpelling

theorem Tree.byteSize_le_longestSpelling {t : Tree} {id : NodeId} {n : Node}
    (hNode : t.node? id = some n) {spelling : String} (h : spelling ∈ n.construct.spellings) :
    byteSize spelling.toList ≤ t.longestSpelling := by
  have hMem : n ∈ t.nodes.toList := Array.mem_toList_iff.mpr (Array.mem_of_getElem? hNode)
  refine List.le_max?_getD_of_mem (List.mem_map.mpr ⟨spelling, ?_, rfl⟩)
  exact List.mem_flatMap.mpr ⟨n, hMem, h⟩

/-- The trees lie in their texts, and the sizes of the two texts leave room for the
longest spelling of the source and one more byte. -/
structure AlignmentInput.Fits (input : AlignmentInput) : Prop where
  source : input.sourceTree.WellFormed input.source.size
  output : input.outputTree.WellFormed input.output.size
  room : input.source.size + input.output.size + input.sourceTree.longestSpelling + 1 <
    offsetBound

theorem AlignmentInput.Fits.pairing {input : AlignmentInput} (h : input.Fits) {id : NodeId}
    {n : Node} (hNode : input.outputTree.node? id = some n) {link : Link} {p : Pairing}
    (hPairing : Alignment.pairing? input n link = some p) :
    p.Fits ∧ p.Roomy p.source.node.construct := by
  obtain ⟨-, sourceId, s, -, -, hSource, rfl⟩ := Alignment.pairing?_eq_some_iff.mp hPairing
  have hRoom := h.room
  refine ⟨⟨h.source.inside sourceId s hSource, h.output.inside id n hNode, ?_⟩, ?_⟩
  · dsimp only
    omega
  · intro spelling hSpelling
    have hLength := Tree.byteSize_le_longestSpelling hSource hSpelling
    dsimp only
    omega

/-! ## Places that were found -/

theorem byteSize_dropLast_le (cs : List Char) : byteSize cs.dropLast ≤ byteSize cs := by
  rcases List.eq_nil_or_concat cs with rfl | ⟨front, c, rfl⟩
  · exact Nat.le_refl 0
  · rw [List.concat_eq_append, List.dropLast_concat, byteSize_append]
    omega

namespace Text

theorem byteSize_le_of_before? {t : Text} {offset : Nat} {front : List Char}
    (h : t.before? offset = some front) : byteSize front ≤ t.size := by
  obtain ⟨⟨rest, hText⟩, -⟩ := before?_eq_some_iff.mp h
  rw [size, hText, byteSize_append]
  omega

theorem add_byteSize_of_from? {t : Text} {offset : Nat} {rest : List Char}
    (h : t.from? offset = some rest) : offset + byteSize rest = t.size := by
  obtain ⟨before, hText, rfl⟩ := from?_eq_some_iff.mp h
  rw [size, hText, byteSize_append]

theorem bounds_of_wrappingParens? {t : Text} {span : Span} {opening closing : Nat}
    (h : t.wrappingParens? span = some (opening, closing)) :
    opening < span.start ∧ span.stop ≤ closing ∧ closing < t.size := by
  have hClosing := lt_size_of_charAt? (charAt?_of_wrappingParens? h).2
  obtain ⟨front, left, right, back, -, -, hBefore, hFront, -, hRight⟩ := wrappingParens?_spec h
  have hStart := (before?_eq_some_iff.mp hBefore).2
  have hParen := ('(').utf8Size_pos
  rw [byteSize_append] at hStart
  simp only [byteSize] at hStart
  omega

end Text

theorem partitionPointFrom_le {before : Range → Bool} {ranges : List Range} {base size : Nat}
    (h : base + size ≤ ranges.length) :
    partitionPointFrom before ranges base size ≤ ranges.length := by
  fun_induction partitionPointFrom before ranges base size with
  | case1 base size hSize hBefore =>
    obtain ⟨r, hEntry, -⟩ := (Option.any_eq_true _ _).mp hBefore
    exact (List.getElem?_eq_some_iff.mp hEntry).1
  | case2 base size hSize hBefore => omega
  | case3 base size hSize half hBefore ih => exact ih (by omega)
  | case4 base size hSize half hBefore ih => exact ih (by omega)

theorem RangeSet.position_le (s : RangeSet) (r : Range) : s.position r ≤ s.ranges.length :=
  partitionPointFrom_le (by omega)

namespace Checked

open Lookup

/-! ## Bounds of a range -/

/-- The smallest span that encloses every span of a list. -/
def hull : List Span → Lookup Span
  | [] => found none
  | s :: rest => known (rest.foldlM cover s)

/-- The characters from a byte of a piece on. -/
def skip (piece : List Char) (n : Nat) : Checked (List Char) :=
  match dropBytes? piece n with
  | some rest => .ok rest
  | none => .error .outOfRange

/-- The places of the parentheses around a span. -/
def wrappingParens (t : Text) (s : Span) : Lookup (Nat × Nat) := do
  let before ← found (t.before? s.start)
  if (trimEnd before).getLast? = some '(' then
    let after ← found (t.from? s.stop)
    let gap ← known (sub (byteSize after) (byteSize (trimStart after)))
    let rest ← known (skip after gap)
    if rest.head? = some ')' then
      let opening ← known (number (byteSize (trimEnd before).dropLast))
      let gap ← known (number gap)
      return (opening, ← known (add s.stop gap))
    else found none
  else found none

/-- A span with the parentheses at two places taken in. -/
def widen (s : Span) (parens : Nat × Nat) : Checked Span := do
  cover (← span parens.1 (← add parens.2 1)) s

/-- The parentheses around both nodes of a pairing. -/
def parens (options : Options) (p : Pairing) : Checked (Option ((Nat × Nat) × (Nat × Nat))) :=
  if options.parentheses && p.source.node.parenthesized && p.output.node.parenthesized then do
    match ← (wrappingParens p.source.text p.source.node.span).run,
      ← (wrappingParens p.output.text p.output.node.span).run with
    | some source, some output => return some (source, output)
    | _, _ => return none
  else return none

/-- The two spans of the range of an output node, and its anchors before they are
settled. -/
def bounds (options : Options) (hull : Span) (n : Node) (pairing : Option Pairing) :
    Checked (Span × Span × Outcome) :=
  match pairing with
  | none => return (hull, n.span, .ofAnchors [])
  | some p => do
    let outcome ← outcome options p p.source.node.construct p.output.node.construct
    match ← parens options p with
    | none => return (hull, n.span, outcome)
    | some (source, output) =>
      return (← widen hull source, ← widen n.span output,
        { outcome with
          anchors := outcome.anchors ++ [.plain source.1 output.1, .plain source.2 output.2] })

/-- The range of a linked output node, and the problems of its rule. -/
def rangeOf (options : Options) (input : AlignmentInput) (id : NodeId) (n : Node) (link : Link) :
    Lookup (Range × List Problem) := do
  let hull ← hull (link.predecessors.map (·.span))
  let (source, output, outcome) ←
    known (bounds options hull n (Alignment.pairing? input n link))
  let r : Range :=
    { source, output, node := id, outputKind := n.kind
      anchors := Alignment.settle source output outcome.anchors
      predecessors := link.predecessors
      steps := link.steps }
  return (r, outcome.problems)

@[simp]
theorem hull_eq (spans : List Span) : hull spans = found (Span.hull spans) := by
  cases spans with
  | nil => rfl
  | cons s rest =>
    rw [hull, foldlM_eq (fun a b _ => cover_eq a b), known_ok]
    rfl

theorem skip_leadingBlanks (piece : List Char) :
    skip piece (byteSize (leadingBlanks piece)) = .ok (trimStart piece) := by
  have hDrop := dropBytes?_append (leadingBlanks piece) (trimStart piece)
  rw [leadingBlanks_append_trimStart] at hDrop
  simp only [skip, hDrop]

theorem wrappingParens_eq {t : Text} (h : t.size < offsetBound) (s : Span) :
    wrappingParens t s = found (t.wrappingParens? s) := by
  unfold wrappingParens Text.wrappingParens?
  refine found_bind ?_
  intro before hBefore
  by_cases hOpening : (trimEnd before).getLast? = some '('
  · rw [if_pos hOpening]
    refine found_bind ?_
    intro after hAfter
    have hGap := byteSize_leadingBlanks_add after
    have hFront := Text.byteSize_le_of_before? hBefore
    have hBack := Text.add_byteSize_of_from? hAfter
    have hTrimmed := byteSize_trimEnd_le before
    have hDropped := byteSize_dropLast_le (trimEnd before)
    have hSub : byteSize (trimStart after) ≤ byteSize after := by omega
    have hBlanks : byteSize after - byteSize (trimStart after) =
        byteSize (leadingBlanks after) := by
      omega
    rw [sub_eq hSub, hBlanks, known_ok, found_some_bind, skip_leadingBlanks, known_ok,
      found_some_bind]
    by_cases hClosing : (trimStart after).head? = some ')'
    · rw [if_pos hClosing, if_pos ⟨hOpening, hClosing⟩, number_eq (by omega), known_ok,
        found_some_bind, number_eq (by omega), known_ok, found_some_bind, add_eq (by omega),
        known_ok, found_some_bind, pure_eq_found]
    · rw [if_neg hClosing, if_neg fun hBoth => hClosing hBoth.2]
  · rw [if_neg hOpening]
    cases t.from? s.stop <;> simp [hOpening]

theorem widen_eq {s : Span} {parens : Nat × Nat} (hOrder : parens.1 ≤ parens.2)
    (hStop : parens.2 + 1 < offsetBound) : widen s parens = .ok (s.widen parens) := by
  rw [widen, add_eq hStop, ok_bind, span_eq (Nat.le_succ_of_le hOrder), ok_bind, cover_eq]
  rfl

theorem parens_eq {p : Pairing} (h : p.Fits) (options : Options) :
    parens options p = .ok (Alignment.parens? options p) := by
  have hSource := wrappingParens_eq (Nat.lt_of_succ_lt h.sourceSite.size) p.source.node.span
  have hOutput := wrappingParens_eq (Nat.lt_of_succ_lt h.outputSite.size) p.output.node.span
  unfold parens Alignment.parens?
  split_ifs
  · simp only [hSource, hOutput, run_found, ok_bind]
    cases p.source.text.wrappingParens? p.source.node.span <;>
      cases p.output.text.wrappingParens? p.output.node.span <;> rfl
  · rfl

theorem bounds_eq {input : AlignmentInput} (h : input.Fits) {id : NodeId} {n : Node}
    (hNode : input.outputTree.node? id = some n) (options : Options) (hull : Span) (link : Link) :
    bounds options hull n (Alignment.pairing? input n link) =
      .ok (Alignment.bounds options hull n (Alignment.pairing? input n link)) := by
  cases hPairing : Alignment.pairing? input n link with
  | none => rfl
  | some p =>
    obtain ⟨hFits, hRoomy⟩ := h.pairing hNode hPairing
    unfold bounds Alignment.bounds
    dsimp only
    rw [outcome_eq hFits options _ hRoomy, ok_bind, parens_eq hFits, ok_bind]
    cases hParens : Alignment.parens? options p with
    | none => rfl
    | some places =>
      obtain ⟨⟨sourceOpen, sourceClose⟩, ⟨outputOpen, outputClose⟩⟩ := places
      obtain ⟨-, hSource, hOutput⟩ := Alignment.parens?_eq_some_iff.mp hParens
      -- a closing parenthesis is a character of its text, so there is an offset behind it
      have hSourceBounds := Text.bounds_of_wrappingParens? hSource
      have hOutputBounds := Text.bounds_of_wrappingParens? hOutput
      have hSourceOrder := p.source.node.span.start_le_stop
      have hOutputOrder := p.output.node.span.start_le_stop
      have hSizes := hFits.sizes
      have hSourceWiden (s : Span) := @widen_eq s (sourceOpen, sourceClose)
        (by dsimp only; omega) (by dsimp only; omega)
      have hOutputWiden (s : Span) := @widen_eq s (outputOpen, outputClose)
        (by dsimp only; omega) (by dsimp only; omega)
      dsimp only
      rw [hSourceWiden, ok_bind, hOutputWiden, ok_bind]
      rfl

theorem rangeOf_eq {input : AlignmentInput} (h : input.Fits) {id : NodeId} {n : Node}
    (hNode : input.outputTree.node? id = some n) (options : Options) (link : Link) :
    rangeOf options input id n link = found (Alignment.rangeOf? options input id n link) := by
  unfold rangeOf Alignment.rangeOf? Link.hull?
  rw [hull_eq]
  refine found_bind ?_
  intro hull _
  rw [bounds_eq h hNode, known_ok, found_some_bind]
  rfl

/-! ## Whole runs -/

/-- Takes a range into a set, unless there is a conflict. -/
def insert (s : RangeSet) (r : Range) : Checked (Except Conflict RangeSet) :=
  match s.conflict? r with
  | some conflict => return .error conflict
  | none => do return .ok ⟨← insertAt s.ranges (s.position r) r⟩

/-- Takes a range in, or reports its conflict. -/
def splice (options : Options) (progress : Alignment.Progress) (r : Range) :
    Checked Alignment.Progress := do
  match ← insert progress.ranges r with
  | .ok ranges => return { progress with ranges }
  | .error conflict =>
    return { progress with
      diagnostics := progress.diagnostics ++
        (Alignment.report? options r (.ambiguousStructure conflict.message)).toList }

/-- Visits an output node. -/
def visit (options : Options) (input : AlignmentInput) (progress : Alignment.Progress)
    (id : NodeId) : Checked Alignment.Progress :=
  match input.outputTree.node? id, input.provenance.get? id with
  | some n, some link =>
    if link.isSynthesized then
      return { progress with
        synthesized := progress.synthesized ++ [⟨id, n.kind, n.span, link.steps⟩] }
    else do
      match ← (rangeOf options input id n link).run with
      | none => return progress
      | some (r, problems) =>
        splice options
          { progress with
            diagnostics := progress.diagnostics ++ problems.filterMap fun problem =>
              Alignment.report? options r (Alignment.findingOf n link problem) }
          r
  | _, _ => return progress

/-- Visits the nodes of the output tree one after the other. -/
def progress (options : Options) (input : AlignmentInput) : Checked Alignment.Progress := do
  (← preorder input.outputTree).foldlM (visit options input) ⟨.empty, [], []⟩

/-- The alignment of two texts. -/
def alignInput (options : Options) (input : AlignmentInput) : Checked Alignment := do
  let final ← progress options input
  let classes ← classes input.sourceTree input.outputTree input.source.size input.output.size
    final.ranges
  return {
    ranges := final.ranges
    classes
    diagnostics := final.diagnostics
    synthesized := final.synthesized }

/-- The alignment of a fixture. -/
def align (f : Fixture) (options : Options) : Checked Alignment := do
  alignInput options (f.inputWith (← table f))

@[simp]
theorem insert_eq (s : RangeSet) (r : Range) : insert s r = .ok (s.insert r) := by
  unfold insert RangeSet.insert
  cases s.conflict? r with
  | some conflict => rfl
  | none =>
    dsimp only
    rw [insertAt_eq (s.position_le r), ok_bind, pure_eq_ok]

@[simp]
theorem splice_eq (options : Options) (progress : Alignment.Progress) (r : Range) :
    splice options progress r = .ok (progress.splice options r) := by
  unfold splice Alignment.Progress.splice
  rw [insert_eq, ok_bind]
  cases progress.ranges.insert r <;> rfl

theorem visit_eq {input : AlignmentInput} (h : input.Fits) (options : Options)
    (progress : Alignment.Progress) (id : NodeId) :
    visit options input progress id = .ok (progress.visit options input id) := by
  unfold visit Alignment.Progress.visit
  cases hNode : input.outputTree.node? id with
  | none => rfl
  | some n =>
    cases input.provenance.get? id with
    | none => rfl
    | some link =>
      dsimp only
      unfold Alignment.Progress.visitLinked
      split_ifs
      · rfl
      · rw [rangeOf_eq h hNode, run_found, ok_bind]
        cases Alignment.rangeOf? options input id n link with
        | none => rfl
        | some made => exact splice_eq options _ _

theorem progress_eq {input : AlignmentInput} (h : input.Fits) (options : Options) :
    progress options input = .ok (Alignment.progress options input) := by
  rw [progress, preorder_eq, ok_bind]
  exact foldlM_eq (fun before id _ => visit_eq h options before id) _

/-- An anchor that shows a character of the output points at it. -/
theorem add_utf8Size_lt_of_mem_align {input : AlignmentInput} (h : input.Fits) (options : Options)
    {r : Range} (hRange : r ∈ (Alignment.align options input).ranges.ranges) {a : Anchor}
    (hAnchor : a ∈ r.anchors) {c : Char} (hReplaced : a.replacement? = some c) :
    a.output + c.utf8Size < offsetBound := by
  have hChar := Alignment.charAt?_of_mem_align hRange hAnchor hReplaced
  have hInside : a.output + c.utf8Size ≤ input.output.size := by
    simpa [byteSize] using (Text.charAt?_eq_some_iff.mp hChar).add_size_le
  have hRoom := h.room
  omega

theorem alignInput_eq {input : AlignmentInput} (h : input.Fits) (options : Options) :
    alignInput options input = .ok (Alignment.align options input) := by
  have hRoom := h.room
  have hSource : input.source.size < offsetBound := by omega
  have hOutput : input.output.size < offsetBound := by omega
  have hClasses := @classes_eq input.sourceTree input.outputTree _ _
    (Alignment.progress options input).ranges hSource hOutput
    fun r hr a ha c hc => add_utf8Size_lt_of_mem_align h options hr ha hc
  rw [alignInput, progress_eq h, ok_bind, hClasses, ok_bind, pure_eq_ok]
  rfl

/-- **The alignment of checked input meets no trap**, if the sizes of the two texts and
the longest spelling leave room for one more byte. -/
theorem align_eq_ok (f : Fixture) (options : Options) (hValid : f.validate = .ok ())
    (hRoom : (Text.ofString f.source).size + (Text.ofString f.output).size + f.longestSpelling +
      1 < offsetBound) : align f options = .ok (f.align options) := by
  obtain ⟨hSource, hOutput⟩ := Fixture.wellFormed_of_validate hValid
  have hLongest : f.sourceTree.longestSpelling ≤ f.longestSpelling := Nat.le_max_left _ _
  have hFits : (f.inputWith f.table).Fits := by
    refine ⟨hSource, hOutput, ?_⟩
    dsimp only [Fixture.inputWith]
    omega
  rw [align, table_eq, ok_bind]
  exact alignInput_eq hFits options

/-- A statement that consists of a regular expression in parentheses. -/
def patternStatement (stop : Nat) (hStop : 1 ≤ stop) (flags : String) : Tree :=
  ⟨⟨1⟩, #[⟨⟨1, stop, hStop⟩, true, ⟨.regExpLiteral, ⟨"a+", flags⟩⟩⟩,
    ⟨.upTo (stop + 2), false, ⟨.expressionStatement, ⟨⟨0⟩⟩⟩⟩]⟩

/-- A regular expression loses its flags. Its pattern is added up as the payload has
it, and the parentheses widen its range. -/
def droppedFlags : Fixture where
  source := "(/a+/gu);"
  output := "(/a+/);"
  sourceTree := patternStatement 7 (by decide) "gu"
  outputTree := patternStatement 5 (by decide) ""
  provenance := none
  zip := true

theorem zipFrom_droppedFlags :
    Table.zipFrom droppedFlags.sourceTree droppedFlags.outputTree [⟨0⟩, ⟨1⟩] [(⟨1⟩, ⟨1⟩)] =
      [(⟨1⟩, .carried .expressionStatement (.upTo 9) ⟨1⟩),
        (⟨0⟩, .carried .regExpLiteral ⟨1, 7, by decide⟩ ⟨0⟩)] := by
  cbv

theorem align_droppedFlags :
    droppedFlags.validate = .ok () ∧
      (Text.ofString droppedFlags.source).size + (Text.ofString droppedFlags.output).size +
        droppedFlags.longestSpelling + 1 < offsetBound ∧
      align droppedFlags .default = .ok (droppedFlags.align .default) := by
  have hValid : droppedFlags.validate = .ok () := by
    show (((Table.ofList (Table.zipFrom _ _ [⟨0⟩, ⟨1⟩] [(⟨1⟩, ⟨1⟩)])).resolve _).validate
      _ _).mapError FixtureFault.provenance = .ok ()
    rw [zipFrom_droppedFlags]
    rfl
  have hRoom : (Text.ofString droppedFlags.source).size + (Text.ofString droppedFlags.output).size +
      droppedFlags.longestSpelling + 1 < offsetBound := by
    decide
  exact ⟨hValid, hRoom, align_eq_ok droppedFlags .default hValid hRoom⟩

end Checked

end Retrace
