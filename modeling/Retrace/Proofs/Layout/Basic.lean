import Retrace.Proofs.Search
import Retrace.Rule.Dispatch

/-!
# Nodes that are laid out as usual

A node is laid out as usual if its fixed tokens and its children stand one after the other
with nothing but spacing between them. What the texts of the children are does not matter,
because no window in which a token is looked for reaches into a child: it starts where a child
or a token ends. From there on there is spacing up to the token, and a token does not start
with spacing, so the first match is the token itself (`Text.findBetween?_of_spacing`). A search
from the back meets spacing first (`Text.rfindBetween?_of_spacing`).
-/

namespace Retrace

/-- A node without parentheses around it, by its start and its length. -/
def Node.bare (start length : Nat) (construct : Construct) : Node :=
  ⟨⟨start, start + length, Nat.le_add_right start length⟩, false, construct⟩

/-- The characters that may stand between two tokens: blanks, and the mark U+FEFF, which the
language counts as one. -/
def isSpacing (c : Char) : Bool := isBlank c || decide (c = '\uFEFF')

namespace Text

/-- There is nothing but spacing between two offsets. -/
def Spaced (t : Text) (start stop : Nat) : Prop :=
  ((Span.between? start stop).bind t.slice?).any (·.all isSpacing) = true

instance (t : Text) (start stop : Nat) : Decidable (t.Spaced start stop) :=
  inferInstanceAs (Decidable (_ = true))

variable {t : Text} {start stop place : Nat} {token : String} {c : Char} {cs : List Char}

theorem spaced_iff :
    t.Spaced start stop ↔
      ∃ gap, t.StandsAt start gap ∧ start + byteSize gap = stop ∧
        ∀ c ∈ gap, isSpacing c = true := by
  unfold Spaced
  simp only [Option.any_eq_true, Option.bind_eq_some_iff, List.all_eq_true]
  constructor
  · rintro ⟨gap, ⟨window, hWindow, hSlice⟩, hGap⟩
    obtain ⟨rfl, rfl⟩ := Site.between?_eq_some_iff.mp hWindow
    obtain ⟨hStands, hStop⟩ := readable_of_slice? hSlice
    exact ⟨gap, hStands, hStop, hGap⟩
  · rintro ⟨gap, hStands, hStop, hGap⟩
    obtain ⟨window, hWindow, -, hSlice⟩ := slice?_of_piece hStands hStop
    exact ⟨gap, ⟨window, hWindow, hSlice⟩, hGap⟩

theorem Spaced.le (h : t.Spaced start stop) : start ≤ stop := by
  obtain ⟨gap, -, rfl, -⟩ := spaced_iff.mp h
  exact Nat.le_add_right _ _

/-- Both ends of a gap fall between two characters. -/
theorem Spaced.ends (h : t.Spaced start stop) : t.StandsAt start [] ∧ t.StandsAt stop [] := by
  obtain ⟨gap, hGap, rfl, -⟩ := spaced_iff.mp h
  exact ⟨StandsAt.part [] [] gap hGap, hGap.stop⟩

/-! ## Searches -/

/-- A token is found behind a front in which its first character does not occur. -/
theorem findBetween?_of_front {front : List Char} (hFront : t.StandsAt start front)
    (hPlace : start + byteSize front = place) (hToken : t.startsWithAt place token = true)
    (hHead : token.toList = c :: cs) (hFree : c ∉ front) (hStop : t.StandsAt stop [])
    (hInside : place + byteSize token.toList ≤ stop) :
    t.findBetween? start stop token = some place := by
  have hSome : token ≠ "" := by
    rintro rfl
    cases hHead
  refine findBetween?_eq_some_iff.mpr
    ⟨hSome, ?_, ⟨by omega, hInside, startsWithAt_iff.mp hToken⟩, ?_⟩
  · exact exists_piece_between (StandsAt.part [] [] front hFront) hStop (by omega)
  · rintro other ⟨hStart, -, hOther⟩
    by_contra hEarlier
    rw [hHead] at hOther
    exact hFree (hFront.mem_of_lt hOther hStart (by omega))

theorem findBetween?_of_spacing (hGap : t.Spaced start place)
    (hToken : t.startsWithAt place token = true) (hHead : token.toList = c :: cs)
    (hVisible : isSpacing c = false) (hStop : t.StandsAt stop [])
    (hInside : place + byteSize token.toList ≤ stop) :
    t.findBetween? start stop token = some place := by
  obtain ⟨gap, hStands, hPlace, hSpacing⟩ := spaced_iff.mp hGap
  refine findBetween?_of_front hStands hPlace hToken hHead ?_ hStop hInside
  intro hMem
  rw [hSpacing c hMem] at hVisible
  cases hVisible

/-- There is no token in a gap. -/
theorem findBetween?_eq_none_of_spaced (hGap : t.Spaced start stop) (hHead : token.toList = c :: cs)
    (hVisible : isSpacing c = false) : t.findBetween? start stop token = none := by
  obtain ⟨gap, hStands, hStop, hSpacing⟩ := spaced_iff.mp hGap
  by_contra hFound
  obtain ⟨place, hPlace⟩ := Option.ne_none_iff_exists'.mp hFound
  obtain ⟨-, -, ⟨hStart, hInside, hToken⟩, -⟩ := findBetween?_eq_some_iff.mp hPlace
  have hSize := c.utf8Size_pos
  rw [hHead, byteSize] at hInside
  rw [hHead] at hToken
  have hMem := hStands.mem_of_lt hToken hStart (by omega)
  rw [hSpacing c hMem] at hVisible
  cases hVisible

/-- A search from the back finds the token behind which there is only spacing, whatever stands
before it. -/
theorem rfindBetween?_of_spacing (hToken : t.startsWithAt place token = true)
    (hHead : token.toList = c :: cs) (hVisible : isSpacing c = false) (hRest : c ∉ cs)
    (hGap : t.Spaced (place + byteSize token.toList) stop) (hStart : t.StandsAt start [])
    (hOrder : start ≤ place) : t.rfindBetween? start stop token = some place := by
  have hSome : token ≠ "" := by
    rintro rfl
    cases hHead
  have hStop := hGap.le
  rw [startsWithAt_iff] at hToken
  obtain ⟨gap, hStands, hEnd, hSpacing⟩ := spaced_iff.mp hGap
  refine rfindBetween?_eq_some_iff.mpr ⟨hSome, ?_, ⟨hOrder, hStop, hToken⟩, ?_⟩
  · exact exists_piece_between hStart hGap.ends.2 (by omega)
  · rintro other ⟨-, hInside, hOther⟩
    by_contra hLater
    have hSize := c.utf8Size_pos
    have hAll := hToken.append hStands
    rw [hHead] at hAll hOther hEnd hInside
    simp only [byteSize] at hEnd hInside
    have hNext := hAll.next_le hOther (by omega)
    -- A later match starts with a character of the rest of the token or of the gap.
    have hBehind : t.StandsAt (place + c.utf8Size) (cs ++ gap) :=
      StandsAt.part [c] (cs ++ gap) [] (by simpa using hAll)
    have hMem := hBehind.mem_of_lt hOther hNext (by rw [byteSize_append]; omega)
    rcases List.mem_append.mp hMem with hToken' | hGap'
    · exact hRest hToken'
    · rw [hSpacing c hGap'] at hVisible
      cases hVisible

/-! ## Tokens at the ends of a node -/

theorem endsWithAt_of_startsWithAt (h : t.startsWithAt place token = true)
    (hStop : place + byteSize token.toList = stop) : t.endsWithAt stop token = true := by
  obtain ⟨before, after, hText, rfl⟩ := startsWithAt_iff.mp h
  have hBefore : t.before? stop = some (before ++ token.toList) :=
    before?_eq_some_iff.mpr
      ⟨⟨after, by rw [hText, List.append_assoc]⟩, by rw [byteSize_append, hStop]⟩
  unfold endsWithAt
  rw [hBefore, Option.any_some, List.isSuffixOf_iff_suffix]
  exact List.suffix_append before token.toList

end Text

namespace Site

variable {s : Site}

/-- A child without parentheses around it. -/
def Bare (s : Site) (child : NodeId) (span : Span) : Prop :=
  ∃ n, s.tree.node? child = some n ∧ n.parenthesized = false ∧ n.span = span

theorem Bare.outer? {child : NodeId} {span : Span} (h : s.Bare child span) :
    s.outer? child = some span := by
  obtain ⟨n, hNode, hPlain, rfl⟩ := h
  simp [Site.outer?, hNode, hPlain]

theorem Bare.outerStart? {child : NodeId} {span : Span} (h : s.Bare child span) :
    s.outerStart? child = some span.start := by
  rw [Site.outerStart?, h.outer?, Option.map_some]

theorem Bare.outerStop? {child : NodeId} {span : Span} (h : s.Bare child span) :
    s.outerStop? child = some span.stop := by
  rw [Site.outerStop?, h.outer?, Option.map_some]

theorem leading?_of_startsWithAt {token : String} (h : s.text.startsWithAt s.start token = true) :
    s.leading? token = some s.start :=
  if_pos h

theorem trailing?_of_startsWithAt {token : String} {place : Nat}
    (h : s.text.startsWithAt place token = true) (hStop : place + byteSize token.toList = s.stop) :
    s.trailing? token = some place := by
  unfold trailing?
  rw [if_pos (Text.endsWithAt_of_startsWithAt h hStop), ← hStop, Nat.add_sub_cancel]

end Site

namespace Pairing

variable {p : Pairing} {token : String} {s o : Nat}

theorem token_of_startsWithAt (hSource : p.source.text.startsWithAt s token = true)
    (hOutput : p.output.text.startsWithAt o token = true) :
    p.token (some s, some o) token = anchorEach s o token.toList := by
  simp [Pairing.token, hSource, hOutput]

theorem leading_of_startsWithAt
    (hSource : p.source.text.startsWithAt p.source.start token = true)
    (hOutput : p.output.text.startsWithAt p.output.start token = true) :
    p.leading token = anchorEach p.source.start p.output.start token.toList := by
  simp only [leading, places, Site.leading?_of_startsWithAt hSource,
    Site.leading?_of_startsWithAt hOutput, token_of_startsWithAt hSource hOutput]

theorem places_trailing (hSource : p.source.text.startsWithAt s token = true)
    (hOutput : p.output.text.startsWithAt o token = true)
    (hStop : s + byteSize token.toList = p.source.stop)
    (hStop' : o + byteSize token.toList = p.output.stop) :
    p.places (·.trailing? token) = (some s, some o) := by
  simp only [places, Site.trailing?_of_startsWithAt hSource hStop,
    Site.trailing?_of_startsWithAt hOutput hStop']

/-- Two nodes of the same kind are handed to the rule of that kind. -/
theorem align_eq_sameKind {kind : Kind} {source output : Payload kind}
    (hSource : p.source.node.construct = ⟨kind, source⟩)
    (hOutput : p.output.node.construct = ⟨kind, output⟩) (hPart : kind ≠ .program)
    (options : Options) : p.align options = Rule.sameKind options p kind source output := by
  unfold Pairing.align Rule.outcome
  rw [hSource, hOutput, if_neg hPart, dif_pos rfl]

end Pairing

end Retrace
