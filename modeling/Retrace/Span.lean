/-!
# Spans of a text

A position in a text is a byte offset and a span is a half-open stretch of
bytes. The two ends are kept in order by the type, so no function that builds a
span can hand out an inverted one: a pair of offsets of unknown order becomes a
span through `Span.between?` or not at all.

Two spans stand in one of five relations (`Span.relation`). Touching is not
overlapping: spans that only share an end are disjoint, also when one of them
is empty.
-/

namespace Retrace

/-- Offsets and numbers of nodes are below this bound in every document. -/
def offsetBound : Nat := 4294967296

/-- The bytes from `start` up to, but not including, `stop`. -/
@[ext]
structure Span where
  start : Nat
  stop : Nat
  start_le_stop : start ≤ stop
deriving DecidableEq

namespace Span

/-- The span from `start` to `stop`, if the two are in order. -/
def between? (start stop : Nat) : Option Span :=
  if h : start ≤ stop then some ⟨start, stop, h⟩ else none

/-- The number of bytes covered. -/
def length (s : Span) : Nat := s.stop - s.start

/-- The span of a whole text of `size` bytes. -/
def upTo (size : Nat) : Span := ⟨0, size, Nat.zero_le size⟩

/-- The byte at `offset` is covered. -/
def contains (s : Span) (offset : Nat) : Bool :=
  decide (s.start ≤ offset) && decide (offset < s.stop)

/-- A cursor at `offset` is inside or at one of the two ends. -/
def touches (s : Span) (offset : Nat) : Bool :=
  decide (s.start ≤ offset) && decide (offset ≤ s.stop)

/-- Every end of `inner` lies within `outer`. -/
def encloses (outer inner : Span) : Bool :=
  decide (outer.start ≤ inner.start) && decide (inner.stop ≤ outer.stop)

/-- The smallest span that encloses both. -/
def cover (a b : Span) : Span where
  start := min a.start b.start
  stop := max a.stop b.stop
  start_le_stop := by
    have ha := a.start_le_stop
    omega

/-- The smallest span that encloses every span of a list. -/
def hull : List Span → Option Span
  | [] => none
  | s :: rest => some (rest.foldl cover s)

/-- The spelling of a span in messages and reports. -/
def text (s : Span) : String := toString s.start ++ ".." ++ toString s.stop

@[simp]
theorem between?_of_le {start stop : Nat} (h : start ≤ stop) :
    between? start stop = some ⟨start, stop, h⟩ := by
  simp [between?, h]

theorem contains_iff {s : Span} {offset : Nat} :
    s.contains offset ↔ s.start ≤ offset ∧ offset < s.stop := by
  simp [contains]

theorem touches_iff {s : Span} {offset : Nat} :
    s.touches offset ↔ s.start ≤ offset ∧ offset ≤ s.stop := by
  simp [touches]

theorem encloses_iff {outer inner : Span} :
    outer.encloses inner ↔ outer.start ≤ inner.start ∧ inner.stop ≤ outer.stop := by
  simp [encloses]

/-- How two spans lie to each other. -/
inductive Relation where
  | equal
  | disjoint
  | contains
  | within
  | crossing
deriving DecidableEq

/-- The relation of `a` to `b`. Equality is asked first, so that two equal empty
spans are equal and not disjoint. -/
def relation (a b : Span) : Relation :=
  if a = b then .equal
  else if a.stop ≤ b.start ∨ b.stop ≤ a.start then .disjoint
  else if a.encloses b then .contains
  else if b.encloses a then .within
  else .crossing

end Span

/-- Which of the two aligned texts an offset or a span belongs to. -/
inductive Side where
  | source
  | output
deriving DecidableEq

namespace Side

/-- The opposite text. -/
def other : Side → Side
  | .source => .output
  | .output => .source

/-- The name of a side in documents and reports. -/
def name : Side → String
  | .source => "source"
  | .output => "output"

/-- The name of a side at the start of a message. -/
def title : Side → String
  | .source => "Source"
  | .output => "Output"

end Side

end Retrace
