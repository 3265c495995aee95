import Retrace.Span

/-!
# Texts addressed by bytes

A text is a list of characters whose positions are counted in bytes of its
UTF-8 encoding. An offset is addressable when it falls between two characters;
`List.dropBytes?` and `List.takeBytes?` are the two halves of the text at such
an offset, and give nothing for an offset inside a character or past the end.
Everything else on texts is defined from these two.
-/

namespace Retrace

/-- The number of bytes in the UTF-8 encoding of a list of characters. -/
def byteSize : List Char → Nat
  | [] => 0
  | c :: cs => c.utf8Size + byteSize cs

/-- The characters from byte `n` on, if `n` falls between two characters. -/
def dropBytes? : List Char → Nat → Option (List Char)
  | cs, 0 => some cs
  | [], _ + 1 => none
  | c :: cs, n + 1 => if c.utf8Size ≤ n + 1 then dropBytes? cs (n + 1 - c.utf8Size) else none

/-- The characters before byte `n`, if `n` falls between two characters. -/
def takeBytes? : List Char → Nat → Option (List Char)
  | _, 0 => some []
  | [], _ + 1 => none
  | c :: cs, n + 1 =>
    if c.utf8Size ≤ n + 1 then (takeBytes? cs (n + 1 - c.utf8Size)).map (c :: ·) else none

/-- Each character with the byte offset it starts at, counted from `start`. -/
def charOffsetsFrom : Nat → List Char → List (Nat × Char)
  | _, [] => []
  | start, c :: cs => (start, c) :: charOffsetsFrom (start + c.utf8Size) cs

/-- One of the two texts being aligned. -/
structure Text where
  chars : List Char
deriving DecidableEq

namespace Text

/-- The text of a string. -/
def ofString (s : String) : Text := ⟨s.toList⟩

/-- The length in bytes. -/
def size (t : Text) : Nat := byteSize t.chars

/-- The span of the whole text. -/
def full (t : Text) : Span := Span.upTo t.size

/-- What stands before `offset`. -/
def before? (t : Text) (offset : Nat) : Option (List Char) := takeBytes? t.chars offset

/-- What stands from `offset` on. -/
def from? (t : Text) (offset : Nat) : Option (List Char) := dropBytes? t.chars offset

/-- The characters covered by a span. -/
def slice? (t : Text) (span : Span) : Option (List Char) :=
  (t.from? span.start).bind fun rest => takeBytes? rest span.length

/-- The character that starts at `offset`. -/
def charAt? (t : Text) (offset : Nat) : Option Char :=
  (t.from? offset).bind List.head?

/-- The token stands at `offset`. -/
def startsWithAt (t : Text) (offset : Nat) (token : String) : Bool :=
  (t.from? offset).any token.toList.isPrefixOf

/-- The token stands right before `offset`. -/
def endsWithAt (t : Text) (offset : Nat) (token : String) : Bool :=
  (t.before? offset).any token.toList.isSuffixOf

/-- The characters of a span with their offsets; none if the span cannot be
sliced. -/
def charOffsets (t : Text) (span : Span) : List (Nat × Char) :=
  ((t.slice? span).map (charOffsetsFrom span.start)).getD []

end Text

end Retrace
