import Retrace.Text.Basic

/-!
# Bounded search

A search looks for a token inside a window and answers with an offset of the
whole text. An empty token is never found, nor is anything in a window that
does not start and end between two characters of the text.
-/

namespace Retrace

/-- The byte offset of the first occurrence of `needle`. -/
def firstMatch? (needle : List Char) : List Char → Option Nat
  | [] => none
  | c :: cs =>
    if needle.isPrefixOf (c :: cs) then some 0
    else (firstMatch? needle cs).map (· + c.utf8Size)

/-- The byte offset of the last occurrence of `needle`. -/
def lastMatch? (needle : List Char) : List Char → Option Nat
  | [] => none
  | c :: cs =>
    match lastMatch? needle cs with
    | some offset => some (offset + c.utf8Size)
    | none => if needle.isPrefixOf (c :: cs) then some 0 else none

namespace Text

/-- The first place inside `window` where the whole of `token` stands. -/
def find? (t : Text) (window : Span) (token : String) : Option Nat :=
  if token.isEmpty then none
  else (t.slice? window).bind fun hay =>
    (firstMatch? token.toList hay).map (window.start + ·)

/-- The last place inside `window` where the whole of `token` stands. -/
def rfind? (t : Text) (window : Span) (token : String) : Option Nat :=
  if token.isEmpty then none
  else (t.slice? window).bind fun hay =>
    (lastMatch? token.toList hay).map (window.start + ·)

/-- `find?` between two offsets; nothing if they are out of order. -/
def findBetween? (t : Text) (start stop : Nat) (token : String) : Option Nat :=
  (Span.between? start stop).bind (t.find? · token)

/-- `rfind?` between two offsets; nothing if they are out of order. -/
def rfindBetween? (t : Text) (start stop : Nat) (token : String) : Option Nat :=
  (Span.between? start stop).bind (t.rfind? · token)

end Text

end Retrace
