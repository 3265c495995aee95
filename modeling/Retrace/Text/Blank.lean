import Retrace.Text.Basic

/-!
# Blank characters

The characters with the Unicode property White_Space, and the trimming of them
at either end of a piece of text.
-/

namespace Retrace

/-- The code points that are blank, as closed ranges in increasing order. -/
def blankRanges : List (Nat × Nat) :=
  [(0x9, 0xd), (0x20, 0x20), (0x85, 0x85), (0xa0, 0xa0), (0x1680, 0x1680), (0x2000, 0x200a),
    (0x2028, 0x2029), (0x202f, 0x202f), (0x205f, 0x205f), (0x3000, 0x3000)]

/-- The character is blank. -/
def isBlank (c : Char) : Bool :=
  blankRanges.any fun (first, last) => decide (first ≤ c.toNat) && decide (c.toNat ≤ last)

/-- The piece without the blanks it starts with. -/
def trimStart (cs : List Char) : List Char := cs.dropWhile isBlank

/-- The piece without the blanks it ends with. -/
def trimEnd (cs : List Char) : List Char := (cs.reverse.dropWhile isBlank).reverse

/-- The piece without the blanks at either end. -/
def trim (cs : List Char) : List Char := trimEnd (trimStart cs)

/-- The blanks a piece starts with. -/
def leadingBlanks (cs : List Char) : List Char := cs.takeWhile isBlank

theorem leadingBlanks_append_trimStart (cs : List Char) :
    leadingBlanks cs ++ trimStart cs = cs :=
  List.takeWhile_append_dropWhile

end Retrace
