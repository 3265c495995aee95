/-!
# Anchors

An anchor joins one character of the source to one of the output. A plain anchor
joins equal characters. A substitution names the characters it joins; a side
without a character has none of its own there, and the anchor only says where
the other character went.
-/

namespace Retrace

/-- The characters on the two sides of a substitution. -/
structure Substitution where
  sourceChar : Option Char
  outputChar : Option Char
deriving DecidableEq

/-- A point of the source and the point of the output it corresponds to. -/
structure Anchor where
  source : Nat
  output : Nat
  substitution : Option Substitution
deriving DecidableEq

namespace Anchor

/-- An anchor between equal characters. -/
def plain (source output : Nat) : Anchor := ⟨source, output, none⟩

/-- An anchor between characters that differ. -/
def substitute (source output : Nat) (sourceChar outputChar : Option Char) : Anchor :=
  ⟨source, output, some ⟨sourceChar, outputChar⟩⟩

/-- The anchor is a substitution. -/
def isSubstitution (a : Anchor) : Bool := a.substitution.isSome

/-- How far the output lies behind the source. -/
def delta (a : Anchor) : Int := (a.output : Int) - (a.source : Int)

/-- The order of the anchors of a range: by output, then by source. -/
def le (a b : Anchor) : Bool :=
  decide (a.output < b.output) || decide (a.output = b.output) && decide (a.source ≤ b.source)

/-- The output character that a substitution puts in place of another one. -/
def replacement? (a : Anchor) : Option Char :=
  match a.substitution with
  | some ⟨sourceChar, some c⟩ => if sourceChar = some c then none else some c
  | _ => none

end Anchor

end Retrace
