import Retrace.Numeral.Basic

/-!
# Reading decimals

A decimal is read into a significand of at most 64 bits and a power of ten.
Digits of the integer part that no longer fit only raise the exponent, those of
the fraction are dropped. The two parts are then joined by a single rounded
multiplication or division, so a decimal of at most fifteen digits with a
small exponent is read as the nearest double, and any other within a unit or
so in the last place.
-/

namespace Retrace

/-- A significand and the power of ten it is multiplied by. -/
structure Decimal where
  negative : Bool
  significand : Nat
  exponent : Int
deriving DecidableEq

namespace Decimal

/-- Appends the digits of the integer part as long as 64 bits hold them. The
second component counts the digits left out. -/
def pushInteger : Nat → List Nat → Nat × Nat
  | m, [] => (m, 0)
  | m, d :: ds =>
    if m * 10 + d < Nat.pow 2 64 then pushInteger (m * 10 + d) ds else (m, ds.length + 1)

/-- Appends the digits of the fraction as long as 64 bits hold them. The second
component counts the digits taken. -/
def pushFraction : Nat → List Nat → Nat × Nat
  | m, [] => (m, 0)
  | m, d :: ds =>
    if m * 10 + d < Nat.pow 2 64 then
      let (significand, taken) := pushFraction (m * 10 + d) ds
      (significand, taken + 1)
    else (m, 0)

/-- The decimal with the given digits before and after the point and the given
power of ten. -/
def ofDigits (negative : Bool) (integer fraction : List Nat) (power : Int) : Decimal :=
  let (whole, dropped) := pushInteger 0 integer
  let (significand, taken) := pushFraction whole fraction
  { negative, significand, exponent := dropped - taken + power }

/-- The double nearest to ten to the power of `n`. -/
def tenPow (n : Nat) : Float := Float.ofScientific 1 false n

/-- Divides by a power of ten, in steps of 308 if one step would not do. -/
def scaleDown (x : Float) (n : Nat) : Float :=
  if n ≤ 308 then x / tenPow n
  else if x == 0 then x
  else scaleDown (x / tenPow 308) (n - 308)
termination_by n

/-- Multiplies by a power of ten; nothing if the result is too large for a
double. -/
def scaleUp? (x : Float) (n : Nat) : Option Float :=
  if n ≤ 308 then
    let y := x * tenPow n
    if y.isInf then none else some y
  else if x == 0 then some x
  else none

/-- The numeral that a decimal is read as. -/
def toNumeral? (d : Decimal) : Option Numeral := do
  let x := Float.ofNat d.significand
  let magnitude ←
    if d.exponent < 0 then some (scaleDown x d.exponent.natAbs)
    else scaleUp? x d.exponent.natAbs
  Numeral.ofFloat? (if d.negative then -magnitude else magnitude)

end Decimal

end Retrace
