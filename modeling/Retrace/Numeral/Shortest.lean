import Retrace.Numeral.Basic

/-!
# Writing numerals with the fewest digits

A numeral is written with the fewest significant digits that single it out
among the doubles, and of those with the digits nearest to it. The search is
exact: with the double as a fraction and the interval of reals that round to
it, the two neighbours of the double on the grid of `d` digits are tried for
`d = 1, 2, …`, and seventeen digits always suffice.
-/

namespace Retrace

/-- A positive double with the reals that round to it, over one denominator. The
ends belong to the interval exactly if `closed` holds. -/
structure Neighbourhood where
  lower : Nat
  value : Nat
  upper : Nat
  denominator : Nat
  closed : Bool

namespace Neighbourhood

/-- The neighbourhood of a numeral other than zero. Below a power of two the
gap to the next smaller double is half of the gap above. -/
def ofNumeral (x : Numeral) : Neighbourhood :=
  let field := exponentField x.bits
  let fraction := x.fractionField
  let mantissa := if field = 0 then fraction else fraction + Nat.pow 2 52
  let power : Int := (if field = 0 then 1 else (field : Int)) - 1077
  let scale := Nat.pow 2 power.toNat
  let below := if fraction = 0 ∧ 1 < field then 1 else 2
  { lower := (4 * mantissa - below) * scale
    value := 4 * mantissa * scale
    upper := (4 * mantissa + 2) * scale
    denominator := Nat.pow 2 (-power).toNat
    closed := mantissa % 2 = 0 }

/-- The power of ten of the leading digit of the value. -/
def leadingPower (n : Neighbourhood) : Int :=
  let whole := n.value / n.denominator
  if 0 < whole then ((Nat.toDigits 10 whole).length : Int) - 1
  else
    match (List.range 330).find? fun j => n.denominator ≤ n.value * Nat.pow 10 j with
    | some j => -(j : Int)
    | none => -330

/-- The decimal `digits · 10 ^ power` rounds to the value. -/
def admits (n : Neighbourhood) (digits : Nat) (power : Int) : Bool :=
  let up := Nat.pow 10 (-power).toNat
  let point := digits * Nat.pow 10 power.toNat * n.denominator
  if n.closed then decide (n.lower * up ≤ point) && decide (point ≤ n.upper * up)
  else decide (n.lower * up < point) && decide (point < n.upper * up)

/-- The nearer of the two neighbours on the grid of a power of ten, if it rounds
to the value; else the other one, if that does. -/
def onGrid? (n : Neighbourhood) (power : Int) : Option Nat :=
  let numerator := n.value * Nat.pow 10 (-power).toNat
  let unit := n.denominator * Nat.pow 10 power.toNat
  let below := numerator / unit
  let rest := numerator % unit
  let nearer := if 2 * rest < unit ∨ 2 * rest = unit ∧ below % 2 = 0 then below else below + 1
  let farther := if nearer = below then below + 1 else below
  if n.admits nearer power then some nearer
  else if n.admits farther power then some farther
  else none

/-- The shortest digits, as a number and a power of ten. -/
def shortest (n : Neighbourhood) : Nat × Int :=
  let lead := n.leadingPower
  let found := (List.range 17).findSome? fun (d : Nat) =>
    let power := lead - (d : Int)
    (n.onGrid? power).map (·, power)
  found.getD (0, 0)

end Neighbourhood

/-- Drops the zeros at the end of a number into the power of ten. -/
def trimZeros (digits : Nat) (power : Int) : Nat × Int :=
  if h : 0 < digits ∧ digits % 10 = 0 then trimZeros (digits / 10) (power + 1) else (digits, power)
termination_by digits
decreasing_by omega

/-- Puts digits and a power of ten into the notation of documents: positional for
numbers from 1e-5 to below 1e16, always with a point, and scientific with one
digit before the point otherwise. -/
def placePoint (digits : List Char) (power : Int) : List Char :=
  let count := digits.length
  let point : Int := count + power
  if 0 ≤ power ∧ point ≤ 16 then
    digits ++ List.replicate power.toNat '0' ++ ['.', '0']
  else if 0 < point ∧ point ≤ 16 then
    digits.take point.toNat ++ '.' :: digits.drop point.toNat
  else if -5 < point ∧ point ≤ 0 then
    '0' :: '.' :: List.replicate (-point).toNat '0' ++ digits
  else
    let mark := 'e' :: (toString (point - 1)).toList
    if count = 1 then digits ++ mark
    else digits.take 1 ++ '.' :: digits.drop 1 ++ mark

/-- The text of a numeral in documents. -/
def Numeral.render (x : Numeral) : String :=
  let sign := if x.isNegative then ['-'] else []
  let body :=
    if x.bits.toNat % Nat.pow 2 63 = 0 then ['0', '.', '0']
    else
      let (digits, power) := (Neighbourhood.ofNumeral x).shortest
      let (digits, power) := trimZeros digits power
      placePoint (Nat.toDigits 10 digits) power
  String.ofList (sign ++ body)

end Retrace
