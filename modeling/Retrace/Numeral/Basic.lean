/-!
# Numerals

A numeral of a document is a finite double. It is kept as its 64 bits, so that
equality of numerals is equality of bits: the two zeros differ.
-/

namespace Retrace

/-- The biased exponent of a double given by its bits. -/
def exponentField (bits : UInt64) : Nat := bits.toNat / Nat.pow 2 52 % Nat.pow 2 11

/-- A finite double. -/
@[ext]
structure Numeral where
  bits : UInt64
  finite : exponentField bits ≠ 2047
deriving DecidableEq

namespace Numeral

/-- The numeral of a double, unless it is infinite or not a number. -/
def ofFloat? (x : Float) : Option Numeral :=
  if h : exponentField x.toBits ≠ 2047 then some ⟨x.toBits, h⟩ else none

/-- The double nearest to a natural number, negated on request, so that minus
zero can be asked for. -/
def ofNat? (negative : Bool) (n : Nat) : Option Numeral :=
  let x := Float.ofNat n
  ofFloat? (if negative then -x else x)

/-- The double nearest to an integer. -/
def ofInt? (n : Int) : Option Numeral := ofNat? (decide (n < 0)) n.natAbs

/-- The sign bit is set. -/
def isNegative (x : Numeral) : Bool := decide (Nat.pow 2 63 ≤ x.bits.toNat)

/-- The fraction bits. -/
def fractionField (x : Numeral) : Nat := x.bits.toNat % Nat.pow 2 52

/-- The digit of a hexadecimal numeral. -/
def hexDigit (n : Nat) : Char :=
  if n < 10 then Char.ofNat (48 + n) else Char.ofNat (87 + n)

/-- The lowest `count` hexadecimal digits of a number, highest first. -/
def hexDigits (n : Nat) : Nat → List Char
  | 0 => []
  | count + 1 => hexDigits (n / 16) count ++ [hexDigit (n % 16)]

/-- The bits of a numeral as sixteen hexadecimal digits. -/
def hex (x : Numeral) : String := String.ofList (hexDigits x.bits.toNat 16)

end Numeral

end Retrace
