import Schemata.Json.Basic

/-! # Numerals

A numeral is a number as written: digits before and after the point, and an exponent.  Its value is
a whole number if it is written as one and fits into 64 bits, else a double.  The double is formed
from the digits that fit into 64 bits, scaled by a power of ten. -/

namespace Schemata

/-- A number as written. -/
structure Numeral where
  negative : Bool
  /-- The digits before the point. -/
  whole : List Nat
  /-- The digits after the point, none if there is no point. -/
  fraction : List Nat := []
  /-- The digits of the exponent, and whether it is negative. -/
  exponent : Option (Bool × List Nat) := none
  deriving Repr, DecidableEq

namespace Numeral

/-- The largest whole number of 64 bits. -/
def limit : Nat := Nat.pow 2 64 - 1

/-- Appends digits to `n` while the result fits into 64 bits, and says which digits are left. -/
def gather (n : Nat) : List Nat → Nat × List Nat
  | [] => (n, [])
  | d :: rest => if n * 10 + d ≤ limit then gather (n * 10 + d) rest else (n, d :: rest)

/-- The number a list of digits stands for. -/
def ofDigits (digits : List Nat) : Nat := digits.foldl (fun n d => n * 10 + d) 0

/-- Ten to the power of `n`, as a double. -/
def powerOfTen (n : Nat) : Float := Float.ofScientific 1 false n

/-- Multiplies or divides by a power of ten.  There is no result if it would be infinite. -/
def scale (x : Float) (e : Int) : Option Float :=
  if e.natAbs ≤ 308 then
    -- one multiplication or division, so that at most one rounding is added
    if 0 ≤ e then
      let y := x * powerOfTen e.natAbs
      if y.isInf then none else some y
    else some (x / powerOfTen e.natAbs)
  else if x == 0 then some x
  else if 0 ≤ e then none
  else scale (x / powerOfTen 308) (e + 308)
  termination_by e.natAbs
  decreasing_by omega

/-- The value of the exponent. -/
def exponentValue (n : Numeral) : Int :=
  match n.exponent with
  | none => 0
  | some (negative, digits) => if negative then -(ofDigits digits : Int) else ofDigits digits

/-- The value as a double: the digits that fit into 64 bits, scaled. -/
def toDouble? (n : Numeral) : Option Float :=
  let (whole, wholeLeft) := gather 0 n.whole
  let (significand, fractionLeft) := gather whole n.fraction
  -- each digit left before the point counts as a zero, each one left after it not at all
  let taken := n.fraction.length - fractionLeft.length
  let shift : Int := (wholeLeft.length : Int) - taken + n.exponentValue
  (scale (UInt64.ofNat significand).toFloat shift).map fun x => if n.negative then -x else x

/-- The value as a whole number, if it is written as one and fits into 64 bits.  A negative zero is
no whole number. -/
def toInteger? (n : Numeral) : Option Int :=
  if n.fraction.isEmpty && n.exponent.isNone then
    let value := ofDigits n.whole
    if n.negative then if 0 < value && value ≤ Nat.pow 2 63 then some (-(value : Int)) else none
    else if value ≤ limit then some value else none
  else none

/-- The value of a numeral; there is none if it is too large for a double. -/
def value? (n : Numeral) : Option Number :=
  match n.toInteger? with
  | some value => some (.integer value)
  | none => n.toDouble?.map fun x => .double x.toBits

end Numeral

end Schemata
