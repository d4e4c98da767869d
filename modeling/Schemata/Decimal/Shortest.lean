/-! # Shortest decimals

A finite double-precision number is `m · 2 ^ q` for whole `m` and `q`.  All reals that lie nearer to
it than to any other such number are read back as it; `Decimal.shortest` finds a decimal with the
fewest digits among them.  All arithmetic is exact, on whole numbers. -/

namespace Schemata

/-- The decimal `digits · 10 ^ exponent`. -/
structure Decimal where
  digits : Nat
  exponent : Int
  deriving Repr, DecidableEq

namespace Decimal

/-- The reals that are read back as one binary number: from `low` to `high` around `mid`, all in
units of `2 ^ scale`, with the ends if `closed`. -/
structure Interval where
  low : Nat
  mid : Nat
  high : Nat
  scale : Int
  closed : Bool
  deriving Repr, DecidableEq

/-- The interval of a positive finite double with the given fields of its bit pattern.  The gap
below a power of two is half the gap above it, except for the least one. -/
def Interval.ofFields (exponent fraction : Nat) : Interval :=
  let m := if exponent = 0 then fraction else Nat.pow 2 52 + fraction
  let q : Int := (if exponent = 0 then 1 else exponent : Nat) - 1075
  let low := if fraction = 0 && exponent > 1 then 4 * m - 1 else 4 * m - 2
  { low, mid := 4 * m, high := 4 * m + 2, scale := q - 2, closed := m % 2 = 0 }

/-- The numerator and the denominator that a number of units of `2 ^ scale` has to be multiplied
with to count units of `10 ^ k`. -/
def Interval.ratio (i : Interval) (k : Int) : Nat × Nat :=
  (Nat.pow 2 i.scale.toNat * Nat.pow 10 (-k).toNat,
    Nat.pow 2 (-i.scale).toNat * Nat.pow 10 k.toNat)

/-- Whether `n · 10 ^ k` lies in the interval. -/
def Interval.holds (i : Interval) (k : Int) (n : Nat) : Bool :=
  let (p, g) := i.ratio k
  if i.closed then i.low * p ≤ n * g && n * g ≤ i.high * p
  else i.low * p < n * g && n * g < i.high * p

/-- The multiple of `10 ^ k` next to the middle that lies in the interval, the nearer one if both
neighbours do and the even one if both are equally near. -/
def Interval.on? (i : Interval) (k : Int) : Option Nat :=
  let (p, g) := i.ratio k
  -- the two multiples of the grid around the middle
  let n := i.mid * p / g
  let below := i.mid * p - n * g
  let above := (n + 1) * g - i.mid * p
  match i.holds k n, i.holds k (n + 1) with
  | true, true =>
    some (if below < above || (below == above && n % 2 == 0) then n else n + 1)
  | true, false => some n
  | false, true => some (n + 1)
  | false, false => none

/-- The first hit on the grids of `10 ^ k`, `10 ^ (k - 1)`, …, for at most `steps` of them. -/
def Interval.search (i : Interval) : (steps : Nat) → (k : Int) → Option Decimal
  | 0, _ => none
  | steps + 1, k =>
    match i.on? k with
    | some n => some ⟨n, k⟩
    | none => i.search steps (k - 1)

/-- The number of decimal digits of a number. -/
def width (n : Nat) : Nat := (Nat.toDigits 10 n).length

/-- A shortest decimal in the interval.  The first grid is coarser than the number is large, and
seventeen digits always suffice, so twenty grids are enough. -/
def Interval.shortest (i : Interval) : Decimal :=
  let (p, g) := i.ratio 0
  let start : Int := (width (i.mid * p) : Int) - width g + 1
  (i.search 20 start).getD ⟨0, 0⟩

/-- How a decimal is written: positionally while the exponent of its first digit lies from
`lowest` to `highest`, else with a mark and an exponent. -/
structure Style where
  lowest : Int
  highest : Int
  mark : String
  plus : String
  deriving Repr, DecidableEq

/-- The digits of a decimal in the given style, with at least one on each side of the point unless
an exponent follows. -/
def text (style : Style) (d : Decimal) : String :=
  let digits := Nat.toDigits 10 d.digits
  let first : Int := d.exponent + digits.length - 1
  if style.lowest ≤ first && first ≤ style.highest then
    if 0 ≤ d.exponent then
      String.ofList (digits ++ List.replicate d.exponent.toNat '0') ++ ".0"
    else if 0 ≤ first then
      let whole := (first + 1).toNat
      String.ofList (digits.take whole) ++ "." ++ String.ofList (digits.drop whole)
    else "0." ++ String.ofList (List.replicate (-first - 1).toNat '0' ++ digits)
  else
    let rest := if digits.length = 1 then "" else "." ++ String.ofList (digits.drop 1)
    let sign := if first < 0 then "-" else style.plus
    String.ofList (digits.take 1) ++ rest ++ style.mark ++ sign ++ toString first.natAbs

/-- The text of the finite double with the given bit pattern. -/
def textOfBits (style : Style) (bits : UInt64) : String :=
  let n := bits.toNat
  let sign := if n / Nat.pow 2 63 = 0 then "" else "-"
  let exponent := n / Nat.pow 2 52 % Nat.pow 2 11
  let fraction := n % Nat.pow 2 52
  if exponent = 0 && fraction = 0 then sign ++ "0.0"
  else sign ++ text style (Interval.ofFields exponent fraction).shortest

end Decimal

end Schemata
