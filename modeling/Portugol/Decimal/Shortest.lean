import Portugol.Decimal.Binary

/-! # The fewest digits that read back

Every real number near a double is rounded to it; they form an interval, whose ends belong to it when the
mantissa is even. `shortest` finds the coarsest decimal grid that has a point in the interval, and on that
grid the point nearest to the double, the greater one of two that are equally near. A grid with a point in the
interval has one next to the double, so on each grid only two points are looked at. -/
namespace Portugol.Decimal

/-- The numbers that round to a double: from `low` to `high` around `value`, all three over `unit`. -/
structure Interval where
  low : Nat
  value : Nat
  high : Nat
  unit : Nat
  closed : Bool

namespace Interval

/-- The interval around `mantissa · 2 ^ exponent`. It reaches half way to the next double on either side,
and the doubles below a power of two lie twice as close. -/
def around (mantissa : Nat) (exponent : Int) : Interval :=
  let below := if mantissa = Nat.pow 2 52 && Binary.leastExponent < exponent then 1 else 2
  let scale := exponent - 2
  let up := Nat.pow 2 scale.toNat
  { low := (4 * mantissa - below) * up
    value := 4 * mantissa * up
    high := (4 * mantissa + 2) * up
    unit := Nat.pow 2 (-scale).toNat
    closed := mantissa % 2 = 0 }

/-- A number over `unit`, stretched so that it compares with the points of the grid of step `10 ^ k`. -/
def stretch (k : Int) (n : Nat) : Nat := n * Nat.pow 10 (-k).toNat

/-- The grid point `d · 10 ^ k`, on the scale of `stretch k`. -/
def point (i : Interval) (k : Int) (d : Nat) : Nat := d * Nat.pow 10 k.toNat * i.unit

def contains (i : Interval) (k : Int) (d : Nat) : Bool :=
  if i.closed then stretch k i.low ≤ i.point k d && i.point k d ≤ stretch k i.high
  else stretch k i.low < i.point k d && i.point k d < stretch k i.high

/-- The greatest `d` with `d · 10 ^ k` not above the value. -/
def floor (i : Interval) (k : Int) : Nat := stretch k i.value / (Nat.pow 10 k.toNat * i.unit)

/-- The `p` with `10 ^ p ≤ value < 10 ^ (p + 1)`, for a value above zero. -/
def magnitude (i : Interval) : Int :=
  if i.unit ≤ i.value then (Nat.toDigits 10 (i.value / i.unit)).length - 1
  else -(Nat.toDigits 10 ((i.unit - 1) / i.value)).length

/-- The point of the grid of step `10 ^ k` that lies in the interval and is nearest to the value. -/
def nearest? (i : Interval) (k : Int) : Option Nat :=
  let d := i.floor k
  match i.contains k d, i.contains k (d + 1) with
  | true, true =>
    if stretch k i.value - i.point k d < i.point k (d + 1) - stretch k i.value then some d else some (d + 1)
  | true, false => some d
  | false, true => some (d + 1)
  | false, false => none

end Interval

/-- A coefficient and an exponent `(d, k)` for `mantissa · 2 ^ exponent`, which is above zero: `d · 10 ^ k`
has the fewest digits that read back, and its last digit is not zero. -/
def shortest (mantissa : Nat) (exponent : Int) : Nat × Int :=
  let i := Interval.around mantissa exponent
  let p := i.magnitude
  let found := (List.range 17).findSome? fun (n : Nat) =>
    let k := p - n
    (i.nearest? k).map fun d => if d = Nat.pow 10 (n + 1) then (1, p + 1) else (d, k)
  found.getD (i.floor (p - 16), p - 16)

end Portugol.Decimal
