/-! # What a double stands for

A double is no number, an infinity, or a signed mantissa times a power of two. `Binary.ofFloat` reads the
bits; `Binary.float` puts together a double from a mantissa that fits. -/
namespace Portugol.Decimal

/-- A double taken apart; the finite ones are `± mantissa · 2 ^ exponent`. -/
inductive Binary where
  | nan
  | infinite (negative : Bool)
  | finite (negative : Bool) (mantissa : Nat) (exponent : Int)
deriving DecidableEq

namespace Binary

/-- The least exponent, which the numbers next to zero have. -/
def leastExponent : Int := -1074

/-- The parts of a double: one bit of sign, eleven of exponent, fifty-two of mantissa. -/
def ofFloat (x : Float) : Binary :=
  let bits := x.toBits.toNat
  let negative := Nat.pow 2 63 ≤ bits
  let biased : Nat := bits / Nat.pow 2 52 % Nat.pow 2 11
  let fraction := bits % Nat.pow 2 52
  if biased = Nat.pow 2 11 - 1 then if fraction = 0 then .infinite negative else .nan
  else if biased = 0 then .finite negative fraction leastExponent
  else .finite negative (Nat.pow 2 52 + fraction) (leastExponent + biased - 1)

/-- `mantissa · 2 ^ exponent` for a mantissa below `2 ^ 53`, or one whose low bits are zero, and for an
exponent that a double can have. -/
def magnitude (mantissa : Nat) (exponent : Int) : Float :=
  if mantissa = 0 then 0
  else
    let width := (mantissa.log2 : Int) - 52
    let target := max leastExponent (exponent + width)
    let shift := exponent - target
    let scaled := mantissa * Nat.pow 2 shift.toNat / Nat.pow 2 (-shift).toNat
    let biased := if scaled < Nat.pow 2 52 then 0 else (target - leastExponent).toNat + 1
    Float.ofBits (UInt64.ofNat (biased * Nat.pow 2 52 + scaled % Nat.pow 2 52))

/-- The double of a finite value that has one. -/
def float (negative : Bool) (mantissa : Nat) (exponent : Int) : Float :=
  if negative then -magnitude mantissa exponent else magnitude mantissa exponent

def isWhole (mantissa : Nat) (exponent : Int) : Bool := mantissa % Nat.pow 2 (-exponent).toNat = 0

def whole (mantissa : Nat) (exponent : Int) : Nat :=
  mantissa * Nat.pow 2 exponent.toNat / Nat.pow 2 (-exponent).toNat

end Binary
end Portugol.Decimal
