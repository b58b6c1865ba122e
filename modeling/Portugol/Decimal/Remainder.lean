import Portugol.Decimal.Binary

/-! # The remainder of two doubles

The remainder of a division that rounds toward zero. It is computed on whole numbers over one power of two,
so it is exact; it has the sign of the dividend, also when it is zero. -/
namespace Portugol.Decimal
open Binary

/-- The part of `x` that is left after taking `y` out as often as it goes, toward zero. -/
def remainder (x y : Float) : Float :=
  match ofFloat x, ofFloat y with
  | .finite negative a p, .finite _ b q =>
    if b = 0 then 0 / 0
    else
      let least := min p q
      let dividend := a * Nat.pow 2 (p - least).toNat
      let divisor := b * Nat.pow 2 (q - least).toNat
      float negative (dividend % divisor) least
  | .finite .., .infinite _ => x
  | _, _ => 0 / 0

end Portugol.Decimal
