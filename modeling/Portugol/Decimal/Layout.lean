import Portugol.Decimal.Shortest

/-! # The texts of a double

Three ways to write a double, all in full precision. `plain` writes the shortest digits around the point,
however long that gets. `valueText` does so for numbers with a fraction and writes whole numbers out exactly, with
one zero after the point. `exactText` turns to powers of ten for very great and very small numbers. -/
namespace Portugol.Decimal

/-- `d · 10 ^ k` without an exponent: zeros fill the places up to the point. -/
def positional (d : Nat) (k : Int) : List Char :=
  let digits := Nat.toDigits 10 d
  if 0 ≤ k then digits ++ List.replicate k.toNat '0'
  else
    let places := (-k).toNat
    let padded := List.replicate (places + 1 - digits.length) '0' ++ digits
    padded.take (padded.length - places) ++ '.' :: padded.drop (padded.length - places)

/-- `d · 10 ^ k` with one digit before the point and a power of ten. -/
def scientific (d : Nat) (k : Int) : List Char :=
  let digits := Nat.toDigits 10 d
  let fraction := if digits.length ≤ 1 then [] else '.' :: digits.drop 1
  digits.take 1 ++ fraction ++ 'e' :: (toString (k + digits.length - 1)).toList

def signed (negative : Bool) (text : List Char) : String :=
  String.ofList (if negative then '-' :: text else text)

/-- The shortest digits of `m · 2 ^ q` around the point. -/
def shortestPositional (m : Nat) (q : Int) : List Char :=
  if m = 0 then ['0'] else (fun (d, k) => positional d k) (shortest m q)

private def notFinite (negative : Bool) : String := signed negative "inf".toList

/-- The shortest digits, around the point. -/
def plain (x : Float) : String :=
  match Binary.ofFloat x with
  | .nan => "NaN"
  | .infinite negative => notFinite negative
  | .finite negative m q => signed negative (shortestPositional m q)

/-- Whole numbers exactly and with a zero after the point, others by their shortest digits. -/
def valueText (x : Float) : String :=
  match Binary.ofFloat x with
  | .nan => "NaN"
  | .infinite negative => notFinite negative
  | .finite negative m q =>
    if Binary.isWhole m q then signed negative (Nat.toDigits 10 (Binary.whole m q) ++ ['.', '0'])
    else signed negative (shortestPositional m q)

/-- Whether `d · 10 ^ k` is written with a power of ten: from `10 ^ 16` on, and below `10 ^ -4`. -/
def needsPower (d : Nat) (k : Int) : Bool :=
  let leading := k + (Nat.toDigits 10 d).length - 1
  16 ≤ leading || leading < -4

/-- The shortest digits, with a point in every number that has no power of ten. -/
def exactText (x : Float) : String :=
  match Binary.ofFloat x with
  | .nan => "NaN"
  | .infinite negative => notFinite negative
  | .finite negative 0 _ => signed negative "0.0".toList
  | .finite negative m q =>
    let (d, k) := shortest m q
    signed negative <|
      if needsPower d k then scientific d k
      else if 0 ≤ k then positional d k ++ ['.', '0']
      else positional d k

end Portugol.Decimal
