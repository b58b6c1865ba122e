/-! # Reading a real number

A real number is written with an optional sign, digits with at most one point among or beside them, and an
optional power of ten; or it is one of the words for infinity and for no number, in letters of either case.
The text is used up whole. The nearest double is the answer, of two that are equally near the even one. -/
namespace Portugol.Decimal

def takeSign : List Char → Bool × List Char
  | '+' :: rest => (false, rest)
  | '-' :: rest => (true, rest)
  | text => (false, text)

/-- A whole number of one digit or more. -/
def readNat (text : List Char) : Option Nat :=
  if text ≠ [] ∧ text.all Char.isDigit then some (Nat.ofDigitChars 10 text 0) else none

def readInt (text : List Char) : Option Int :=
  let (negative, digits) := takeSign text
  (readNat digits).map fun n => if negative then -(n : Int) else n

/-- What may follow the digits: nothing, or the letter `e` and a whole number. -/
def readPower : List Char → Option Int
  | [] => some 0
  | c :: rest => if c = 'e' || c = 'E' then readInt rest else none

/-- The double nearest to `coefficient · 10 ^ exponent`. -/
def nearest (coefficient : Nat) (exponent : Int) : Float :=
  Float.ofScientific coefficient (exponent < 0) exponent.natAbs

def readMagnitude (text : List Char) : Option Float :=
  let word := text.map Char.toLower
  if word = "inf".toList || word = "infinity".toList then some (1 / 0)
  else if word = "nan".toList then some (0 / 0)
  else
    let before := text.takeWhile Char.isDigit
    let rest := text.dropWhile Char.isDigit
    let point := rest.head? = some '.'
    let fraction := if point then rest.tail.takeWhile Char.isDigit else []
    let rest := if point then rest.tail.dropWhile Char.isDigit else rest
    if before = [] && fraction = [] then none
    else (readPower rest).map fun power =>
      nearest (Nat.ofDigitChars 10 (before ++ fraction) 0) (power - fraction.length)

/-- A real number that takes up the whole text. -/
def readReal (text : List Char) : Option Float :=
  let (negative, text) := takeSign text
  (readMagnitude text).map fun x => if negative then -x else x

end Portugol.Decimal
