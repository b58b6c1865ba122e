import Portugol.Integer
import Portugol.Decimal.Layout

/-! # Values and their types

A value is a whole number, a real number, a truth value or a text; a variable that was declared and not yet
given one holds the undefined value, which has no type. -/
namespace Portugol

inductive DataType where
  | integer
  | real
  | boolean
  | text
deriving DecidableEq, Repr

def DataType.name : DataType → String
  | .integer => "inteiro"
  | .real => "real"
  | .boolean => "booleano"
  | .text => "texto"

inductive Value where
  | undefined
  | integer (n : Int64)
  | real (x : Float)
  | boolean (b : Bool)
  | text (s : String)
deriving DecidableEq

def typeName (t : Option DataType) : String := (t.map DataType.name).getD "indefinido"

namespace Value

/-- The type of a value; the undefined value has none. -/
def type? : Value → Option DataType
  | .undefined => none
  | .integer _ => some .integer
  | .real _ => some .real
  | .boolean _ => some .boolean
  | .text _ => some .text

def number? : Value → Option Float
  | .integer n => some (Integer.toReal n)
  | .real x => some x
  | _ => none

def truthWord (b : Bool) : String := if b then "verdadeiro" else "falso"

def render : Value → String
  | .undefined => "indefinido"
  | .integer n => Integer.render n
  | .real x => Decimal.valueText x
  | .boolean b => truthWord b
  | .text s => s

/-- Equality within one type: no number equals one of the other kind, and real numbers are compared as
numbers, so that zero has one value and what is no number equals nothing. -/
def same : Value → Value → Bool
  | .real x, .real y => x == y
  | a, b => a = b

end Value
end Portugol
