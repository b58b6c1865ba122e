import Portugol.Decimal.Reading

/-! # Whole numbers of 64 bits

Arithmetic is done on unbounded integers and the result is kept only if it fits: `fit?` answers exactly the
word with that value (`fit?_eq_some_iff`), and nothing if there is none. -/
namespace Portugol.Integer

/-- The word of an integer, if it has one. -/
def fit? (n : Int) : Option Int64 :=
  if Int64.minValue.toInt ≤ n ∧ n ≤ Int64.maxValue.toInt then some (Int64.ofInt n) else none

theorem fit?_eq_some_iff {n : Int} {w : Int64} : fit? n = some w ↔ w.toInt = n := by
  constructor
  · intro h
    unfold fit? at h
    split at h
    · next bounds =>
      injection h with h
      exact h ▸ Int64.toInt_ofInt_of_le bounds.1 (Int.lt_add_one_of_le bounds.2)
    · exact absurd h (by simp)
  · rintro rfl
    rw [fit?, if_pos ⟨w.minValue_le_toInt, w.toInt_le⟩, Int64.ofInt_toInt]

/-- The exact sum, difference or product of two words, if it fits. -/
def add? (a b : Int64) : Option Int64 := fit? (a.toInt + b.toInt)
def sub? (a b : Int64) : Option Int64 := fit? (a.toInt - b.toInt)
def mul? (a b : Int64) : Option Int64 := fit? (a.toInt * b.toInt)

/-- The quotient toward zero, if it fits and the divisor is not zero. -/
def div? (a b : Int64) : Option Int64 := if b = 0 then none else fit? (a.toInt.tdiv b.toInt)

/-- The remainder of the quotient toward zero; there is none where there is no quotient. -/
def mod? (a b : Int64) : Option Int64 := (div? a b).bind fun _ => fit? (a.toInt.tmod b.toInt)

def neg? (a : Int64) : Option Int64 := fit? (-a.toInt)

def render (n : Int64) : String := toString n.toInt

/-- A word in decimal digits after an optional sign, taking up the whole text. -/
def read? (text : List Char) : Option Int64 := (Decimal.readInt text).bind fit?

def toReal (n : Int64) : Float := Float.ofInt n.toInt

end Portugol.Integer
