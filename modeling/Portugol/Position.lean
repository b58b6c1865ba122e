/-! # Positions in a text

A position is a line and a column, both counted from one; a column is one character wide whatever the
character is. `Position.after` reads a text from a position on, and does so piece by piece: after `a`
followed by `b` one stands where one stands after `b` when one starts after `a` (`after_append`). Reading on
never moves a position backwards (`le_after`), and any text that is not empty moves it (`lt_after`). -/
namespace Portugol

/-- A line and a column, both counted from one. -/
structure Position where
  line : Nat
  column : Nat
deriving DecidableEq, Inhabited, Repr

namespace Position

def start : Position := ⟨1, 1⟩

/-- The position after one character: a line feed starts a new line. -/
def step (p : Position) (c : Char) : Position :=
  if c = '\n' then ⟨p.line + 1, 1⟩ else ⟨p.line, p.column + 1⟩

/-- The position after a text that starts at `p`. -/
def after (p : Position) (text : List Char) : Position := text.foldl step p

@[simp] theorem after_nil (p : Position) : p.after [] = p := rfl

@[simp] theorem after_cons (p : Position) (c : Char) (text : List Char) :
    p.after (c :: text) = (p.step c).after text := rfl

theorem after_append (p : Position) (a b : List Char) : p.after (a ++ b) = (p.after a).after b := by
  simp [after, List.foldl_append]

/-- Earlier or the same: the lines decide, then the columns. -/
def le (p q : Position) : Bool := p.line < q.line || (p.line = q.line && p.column ≤ q.column)

instance : LE Position := ⟨fun p q => p.le q⟩
instance : LT Position := ⟨fun p q => p.line < q.line ∨ (p.line = q.line ∧ p.column < q.column)⟩

theorem le_def {p q : Position} : p ≤ q ↔ p.line < q.line ∨ (p.line = q.line ∧ p.column ≤ q.column) := by
  change p.le q = true ↔ _
  simp [le]

theorem lt_def {p q : Position} : p < q ↔ p.line < q.line ∨ (p.line = q.line ∧ p.column < q.column) := Iff.rfl

theorem le_rfl {p : Position} : p ≤ p := le_def.2 (by omega)

theorem le_trans {p q r : Position} (h : p ≤ q) (h' : q ≤ r) : p ≤ r := by
  rw [le_def] at *
  omega

theorem lt_of_lt_of_le {p q r : Position} (h : p < q) (h' : q ≤ r) : p < r := by
  rw [lt_def] at *
  rw [le_def] at h'
  omega

theorem le_of_lt {p q : Position} (h : p < q) : p ≤ q := by
  rw [lt_def] at h
  rw [le_def]
  omega

theorem lt_step (p : Position) (c : Char) : p < p.step c := by
  rw [lt_def, step]
  split <;> simp

theorem le_after (p : Position) (text : List Char) : p ≤ p.after text := by
  induction text generalizing p with
  | nil => exact le_rfl
  | cons c text ih => exact le_trans (le_of_lt (lt_step p c)) (ih _)

theorem lt_after (p : Position) {text : List Char} (h : text ≠ []) : p < p.after text := by
  cases text with
  | nil => exact absurd rfl h
  | cons c text => exact lt_of_lt_of_le (lt_step p c) (le_after _ text)

def describe (p : Position) : String := s!"line {p.line}, column {p.column}"

end Position
end Portugol
