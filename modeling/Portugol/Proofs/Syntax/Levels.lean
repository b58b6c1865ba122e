import Mathlib.Data.List.Induction
import Portugol.Syntax.Expression

/-! # Levels and nesting of expressions

The levels of the operators are numbered from the loosest to the tightest; whatever is not joined by an operator
is tighter than all of them. In an expression that keeps the levels no operator stands under a tighter one
without parentheses between them, and operators of one level lean to the left.

The cost of an expression is the nesting that reading it takes: one for every group and every unary operator
around a leaf, and one for every link of a chain before it. -/
namespace Portugol

/-- The levels in order; the tightest is below `Expr.tightest`. -/
def Level.rank : Level → Nat
  | .logic => 0
  | .comparison => 1
  | .sum => 2
  | .term => 3

namespace Expr

/-- How tight everything is that is not joined by an operator. -/
def tightest : Nat := 4

/-- How tight an expression is: as its outermost operator, if it has one. -/
def tightness : Expr → Nat
  | .binary _ op _ _ => op.level.rank
  | .literal .. | .name .. | .group _ | .unary .. => tightest

/-- Every left operand is at least as tight as its operator, every right operand tighter, and every operand of a
unary operator is as tight as can be. -/
def Leveled : Expr → Prop
  | .literal .. | .name .. => True
  | .group inner => inner.Leveled
  | .unary _ operand _ => operand.tightness = tightest ∧ operand.Leveled
  | .binary lhs op rhs _ =>
    op.level.rank ≤ lhs.tightness ∧ op.level.rank < rhs.tightness ∧ lhs.Leveled ∧ rhs.Leveled

/-- The number of operators in the chain of a level that an expression is; none if it is an operand of that level. -/
def links (level : Level) : Expr → Nat
  | .binary lhs op _ _ => if op.level = level then lhs.links level + 1 else 0
  | .literal .. | .name .. | .group _ | .unary .. => 0

/-- The nesting that an expression takes. In a chain of operands the first counts as it is and the one behind
the `i`-th operator counts `i` more. -/
def cost : Expr → Nat
  | .literal .. | .name .. => 0
  | .group inner => inner.cost + 1
  | .unary _ operand _ => operand.cost + 1
  | .binary lhs op rhs _ => max lhs.cost (lhs.links op.level + 1 + rhs.cost)

end Expr

theorem Level.rank_lt_tightest (level : Level) : level.rank < Expr.tightest := by
  cases level <;> decide

theorem Level.rank_injective {a b : Level} (h : a.rank = b.rank) : a = b := by
  cases a <;> cases b <;> first | rfl | exact absurd h (by decide)

namespace Expr

theorem tightness_le_tightest (e : Expr) : e.tightness ≤ tightest := by
  cases e with
  | binary _ op _ _ => exact Nat.le_of_lt op.level.rank_lt_tightest
  | literal | name | group | unary => exact Nat.le_refl _

/-- An operand of a level has no operator of that level outside. -/
theorem links_eq_zero {level : Level} {e : Expr} (h : level.rank < e.tightness) : e.links level = 0 := by
  cases e with
  | binary _ op _ _ =>
    have hne : op.level ≠ level := by
      rintro rfl
      exact Nat.lt_irrefl _ h
    simp [links, hne]
  | literal | name | group | unary => rfl

theorem links_binary {op : BinaryOp} {lhs rhs : Expr} {p : Position} :
    (binary lhs op rhs p).links op.level = lhs.links op.level + 1 := by
  simp [links]

/-- Operands joined by operators, from the first one on. -/
def chained (first : Expr) (more : List (BinaryOp × Expr × Position)) : Expr :=
  more.foldl (fun lhs link => .binary lhs link.1 link.2.1 link.2.2) first

theorem links_chained {level : Level} {first : Expr} (hfirst : level.rank < first.tightness)
    {more : List (BinaryOp × Expr × Position)} (hmore : ∀ link ∈ more, link.1.level = level) :
    (chained first more).links level = more.length := by
  induction more using List.reverseRecOn with
  | nil => exact links_eq_zero hfirst
  | append_singleton more link ih =>
    have hlevel : link.1.level = level := hmore link (by simp)
    have := ih fun l hl => hmore l (by simp [hl])
    simp only [chained, List.foldl_append, List.foldl_cons, List.foldl_nil] at this ⊢
    rw [← hlevel, links_binary, hlevel, this, List.length_append, List.length_singleton]

/-- The cost of a whole chain: that of its first operand, or that of the operand behind its `i`-th operator and
`i` more, whichever is greatest. -/
theorem cost_chained {level : Level} {first : Expr} (hfirst : level.rank < first.tightness)
    {more : List (BinaryOp × Expr × Position)} (hmore : ∀ link ∈ more, link.1.level = level) :
    (chained first more).cost =
      ((more.zipIdx 1).map fun (link, i) => i + link.2.1.cost).foldl max first.cost := by
  induction more using List.reverseRecOn with
  | nil => rfl
  | append_singleton more link ih =>
    have hrest : ∀ l ∈ more, l.1.level = level := fun l hl => hmore l (by simp [hl])
    have hlinks := links_chained hfirst hrest
    have hcost := ih hrest
    have hlevel : link.1.level = level := hmore link (by simp)
    simp only [chained, List.foldl_append, List.foldl_cons, List.foldl_nil] at hlinks hcost ⊢
    rw [cost, hlevel, hlinks, hcost]
    simp [List.zipIdx_append, Nat.add_comm 1]

end Expr
end Portugol
