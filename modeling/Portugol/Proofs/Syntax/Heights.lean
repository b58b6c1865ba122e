import Mathlib.Tactic.Ring
import Portugol.Proofs.Syntax.Levels

/-! # Heights of expressions

How high an expression is grows with the square of its cost. A chain puts one node for each of its operators on top of
its first operand, and the cost of that operand does not count along with them: it is the greater of the two that
counts. This happens on each of the four levels, and again inside every group. So an expression of cost `c` is at most
`(2 * c + 1) * (c + 1)` high (`height_le`), and some expression is as high as that (`tallest_spec`). An expression is at
most one higher than its cost if the cost of each operation reaches the height of its left operand (`Counted`). -/
namespace Portugol.Expr

/-- How high an expression is: a leaf is one high, and every other node one higher than what is below it. -/
def height : Expr → Nat
  | .literal .. | .name .. => 1
  | .group inner => inner.height + 1
  | .unary _ operand _ => operand.height + 1
  | .binary lhs _ rhs _ => max lhs.height rhs.height + 1

/-- Every operation costs as much as its left operand is high. -/
def Counted : Expr → Prop
  | .literal .. | .name .. => True
  | .group inner => inner.Counted
  | .unary _ operand _ => operand.Counted
  | .binary lhs op rhs p => lhs.Counted ∧ rhs.Counted ∧ lhs.height ≤ (binary lhs op rhs p).cost

theorem height_le_of_counted {e : Expr} (h : e.Counted) : e.height ≤ e.cost + 1 := by
  induction e with
  | literal | name => exact Nat.le_refl 1
  | group inner ih =>
    have hinner := ih h
    rw [height, cost]
    omega
  | unary op operand p ih =>
    have hoperand := ih h
    rw [height, cost]
    omega
  | binary lhs op rhs p ihl ihr =>
    obtain ⟨-, hrhs, hleft⟩ := h
    have hright := ihr hrhs
    rw [cost] at hleft
    rw [height, cost]
    omega

/-! ## The bound -/

/-- The greatest height of an expression of some cost whose chains are of so many levels. -/
def bound (levels cost : Nat) : Nat := cost * (2 * cost - 1) + levels * cost + 1

theorem bound_mono {l m c d : Nat} (hl : l ≤ m) (hc : c ≤ d) : bound l c ≤ bound m d := by
  have hsquare : c * (2 * c - 1) ≤ d * (2 * d - 1) := Nat.mul_le_mul hc (by omega)
  have hlinear : l * c ≤ m * d := Nat.mul_le_mul hl hc
  simp only [bound]
  omega

/-- A chain of one more level can be higher by its links. -/
theorem add_bound (levels cost : Nat) : cost + bound levels cost = bound (levels + 1) cost := by
  simp only [bound, Nat.succ_mul]
  omega

/-- In a group there is room for chains of all levels. -/
theorem bound_group (cost : Nat) : bound 4 cost + 1 = bound 0 (cost + 1) := by
  cases cost with
  | zero => rfl
  | succ n =>
    have hodd : 2 * (n + 1) - 1 = 2 * n + 1 := by omega
    have hodd' : 2 * (n + 1 + 1) - 1 = 2 * n + 3 := by omega
    simp only [bound, hodd, hodd']
    ring

theorem bound_four (cost : Nat) : bound 4 cost = (2 * cost + 1) * (cost + 1) := by
  cases cost with
  | zero => rfl
  | succ n =>
    have hodd : 2 * (n + 1) - 1 = 2 * n + 1 := by omega
    simp only [bound, hodd]
    ring

theorem links_le_cost (level : Level) (e : Expr) : e.links level ≤ e.cost := by
  cases e with
  | binary lhs op rhs p =>
    by_cases hop : op.level = level
    · subst hop
      rw [links_binary, cost]
      omega
    · simp [links, hop]
  | literal | name | group | unary => exact Nat.zero_le _

/-- An expression that is no looser than a level is higher by its links on that level than the tighter levels allow. -/
theorem height_le_add_bound {e : Expr} (h : e.Leveled) {level : Level} (hlevel : level.rank ≤ e.tightness) :
    e.height ≤ e.links level + bound (3 - level.rank) e.cost := by
  induction e generalizing level with
  | literal | name =>
    have hleaf := bound_mono (Nat.zero_le (3 - level.rank)) (Nat.le_refl 0)
    exact hleaf
  | group inner ih =>
    have hinner : inner.height ≤ inner.links .logic + bound 3 inner.cost := ih h (Nat.zero_le _)
    have hlinks := links_le_cost .logic inner
    have hall : inner.cost + bound 3 inner.cost = bound 4 inner.cost := add_bound 3 inner.cost
    have hgroup := bound_group inner.cost
    have hroom := bound_mono (Nat.zero_le (3 - level.rank)) (Nat.le_refl (inner.cost + 1))
    rw [links, cost, height]
    omega
  | unary op operand p ih =>
    obtain ⟨htight, hoperand⟩ := h
    have hfactor : operand.height ≤ operand.links .term + bound 0 operand.cost :=
      ih hoperand (htight.symm ▸ (by decide))
    have hlinks : operand.links .term = 0 := links_eq_zero (htight.symm ▸ (by decide))
    have hmono := bound_mono (Nat.zero_le 4) (Nat.le_refl operand.cost)
    have hgroup := bound_group operand.cost
    have hroom := bound_mono (Nat.zero_le (3 - level.rank)) (Nat.le_refl (operand.cost + 1))
    rw [links, cost, height]
    omega
  | binary lhs op rhs p ihl ihr =>
    obtain ⟨hl, hr, hlhs, hrhs⟩ := h
    have hop : (binary lhs op rhs p).height ≤
        (binary lhs op rhs p).links op.level + bound (3 - op.level.rank) (binary lhs op rhs p).cost := by
      have hleft := ihl hlhs hl
      have hright := ihr hrhs (Nat.le_of_lt hr)
      have hoperand : rhs.links op.level = 0 := links_eq_zero hr
      have hmonol := bound_mono (Nat.le_refl (3 - op.level.rank))
        (Nat.le_max_left lhs.cost (lhs.links op.level + 1 + rhs.cost))
      have hmonor := bound_mono (Nat.le_refl (3 - op.level.rank))
        (show rhs.cost ≤ max lhs.cost (lhs.links op.level + 1 + rhs.cost) by omega)
      rw [links_binary, height, cost]
      omega
    by_cases hsame : op.level = level
    · exact hsame ▸ hop
    · -- Seen from a looser level the whole chain is one operand, without links.
      have hlt : level.rank < op.level.rank :=
        Nat.lt_of_le_of_ne hlevel fun heq => hsame (Level.rank_injective heq.symm)
      have hlinks := links_le_cost op.level (binary lhs op rhs p)
      have hnone : (binary lhs op rhs p).links level = 0 := by simp [links, hsame]
      have hmore := add_bound (3 - op.level.rank) (binary lhs op rhs p).cost
      have hrank := op.level.rank_lt_tightest
      have hroom := bound_mono (show 3 - op.level.rank + 1 ≤ 3 - level.rank by rw [tightest] at hrank; omega)
        (Nat.le_refl (binary lhs op rhs p).cost)
      rw [hnone]
      omega

/-- How high an expression of some cost can be. -/
theorem height_le {e : Expr} (h : e.Leveled) : e.height ≤ (2 * e.cost + 1) * (e.cost + 1) := by
  have hheight : e.height ≤ e.links .logic + bound 3 e.cost := height_le_add_bound h (Nat.zero_le _)
  have hlinks := links_le_cost .logic e
  have hall : e.cost + bound 3 e.cost = bound 4 e.cost := add_bound 3 e.cost
  rw [← bound_four]
  omega

/-! ## Expressions that reach it -/

/-- A chain of so many operators with the number one behind each. -/
def extended (op : BinaryOp) (e : Expr) : Nat → Expr
  | 0 => e
  | n + 1 => .binary (e.extended op n) op (.literal (.integer 1) .start) .start

theorem le_tightness_extended {op : BinaryOp} {e : Expr} (he : op.level.rank < e.tightness) (n : Nat) :
    op.level.rank ≤ (e.extended op n).tightness := by
  cases n with
  | zero => exact Nat.le_of_lt he
  | succ n => exact Nat.le_refl _

theorem leveled_extended {op : BinaryOp} {e : Expr} (he : op.level.rank < e.tightness) (hlevel : e.Leveled) (n : Nat) :
    (e.extended op n).Leveled := by
  induction n with
  | zero => exact hlevel
  | succ n ih => exact ⟨le_tightness_extended he n, op.level.rank_lt_tightest, ih, trivial⟩

theorem links_extended {op : BinaryOp} {e : Expr} (he : op.level.rank < e.tightness) (n : Nat) :
    (e.extended op n).links op.level = n := by
  induction n with
  | zero => exact links_eq_zero he
  | succ n ih => rw [extended, links_binary, ih]

/-- The links and what they stand on do not add up. -/
theorem cost_extended {op : BinaryOp} {e : Expr} (he : op.level.rank < e.tightness) (n : Nat) :
    (e.extended op n).cost = max e.cost n := by
  induction n with
  | zero => exact (Nat.max_zero _).symm
  | succ n ih =>
    rw [extended, cost, links_extended he, ih]
    simp only [cost]
    omega

theorem height_pos (e : Expr) : 0 < e.height := by
  cases e <;> exact Nat.succ_pos _

theorem height_extended (op : BinaryOp) (e : Expr) (n : Nat) : (e.extended op n).height = e.height + n := by
  induction n with
  | zero => rfl
  | succ n ih =>
    have hpos := e.height_pos
    rw [extended, height, ih]
    simp only [height]
    omega

/-- Chains of all four levels, each as long and each with the last one as its first operand. -/
def extendedByAll (e : Expr) (n : Nat) : Expr :=
  (((e.extended (.arithmetic .multiply) n).extended (.arithmetic .add) n).extended (.equality .equal) n).extended
    (.logic .and) n

def tallest : Nat → Expr
  | 0 => .literal (.integer 1) .start
  | n + 1 => (group (tallest n)).extendedByAll (n + 1)

theorem extendedByAll_spec {e : Expr} (htight : e.tightness = tightest) (hlevel : e.Leveled) (n : Nat) :
    (e.extendedByAll n).Leveled ∧ (e.extendedByAll n).cost = max e.cost n ∧
      (e.extendedByAll n).height = e.height + 4 * n := by
  have hterm : (BinaryOp.arithmetic .multiply).level.rank < e.tightness := htight ▸ (by decide)
  have hsum : (BinaryOp.arithmetic .add).level.rank < (e.extended (.arithmetic .multiply) n).tightness :=
    Nat.lt_of_lt_of_le (by decide) (le_tightness_extended hterm n)
  have hcomparison : (BinaryOp.equality .equal).level.rank <
      ((e.extended (.arithmetic .multiply) n).extended (.arithmetic .add) n).tightness :=
    Nat.lt_of_lt_of_le (by decide) (le_tightness_extended hsum n)
  have hlogic : (BinaryOp.logic .and).level.rank <
      (((e.extended (.arithmetic .multiply) n).extended (.arithmetic .add) n).extended (.equality .equal)
        n).tightness :=
    Nat.lt_of_lt_of_le (by decide) (le_tightness_extended hcomparison n)
  refine ⟨?_, ?_, ?_⟩
  · exact leveled_extended hlogic (leveled_extended hcomparison (leveled_extended hsum (leveled_extended hterm hlevel n)
      n) n) n
  · rw [extendedByAll, cost_extended hlogic, cost_extended hcomparison, cost_extended hsum, cost_extended hterm]
    omega
  · rw [extendedByAll, height_extended, height_extended, height_extended, height_extended]
    omega

theorem tallest_spec (n : Nat) :
    (tallest n).Leveled ∧ (tallest n).cost = n ∧ (tallest n).height = (2 * n + 1) * (n + 1) := by
  induction n with
  | zero => exact ⟨trivial, rfl, rfl⟩
  | succ n ih =>
    obtain ⟨hlevel, hcost, hheight⟩ := ih
    obtain ⟨hlevel', hcost', hheight'⟩ := extendedByAll_spec (e := group (tallest n)) rfl hlevel (n + 1)
    refine ⟨hlevel', ?_, ?_⟩
    · rw [tallest, hcost', cost, hcost, Nat.max_self]
    · rw [tallest, hheight', height, hheight]
      ring

end Portugol.Expr
