import Portugol.Proofs.Syntax.Levels
import Portugol.Syntax.Statement

/-! # The parts of a program

The parts of a statement are the statement and all statements inside it, at whatever depth. What holds of a whole
program is said of each of its parts alone, by the expressions that belong to that part and to no other. So are the
names that occur in a program: each occurs in a part itself, as its target or in one of its expressions. -/
namespace Portugol

namespace Statement

def exprs : Statement → List Expr
  | .declaration _ _ init _ => init.toList
  | .assignment _ value _ => [value]
  | .write exprs _ => exprs
  | .conditional condition _ _ _ | .repetition condition _ _ => [condition]
  | .read .. | .block _ => []

/-- The expressions keep the levels of the operators, and something is written. -/
def WellShaped (s : Statement) : Prop := (∀ e ∈ s.exprs, e.Leveled) ∧ ∀ p, s ≠ .write [] p

end Statement

mutual

/-- A statement and all statements inside it. -/
def Statement.parts : Statement → List Statement
  | .declaration x type init p => [.declaration x type init p]
  | .assignment x value p => [.assignment x value p]
  | .read x p => [.read x p]
  | .write exprs p => [.write exprs p]
  | .conditional condition thenBlock elseBlock p =>
    .conditional condition thenBlock elseBlock p :: (thenBlock.parts ++ Statement.partsElse elseBlock)
  | .repetition condition body p => .repetition condition body p :: body.parts
  | .block inner => .block inner :: inner.parts

def Block.parts : Block → List Statement
  | ⟨statements, _⟩ => Statement.partsAll statements

def Statement.partsElse : Option Block → List Statement
  | none => []
  | some b => b.parts

def Statement.partsAll : List Statement → List Statement
  | [] => []
  | s :: rest => s.parts ++ Statement.partsAll rest

end

/-- A statement is one of its own parts. -/
theorem Statement.mem_parts (s : Statement) : s ∈ s.parts := by
  cases s <;> exact .head _

/-! ## Names -/

def Expr.names : Expr → List String
  | .literal .. => []
  | .name x _ => [x]
  | .group inner => inner.names
  | .unary _ operand _ => operand.names
  | .binary lhs _ rhs _ => lhs.names ++ rhs.names

namespace Statement

/-- The name that a statement declares or gives a value. -/
def target? : Statement → Option String
  | .declaration x .. | .assignment x .. | .read x _ => some x
  | .write .. | .conditional .. | .repetition .. | .block _ => none

/-- The names that occur in a statement itself, and not only in statements inside it. -/
def names (s : Statement) : List String := s.target?.toList ++ s.exprs.flatMap Expr.names

theorem mem_names_of_target? {s : Statement} {x : String} (h : s.target? = some x) : x ∈ s.names :=
  List.mem_append_left _ (Option.mem_toList.2 h)

theorem mem_names_of_exprs {s : Statement} {e : Expr} (he : e ∈ s.exprs) {x : String} (hx : x ∈ e.names) :
    x ∈ s.names :=
  List.mem_append_right _ (List.mem_flatMap.2 ⟨e, he, hx⟩)

end Statement

namespace Program

def parts (program : Program) : List Statement := Statement.partsAll program.statements

def names (program : Program) : List String := program.parts.flatMap Statement.names

theorem mem_names {program : Program} {s : Statement} (hs : s ∈ program.parts) {x : String} (hx : x ∈ s.names) :
    x ∈ program.names :=
  List.mem_flatMap.2 ⟨s, hs, hx⟩

def WellShaped (program : Program) : Prop := ∀ s ∈ program.parts, s.WellShaped

end Program
end Portugol
