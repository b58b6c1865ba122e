import Portugol.Syntax.Statement

/-! # Moving to other places

Whatever has positions in it can be moved: each position is replaced by its image under a map of positions, and
nothing else changes. A text that is put below others is moved down by a number of lines (`Position.lower`). -/
namespace Portugol

/-- The same column, so many lines further down. -/
def Position.lower (k : Nat) (p : Position) : Position := ⟨p.line + k, p.column⟩

class Placed (α : Type) where
  moved : (Position → Position) → α → α

instance : Placed Position := ⟨fun f p => f p⟩

/-- What has no positions stays as it is. -/
instance : Placed String := ⟨fun _ x => x⟩

instance {α : Type} [Placed α] : Placed (Option α) := ⟨fun f => Option.map (Placed.moved f)⟩

instance {α : Type} [Placed α] : Placed (List α) := ⟨fun f => List.map (Placed.moved f)⟩

def Expr.moved (f : Position → Position) : Expr → Expr
  | .literal value p => .literal value (f p)
  | .name x p => .name x (f p)
  | .group inner => .group (inner.moved f)
  | .unary op operand p => .unary op (operand.moved f) (f p)
  | .binary lhs op rhs p => .binary (lhs.moved f) op (rhs.moved f) (f p)

mutual

def Statement.moved (f : Position → Position) : Statement → Statement
  | .declaration x type init p => .declaration x type (init.map (Expr.moved f)) (f p)
  | .assignment x value p => .assignment x (value.moved f) (f p)
  | .read x p => .read x (f p)
  | .write exprs p => .write (exprs.map (Expr.moved f)) (f p)
  | .conditional condition thenBlock elseBlock p =>
    .conditional (condition.moved f) (thenBlock.moved f) (Statement.movedElse f elseBlock) (f p)
  | .repetition condition body p => .repetition (condition.moved f) (body.moved f) (f p)
  | .block inner => .block (inner.moved f)

def Block.moved (f : Position → Position) : Block → Block
  | ⟨statements, p⟩ => ⟨Statement.movedAll f statements, f p⟩

def Statement.movedElse (f : Position → Position) : Option Block → Option Block
  | none => none
  | some b => some (b.moved f)

def Statement.movedAll (f : Position → Position) : List Statement → List Statement
  | [] => []
  | s :: rest => s.moved f :: Statement.movedAll f rest

end

instance : Placed Expr := ⟨Expr.moved⟩

instance : Placed Statement := ⟨Statement.moved⟩

instance : Placed Block := ⟨Block.moved⟩

def Program.moved (f : Position → Position) (program : Program) : Program :=
  ⟨program.statements.map (Statement.moved f)⟩

variable (f : Position → Position)

theorem Expr.position_moved (e : Expr) : (e.moved f).position = f e.position := by
  induction e with
  | group inner ih => exact ih
  | literal | name | unary | binary => rfl

theorem Statement.movedElse_eq (other : Option Block) : movedElse f other = other.map (Block.moved f) := by
  cases other with
  | none => rw [movedElse, Option.map_none]
  | some b => rw [movedElse, Option.map_some]

theorem Statement.movedAll_eq (ss : List Statement) : movedAll f ss = ss.map (Statement.moved f) := by
  induction ss with
  | nil => rw [movedAll, List.map_nil]
  | cons s rest ih => rw [movedAll, ih, List.map_cons]

/-! ## Moving nothing -/

theorem Expr.moved_id (e : Expr) : e.moved id = e := by
  induction e with
  | literal | name => rfl
  | group inner ih => rw [moved, ih]
  | unary op operand p ih => rw [moved, ih, id]
  | binary lhs op rhs p ihl ihr => rw [moved, ihl, ihr, id]

mutual

theorem Statement.moved_id (s : Statement) : s.moved id = s := by
  match s with
  | .declaration x type init p =>
    rw [Statement.moved, funext Expr.moved_id, Option.map_id']
    rfl
  | .assignment x value p => rw [Statement.moved, Expr.moved_id, id]
  | .read x p => rw [Statement.moved, id]
  | .write exprs p =>
    rw [Statement.moved, funext Expr.moved_id, List.map_id']
    rfl
  | .conditional condition thenBlock elseBlock p =>
    rw [Statement.moved, Expr.moved_id, Block.moved_id thenBlock, Statement.movedElse_id elseBlock, id]
  | .repetition condition body p => rw [Statement.moved, Expr.moved_id, Block.moved_id body, id]
  | .block inner => rw [Statement.moved, Block.moved_id inner]

theorem Block.moved_id (b : Block) : b.moved id = b := by
  match b with
  | ⟨statements, p⟩ => rw [Block.moved, Statement.movedAll_id statements, id]

theorem Statement.movedElse_id (other : Option Block) : Statement.movedElse id other = other := by
  match other with
  | none => rw [Statement.movedElse]
  | some b => rw [Statement.movedElse, Block.moved_id b]

theorem Statement.movedAll_id (ss : List Statement) : Statement.movedAll id ss = ss := by
  match ss with
  | [] => rw [Statement.movedAll]
  | s :: rest => rw [Statement.movedAll, Statement.moved_id s, Statement.movedAll_id rest]

end

end Portugol
