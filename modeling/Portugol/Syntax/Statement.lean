import Portugol.Syntax.Expression

/-! # Statements

A block is a list of statements between braces and has a scope of its own. A program is a list of statements. -/
namespace Portugol

mutual

inductive Statement where
  | declaration (name : String) (type : Option DataType) (init : Option Expr) (position : Position)
  | assignment (name : String) (value : Expr) (position : Position)
  | read (name : String) (position : Position)
  | write (exprs : List Expr) (position : Position)
  | conditional (condition : Expr) (thenBlock : Block) (elseBlock : Option Block) (position : Position)
  | repetition (condition : Expr) (body : Block) (position : Position)
  | block (inner : Block)

structure Block where
  statements : List Statement
  position : Position

end

def Statement.position : Statement → Position
  | .declaration _ _ _ p => p
  | .assignment _ _ p => p
  | .read _ p => p
  | .write _ p => p
  | .conditional _ _ _ p => p
  | .repetition _ _ p => p
  | .block inner => inner.position

structure Program where
  statements : List Statement

end Portugol
