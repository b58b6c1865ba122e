import Portugol.Position
import Portugol.Syntax.Operator
import Portugol.Text.Quoted
import Portugol.Value

/-! # Expressions

An expression keeps the parentheses it was written with, and the position of each leaf and operator. Its
symbolic text puts every operator before its operands and everything that has operands in parentheses. -/
namespace Portugol

inductive Expr where
  | literal (value : Value) (position : Position)
  | name (x : String) (position : Position)
  | group (inner : Expr)
  | unary (op : UnaryOp) (operand : Expr) (position : Position)
  | binary (lhs : Expr) (op : BinaryOp) (rhs : Expr) (position : Position)
deriving DecidableEq

namespace Expr

/-- Where an expression is said to be: at its operator, or at the leaf; a group is where its inside is. -/
def position : Expr → Position
  | .literal _ p => p
  | .name _ p => p
  | .group inner => inner.position
  | .unary _ _ p => p
  | .binary _ _ _ p => p

/-- The text of a value in an expression: texts are quoted, all else is written as usual. -/
def literalText : Value → String
  | .text s => Text.Quoted.quote s
  | value => value.render

/-- The text of an expression with its operators in front. -/
def symbolic : Expr → String
  | .literal value _ => literalText value
  | .name x _ => x
  | .group inner => "(" ++ inner.symbolic ++ ")"
  | .unary op operand _ => "(" ++ op.spelling ++ operand.symbolic ++ ")"
  | .binary lhs op rhs _ => "(" ++ op.spelling ++ " " ++ lhs.symbolic ++ " " ++ rhs.symbolic ++ ")"

end Expr
end Portugol
