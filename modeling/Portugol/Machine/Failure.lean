import Portugol.Syntax.Operator
import Portugol.Machine.Streams
import Portugol.Position
import Portugol.Text.Quoted
import Portugol.Value

/-! # Errors at run time

Every error of a running program has a cause and, unless a stream failed, the position of the construct
that raised it. The wording is all in `message`. -/
namespace Portugol

inductive TypeFault where
  | condition (found : Option DataType)
  | store (found : Option DataType) (target : DataType)
  | read (line : String) (target : DataType)
  | operands (op : BinaryOp) (left right : Option DataType)
  | truth (op : LogicOp) (found : Option DataType)
  | operand (op : UnaryOp) (found : Option DataType)
deriving DecidableEq

def TypeFault.message : TypeFault → String
  | .condition found => "condition must be booleano, found " ++ typeName found
  | .store found target => "cannot store " ++ typeName found ++ " value in " ++ target.name ++ " variable"
  | .read line target => "cannot read " ++ Text.Quoted.quote line ++ " as " ++ target.name
  | .operands op left right =>
    "invalid operands for " ++ op.spelling ++ ": " ++ typeName left ++ " and " ++ typeName right
  | .truth op found => "operands of " ++ (BinaryOp.logic op).spelling ++ " must be booleano, found " ++ typeName found
  | .operand op found => "cannot apply unary " ++ op.spelling ++ " to " ++ typeName found

inductive ArithmeticFault where
  | divisionByZero
  | moduloByZero
  | overflow (a : Int64) (op : ArithmeticOp) (b : Int64)
  | negation (a : Int64)
deriving DecidableEq

def ArithmeticFault.message : ArithmeticFault → String
  | .divisionByZero => "division by zero"
  | .moduloByZero => "modulo by zero"
  | .overflow a op b =>
    "integer overflow in " ++ Integer.render a ++ " " ++ (BinaryOp.arithmetic op).spelling ++ " " ++ Integer.render b
  | .negation a => "integer overflow in -" ++ Integer.render a

inductive RuntimeError where
  | undefinedVariable (name : String) (position : Position)
  | redeclaration (name : String) (position : Position)
  | type (fault : TypeFault) (position : Position)
  | arithmetic (fault : ArithmeticFault) (position : Position)
  | inputExhausted (name : String) (position : Position)
  | stream (fault : StreamFault)
deriving DecidableEq

namespace RuntimeError

def position? : RuntimeError → Option Position
  | .undefinedVariable _ p | .redeclaration _ p | .type _ p | .arithmetic _ p | .inputExhausted _ p => some p
  | .stream _ => none

def message : RuntimeError → String
  | .undefinedVariable x p =>
    "Variable " ++ Text.Quoted.quote x ++ " is undefined or out of scope on " ++ p.describe ++ "."
  | .redeclaration x p =>
    "Variable " ++ Text.Quoted.quote x ++ " is already declared in this scope on " ++ p.describe ++ "."
  | .type fault p => "Type error on " ++ p.describe ++ ": " ++ fault.message ++ "."
  | .arithmetic fault p => "Arithmetic error on " ++ p.describe ++ ": " ++ fault.message ++ "."
  | .inputExhausted x p => "No input left to read into " ++ Text.Quoted.quote x ++ " on " ++ p.describe ++ "."
  | .stream fault => "Console I/O failed: " ++ fault.message

end RuntimeError
end Portugol
