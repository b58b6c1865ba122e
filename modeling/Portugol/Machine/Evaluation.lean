import Portugol.Decimal.Remainder
import Portugol.Machine.Failure
import Portugol.Machine.Scopes
import Portugol.Syntax.Expression

/-! # The value of an expression

Operands are evaluated before their operator, the left one first, and the right operand of a logic operator
only if the left one does not settle the result. Whole numbers are computed exactly or not at all; as soon as
one operand is a real number both are. Evaluation reads the scopes and changes nothing. -/
namespace Portugol

/-- The order of two real numbers; there is none if one of them is no number. -/
def realOrder (x y : Float) : Option Ordering :=
  if x < y then some .lt else if x == y then some .eq else if y < x then some .gt else none

namespace Value

def numbers? (a b : Value) : Option (Float × Float) :=
  match a.number?, b.number? with
  | some x, some y => some (x, y)
  | _, _ => none

def equal? : Value → Value → Option Bool
  | .integer m, .integer n => some (m = n)
  | .boolean b, .boolean c => some (b = c)
  | .text s, .text t => some (s = t)
  | a, b => (numbers? a b).map fun (x, y) => x == y

/-- The order of two values, if they can be ordered; numbers that can be may still have none. -/
def order? : Value → Value → Option (Option Ordering)
  | .integer m, .integer n => some (some (compare m.toInt n.toInt))
  | .text s, .text t => some (some (compare s t))
  | a, b => (numbers? a b).map fun (x, y) => realOrder x y

/-- Two texts, or a text and a number, written one after the other. -/
def joined? : Value → Value → Option String
  | .text s, .text t => some (s ++ t)
  | .text s, .integer n => some (s ++ (integer n).render)
  | .text s, .real x => some (s ++ (real x).render)
  | .integer n, .text t => some ((integer n).render ++ t)
  | .real x, .text t => some ((real x).render ++ t)
  | _, _ => none

end Value

namespace LogicOp

/-- Whether the left operand alone settles the result, which then is that operand. -/
def settled (op : LogicOp) (left : Bool) : Bool :=
  match op with
  | .and => !left
  | .or => left

end LogicOp

def OrderOp.holds : OrderOp → Ordering → Bool
  | .less, o => o = .lt
  | .lessEqual, o => o ≠ .gt
  | .greater, o => o = .gt
  | .greaterEqual, o => o ≠ .lt

namespace ArithmeticOp

def zeroFault? : ArithmeticOp → Option ArithmeticFault
  | .divide => some .divisionByZero
  | .modulo => some .moduloByZero
  | _ => none

def onIntegers : ArithmeticOp → Int64 → Int64 → Option Int64
  | .add => Integer.add?
  | .subtract => Integer.sub?
  | .multiply => Integer.mul?
  | .divide => Integer.div?
  | .modulo => Integer.mod?

def onReals : ArithmeticOp → Float → Float → Float
  | .add => fun x y => x + y
  | .subtract => fun x y => x - y
  | .multiply => fun x y => x * y
  | .divide => fun x y => x / y
  | .modulo => Decimal.remainder

/-- The result on two numbers; two whole numbers have a whole result. -/
def apply (op : ArithmeticOp) (a b : Value) (p : Position) : Except RuntimeError Value :=
  match a, b with
  | .integer m, .integer n =>
    match if n = 0 then op.zeroFault? else none with
    | some fault => .error (.arithmetic fault p)
    | none =>
      match op.onIntegers m n with
      | some result => .ok (.integer result)
      | none => .error (.arithmetic (.overflow m op n) p)
  | a, b =>
    match Value.numbers? a b with
    | none => .error (.type (.operands (.arithmetic op) a.type? b.type?) p)
    | some (x, y) =>
      match if y == 0 then op.zeroFault? else none with
      | some fault => .error (.arithmetic fault p)
      | none => .ok (.real (op.onReals x y))

end ArithmeticOp

/-- The result of an operator on two values; adding to a text is writing after it. -/
def BinaryOp.apply (op : BinaryOp) (a b : Value) (p : Position) : Except RuntimeError Value :=
  let refused : Except RuntimeError Value := .error (.type (.operands op a.type? b.type?) p)
  match op with
  | .logic connective =>
    match a, b with
    | .boolean x, .boolean y => .ok (.boolean (if connective.settled x then x else y))
    | _, _ => refused
  | .equality relation =>
    match a.equal? b with
    | some same => .ok (.boolean (if relation = .equal then same else !same))
    | none => refused
  | .order relation =>
    match a.order? b with
    | some o => .ok (.boolean (o.any relation.holds))
    | none => refused
  | .arithmetic operation =>
    match if operation = .add then a.joined? b else none with
    | some text => .ok (.text text)
    | none => operation.apply a b p

def UnaryOp.apply (op : UnaryOp) (a : Value) (p : Position) : Except RuntimeError Value :=
  match op, a with
  | .not, .boolean b => .ok (.boolean !b)
  | .negate, .real x => .ok (.real (-x))
  | .negate, .integer n =>
    match Integer.neg? n with
    | some result => .ok (.integer result)
    | none => .error (.arithmetic (.negation n) p)
  | op, a => .error (.type (.operand op a.type?) p)

namespace Expr

def eval (scopes : Scopes) : Expr → Except RuntimeError Value
  | .literal value _ => .ok value
  | .name x p =>
    match scopes.get? x with
    | some binding => .ok binding.value
    | none => .error (.undefinedVariable x p)
  | .group inner => inner.eval scopes
  | .unary op operand p =>
    match operand.eval scopes with
    | .error e => .error e
    | .ok a => op.apply a p
  | .binary lhs op rhs p =>
    match lhs.eval scopes with
    | .error e => .error e
    | .ok a =>
      match op, a with
      | .logic connective, .boolean left =>
        if connective.settled left then .ok (.boolean left)
        else
          match rhs.eval scopes with
          | .error e => .error e
          | .ok b => (BinaryOp.logic connective).apply (.boolean left) b p
      | .logic connective, a => .error (.type (.truth connective a.type?) p)
      | op, a =>
        match rhs.eval scopes with
        | .error e => .error e
        | .ok b => op.apply a b p

def test (scopes : Scopes) (condition : Expr) : Except RuntimeError Bool :=
  match condition.eval scopes with
  | .error e => .error e
  | .ok (.boolean b) => .ok b
  | .ok found => .error (.type (.condition found.type?) condition.position)

end Expr
end Portugol
