import Portugol.Token.Symbol

/-! # Operators

Operators with two operands come in four families, which are evaluated in different ways, and stand on four
levels, from the loosest to the tightest. Each has a sign of its own (`ofSymbol?_eq_some_iff`). -/
namespace Portugol

/-- The levels of binding, from the loosest to the tightest. -/
inductive Level where
  | logic | comparison | sum | term
deriving DecidableEq, Repr

inductive LogicOp where
  | and | or
deriving DecidableEq, Repr

inductive EqualityOp where
  | equal | notEqual
deriving DecidableEq, Repr

inductive OrderOp where
  | less | lessEqual | greater | greaterEqual
deriving DecidableEq, Repr

inductive ArithmeticOp where
  | add | subtract | multiply | divide | modulo
deriving DecidableEq, Repr

inductive BinaryOp where
  | logic (op : LogicOp)
  | equality (op : EqualityOp)
  | order (op : OrderOp)
  | arithmetic (op : ArithmeticOp)
deriving DecidableEq, Repr

inductive UnaryOp where
  | negate | not
deriving DecidableEq, Repr

namespace BinaryOp

def level : BinaryOp → Level
  | .logic _ => .logic
  | .equality _ | .order _ => .comparison
  | .arithmetic .add | .arithmetic .subtract => .sum
  | .arithmetic .multiply | .arithmetic .divide | .arithmetic .modulo => .term

def symbol : BinaryOp → Symbol
  | .logic .and => .and
  | .logic .or => .or
  | .equality .equal => .equal
  | .equality .notEqual => .notEqual
  | .order .less => .less
  | .order .lessEqual => .lessEqual
  | .order .greater => .greater
  | .order .greaterEqual => .greaterEqual
  | .arithmetic .add => .plus
  | .arithmetic .subtract => .minus
  | .arithmetic .multiply => .star
  | .arithmetic .divide => .slash
  | .arithmetic .modulo => .percent

def ofSymbol? : Symbol → Option BinaryOp
  | .and => some (.logic .and)
  | .or => some (.logic .or)
  | .equal => some (.equality .equal)
  | .notEqual => some (.equality .notEqual)
  | .less => some (.order .less)
  | .lessEqual => some (.order .lessEqual)
  | .greater => some (.order .greater)
  | .greaterEqual => some (.order .greaterEqual)
  | .plus => some (.arithmetic .add)
  | .minus => some (.arithmetic .subtract)
  | .star => some (.arithmetic .multiply)
  | .slash => some (.arithmetic .divide)
  | .percent => some (.arithmetic .modulo)
  | _ => none

theorem ofSymbol?_eq_some_iff {s : Symbol} {op : BinaryOp} : ofSymbol? s = some op ↔ op.symbol = s := by
  constructor
  · intro h
    cases s <;> cases h <;> rfl
  · rintro rfl
    rcases op with ⟨_ | _⟩ | ⟨_ | _⟩ | ⟨_ | _ | _ | _⟩ | ⟨_ | _ | _ | _ | _⟩ <;> rfl

def spelling (op : BinaryOp) : String := op.symbol.spelling

end BinaryOp

namespace UnaryOp

def symbol : UnaryOp → Symbol
  | .negate => .minus
  | .not => .not

def spelling (op : UnaryOp) : String := op.symbol.spelling

end UnaryOp

def Level.operator? (level : Level) (s : Symbol) : Option BinaryOp :=
  (BinaryOp.ofSymbol? s).filter fun op => op.level = level

theorem Level.operator?_eq_some_iff {level : Level} {s : Symbol} {op : BinaryOp} :
    level.operator? s = some op ↔ op.symbol = s ∧ op.level = level := by
  simp [operator?, Option.filter_eq_some_iff, BinaryOp.ofSymbol?_eq_some_iff]

end Portugol
