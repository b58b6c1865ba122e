import Portugol.Grammar.Cursor

/-! # Reading expressions

An expression is a chain of operands and operators of the loosest level, the operands being chains of the next
level, down to the factors: literals, names, groups, and factors behind a unary operator. Chains are folded to
the left, and every fold makes the tree one deeper, so it counts as nesting until the chain ends.

The rules that repeat are given a bound on the number of unread tokens. It goes down by one where a token is
read, so it reaches zero at the end of the source only, and what a rule answers there is what it answers at
the end of the source. -/
namespace Portugol.Grammar

def operator? (level : Level) : Option TokenKind → Option BinaryOp
  | some (.symbol s) => level.operator? s
  | _ => none

/-- Passes over an operator, one level deeper from now on. -/
def descend : Rule Position := ⟨fun p =>
  if p.depth < maxNesting then advance.run { p with depth := p.depth + 1 }
  else (refuse .shallowerNesting).run p⟩

def restoringDepth {α : Type} (rule : Rule α) : Rule α := ⟨fun p =>
  (rule.run p).leaving fun q => { q with depth := p.depth }⟩

/-- The rest of a chain after its first operands. -/
def fold (level : Level) (operand : Rule Expr) : Nat → Expr → Rule Expr
  | 0, lhs => pure lhs
  | bound + 1, lhs => do
    match operator? level (← peek) with
    | none => return lhs
    | some op =>
      let place ← descend
      let rhs ← operand
      fold level operand bound (.binary lhs op rhs place)

/-- A chain of operands that are joined by the operators of one level. -/
def chain (level : Level) (operand : Rule Expr) (bound : Nat) : Rule Expr := do
  let lhs ← operand
  restoringDepth (fold level operand bound lhs)

/-- An expression over given factors: four levels of chains. -/
def chains (factor : Rule Expr) (bound : Nat) : Rule Expr :=
  let terms := chain .term factor bound
  let sums := chain .sum terms bound
  let comparisons := chain .comparison sums bound
  chain .logic comparisons bound

def literal? : TokenKind → Option Value
  | .integer n => some (.integer n)
  | .real x => some (.real x)
  | .text s => some (.text s)
  | .keyword .verdadeiro => some (.boolean true)
  | .keyword .falso => some (.boolean false)
  | _ => none

inductive FactorStart where
  | literal (value : Value)
  | name (x : String)
  | group
  | unary (op : UnaryOp)
  | other

def FactorStart.of : Option TokenKind → FactorStart
  | some (.name x) => .name x
  | some (.symbol .openParen) => .group
  | some (.symbol .minus) => .unary .negate
  | some (.symbol .not) => .unary .not
  | some kind => (literal? kind).elim .other .literal
  | none => .other

/-- A factor, of a source with at most that many unread tokens. -/
def factor : Nat → Rule Expr
  | 0 => refuse .expression
  | bound + 1 => do
    match FactorStart.of (← peek) with
    | .literal value => return .literal value (← advance)
    | .name x => return .name x (← advance)
    | .group => nested do
      let _ ← advance
      let inner ← chains (factor bound) bound
      let _ ← expect (.symbol .closeParen)
      return .group inner
    | .unary op => nested do
      let place ← advance
      return .unary op (← factor bound) place
    | .other => refuse .expression

def expression (bound : Nat) : Rule Expr := chains (factor bound) bound

end Portugol.Grammar
