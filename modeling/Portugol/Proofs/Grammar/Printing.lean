import Portugol.Proofs.Grammar.Flattening
import Portugol.Proofs.Token.Spelling

/-! # Printing programs

A program is printed as its tokens in order, with a blank between every two. Assignments are printed with an arrow,
and what is done otherwise is printed as a block, also where the program was read from a conditional behind an
"else". What a program prints as does not tell where its parts were, so what can be read back is the program
without its positions.

A printed program can be read only if it is not nested too deep. Reading counts one for every block around a part
and, inside an expression, its cost (`Program.Fits`). -/
namespace Portugol

/-! ## Expressions -/

/-- Values that are written with one token which gives them back. -/
def Value.Printable : Value → Prop
  | .integer n => 0 ≤ n.toInt
  | .boolean _ | .text _ => True
  | .real _ | .undefined => False

namespace Expr

def Printable : Expr → Prop
  | .literal value _ => value.Printable
  | .name x _ => IsName x
  | .group inner => inner.Printable
  | .unary _ operand _ => operand.Printable
  | .binary lhs _ rhs _ => lhs.Printable ∧ rhs.Printable

def kinds : Expr → List TokenKind
  | .literal value _ => value.token?.toList
  | .name x _ => [.name x]
  | .group inner => .symbol .openParen :: (inner.kinds ++ [.symbol .closeParen])
  | .unary op operand _ => .symbol op.symbol :: operand.kinds
  | .binary lhs op rhs _ => lhs.kinds ++ .symbol op.symbol :: rhs.kinds

def unplaced : Expr → Expr
  | .literal value _ => .literal value .start
  | .name x _ => .name x .start
  | .group inner => .group inner.unplaced
  | .unary op operand _ => .unary op operand.unplaced .start
  | .binary lhs op rhs _ => .binary lhs.unplaced op rhs.unplaced .start

theorem links_unplaced (level : Level) (e : Expr) : e.unplaced.links level = e.links level := by
  induction e with
  | binary lhs op rhs p ihl _ => simp only [unplaced, links, ihl]
  | literal | name | group | unary => rfl

theorem cost_unplaced (e : Expr) : e.unplaced.cost = e.cost := by
  induction e with
  | literal | name => rfl
  | group inner ih => simp only [unplaced, cost, ih]
  | unary op operand p ih => simp only [unplaced, cost, ih]
  | binary lhs op rhs p ihl ihr => simp only [unplaced, cost, ihl, ihr, links_unplaced]

theorem cost_eq_of_unplaced_eq {e e' : Expr} (h : e'.unplaced = e.unplaced) : e'.cost = e.cost := by
  rw [← cost_unplaced, h, cost_unplaced]

def costs : List Expr → Nat
  | [] => 0
  | e :: rest => max e.cost (costs rest)

theorem forall_cost_le_iff {n m : Nat} (h : n ≤ m) (es : List Expr) :
    (∀ e ∈ es, n + e.cost ≤ m) ↔ n + costs es ≤ m := by
  induction es with
  | nil => simpa [costs] using h
  | cons e es ih =>
    rw [List.forall_mem_cons, ih, costs]
    omega

end Expr

/-! ## Statements -/

namespace Statement

/-- What is printed can be read again: the statement is well shaped and its names and values are printable. -/
structure Printable (s : Statement) : Prop where
  wellShaped : s.WellShaped
  exprs : ∀ e ∈ s.exprs, e.Printable
  target : ∀ x ∈ s.target?, IsName x

def initKinds : Option Expr → List TokenKind
  | none => []
  | some e => .symbol .arrow :: e.kinds

def moreKinds : List Expr → List TokenKind
  | [] => []
  | e :: rest => .symbol .comma :: (e.kinds ++ moreKinds rest)

def listKinds : List Expr → List TokenKind
  | [] => []
  | e :: rest => e.kinds ++ moreKinds rest

end Statement

mutual

def Statement.kinds : Statement → List TokenKind
  | .declaration x type init _ =>
    .keyword (typeKeyword type) :: .name x :: (Statement.initKinds init ++ [.symbol .semicolon])
  | .assignment x value _ => .name x :: (Statement.initKinds (some value) ++ [.symbol .semicolon])
  | .read x _ => [.keyword .leia, .symbol .openParen, .name x, .symbol .closeParen, .symbol .semicolon]
  | .write exprs _ =>
    .keyword .escreva :: .symbol .openParen ::
      (Statement.listKinds exprs ++ [.symbol .closeParen, .symbol .semicolon])
  | .conditional condition thenBlock elseBlock _ =>
    .keyword .se :: .symbol .openParen ::
      (condition.kinds ++ .symbol .closeParen :: (thenBlock.kinds ++ Statement.kindsElse elseBlock))
  | .repetition condition body _ =>
    .keyword .enquanto :: .symbol .openParen :: (condition.kinds ++ .symbol .closeParen :: body.kinds)
  | .block inner => inner.kinds

def Block.kinds : Block → List TokenKind
  | ⟨statements, _⟩ => .symbol .openBrace :: (Statement.kindsAll statements ++ [.symbol .closeBrace])

def Statement.kindsElse : Option Block → List TokenKind
  | none => []
  | some b => .keyword .senao :: b.kinds

def Statement.kindsAll : List Statement → List TokenKind
  | [] => []
  | s :: rest => s.kinds ++ Statement.kindsAll rest

end

mutual

def Statement.unplaced : Statement → Statement
  | .declaration x type init _ => .declaration x type (init.map Expr.unplaced) .start
  | .assignment x value _ => .assignment x value.unplaced .start
  | .read x _ => .read x .start
  | .write exprs _ => .write (exprs.map Expr.unplaced) .start
  | .conditional condition thenBlock elseBlock _ =>
    .conditional condition.unplaced thenBlock.unplaced (Statement.unplacedElse elseBlock) .start
  | .repetition condition body _ => .repetition condition.unplaced body.unplaced .start
  | .block inner => .block inner.unplaced

def Block.unplaced : Block → Block
  | ⟨statements, _⟩ => ⟨Statement.unplacedAll statements, .start⟩

def Statement.unplacedElse : Option Block → Option Block
  | none => none
  | some b => some b.unplaced

def Statement.unplacedAll : List Statement → List Statement
  | [] => []
  | s :: rest => s.unplaced :: Statement.unplacedAll rest

end

mutual

/-- A statement under `n` blocks is not nested too deep: no block of it stands under as many blocks as nesting may
be deep, and no expression of it costs more than the blocks around it leave. -/
def Statement.FitsAt (n : Nat) : Statement → Prop
  | .declaration _ _ init _ => ∀ e ∈ init, n + e.cost ≤ Grammar.maxNesting
  | .assignment _ value _ => n + value.cost ≤ Grammar.maxNesting
  | .read .. => True
  | .write exprs _ => ∀ e ∈ exprs, n + e.cost ≤ Grammar.maxNesting
  | .conditional condition thenBlock elseBlock _ =>
    n + condition.cost ≤ Grammar.maxNesting ∧ thenBlock.FitsAt n ∧ Statement.FitsElse n elseBlock
  | .repetition condition body _ => n + condition.cost ≤ Grammar.maxNesting ∧ body.FitsAt n
  | .block inner => inner.FitsAt n

def Block.FitsAt (n : Nat) : Block → Prop
  | ⟨statements, _⟩ => n ≤ Grammar.maxNesting - 1 ∧ Statement.FitsAll (n + 1) statements

def Statement.FitsElse (n : Nat) : Option Block → Prop
  | none => True
  | some b => b.FitsAt n

def Statement.FitsAll (n : Nat) : List Statement → Prop
  | [] => True
  | s :: rest => s.FitsAt n ∧ Statement.FitsAll n rest

end

namespace Program

def Printable (program : Program) : Prop := ∀ s ∈ program.parts, s.Printable

def kinds (program : Program) : List TokenKind := Statement.kindsAll program.statements

def text (program : Program) : String := String.ofList (spaced program.kinds)

def unplaced (program : Program) : Program := ⟨Statement.unplacedAll program.statements⟩

/-- No block and no expression of the program is nested too deep. -/
def Fits (program : Program) : Prop := Statement.FitsAll 0 program.statements

end Program

/-! ## The nesting that printed statements take -/

mutual

def Statement.nesting : Statement → Nat
  | .declaration _ _ init _ => Expr.costs init.toList
  | .assignment _ value _ => value.cost
  | .read .. => 0
  | .write exprs _ => Expr.costs exprs
  | .conditional condition thenBlock elseBlock _ =>
    max condition.cost (max thenBlock.nesting (Statement.nestingElse elseBlock))
  | .repetition condition body _ => max condition.cost body.nesting
  | .block inner => inner.nesting

def Block.nesting : Block → Nat
  | ⟨statements, _⟩ => Statement.nestingAll statements + 1

def Statement.nestingElse : Option Block → Nat
  | none => 0
  | some b => b.nesting

def Statement.nestingAll : List Statement → Nat
  | [] => 0
  | s :: rest => max s.nesting (Statement.nestingAll rest)

end

mutual

theorem Statement.fitsAt_iff (s : Statement) {n : Nat} (hn : n ≤ Grammar.maxNesting) :
    s.FitsAt n ↔ n + s.nesting ≤ Grammar.maxNesting := by
  match s with
  | .declaration _ _ init _ =>
    rw [Statement.FitsAt, Statement.nesting, ← Expr.forall_cost_le_iff hn]
    simp
  | .assignment .. => rw [Statement.FitsAt, Statement.nesting]
  | .read .. => simpa [Statement.FitsAt, Statement.nesting] using hn
  | .write exprs _ => rw [Statement.FitsAt, Statement.nesting, Expr.forall_cost_le_iff hn]
  | .conditional condition thenBlock elseBlock _ =>
    rw [Statement.FitsAt, Statement.nesting, Block.fitsAt_iff thenBlock hn, Statement.fitsElse_iff elseBlock hn]
    omega
  | .repetition condition body _ =>
    rw [Statement.FitsAt, Statement.nesting, Block.fitsAt_iff body hn]
    omega
  | .block inner => rw [Statement.FitsAt, Statement.nesting, Block.fitsAt_iff inner hn]

theorem Block.fitsAt_iff (b : Block) {n : Nat} (hn : n ≤ Grammar.maxNesting) :
    b.FitsAt n ↔ n + b.nesting ≤ Grammar.maxNesting := by
  match b with
  | ⟨statements, _⟩ =>
    rw [Block.FitsAt, Block.nesting]
    have hpos : 0 < Grammar.maxNesting := by decide
    by_cases hroom : n + 1 ≤ Grammar.maxNesting
    · rw [Statement.fitsAll_iff statements hroom]
      omega
    · omega

theorem Statement.fitsElse_iff (other : Option Block) {n : Nat} (hn : n ≤ Grammar.maxNesting) :
    Statement.FitsElse n other ↔ n + Statement.nestingElse other ≤ Grammar.maxNesting := by
  match other with
  | none => simpa [Statement.FitsElse, Statement.nestingElse] using hn
  | some b => rw [Statement.FitsElse, Statement.nestingElse, Block.fitsAt_iff b hn]

theorem Statement.fitsAll_iff (ss : List Statement) {n : Nat} (hn : n ≤ Grammar.maxNesting) :
    Statement.FitsAll n ss ↔ n + Statement.nestingAll ss ≤ Grammar.maxNesting := by
  match ss with
  | [] => simpa [Statement.FitsAll, Statement.nestingAll] using hn
  | s :: rest =>
    rw [Statement.FitsAll, Statement.nestingAll, Statement.fitsAt_iff s hn, Statement.fitsAll_iff rest hn]
    omega

end

theorem Program.fits_iff (program : Program) :
    program.Fits ↔ Statement.nestingAll program.statements ≤ Grammar.maxNesting := by
  rw [Program.Fits, Statement.fitsAll_iff program.statements (Nat.zero_le _), Nat.zero_add]

end Portugol
