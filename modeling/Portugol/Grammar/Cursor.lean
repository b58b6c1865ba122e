import Portugol.Syntax.Statement
import Portugol.Token.Scan

/-! # Reading tokens in order

A cursor stands before the tokens that are not yet read. It counts how deep the rule at work is nested, and
it gathers the errors of statements that were given up. A rule reads from a cursor: it leaves the cursor
behind what it has read, whether it succeeds or fails. -/
namespace Portugol.Grammar

/-- How deep blocks, groups, unary operators and folded operators may lie in each other. -/
def maxNesting : Nat := 100

inductive Expectation where
  | token (kind : TokenKind)
  | name
  | assignment
  | statement
  | expression
  | shallowerNesting
deriving DecidableEq

def Expectation.describe : Expectation → String
  | .token kind => kind.describe
  | .name => "identifier"
  | .assignment => "'<-' or '='"
  | .statement => "a statement"
  | .expression => "an expression"
  | .shallowerNesting => "shallower nesting"

/-- A token, or the end of the source, where something else was asked for. -/
structure Unexpected where
  expected : Expectation
  found : Option TokenKind
  position : Position
deriving DecidableEq

def Unexpected.message (e : Unexpected) : String :=
  s!"Expected {e.expected.describe} but found {describeFound e.found} on {e.position.describe}."

structure Cursor where
  unread : List Token
  stop : Position
  depth : Nat
  errors : Array Unexpected

namespace Cursor

/-- Before the first token, outside every block. -/
def start (tokens : List Token) (stop : Position) : Cursor := ⟨tokens, stop, 0, #[]⟩

/-- What the next token stands for; at the end of the source there is none. -/
def found (p : Cursor) : Option TokenKind := p.unread.head?.map Token.kind

/-- Where the next token begins, or where the source ends. -/
def position (p : Cursor) : Position := (p.unread.head?.map Token.position).getD p.stop

def unexpected (p : Cursor) (expected : Expectation) : Unexpected := ⟨expected, p.found, p.position⟩

end Cursor

inductive Reply (α : Type) where
  | read (result : α) (after : Cursor)
  | refused (error : Unexpected) (after : Cursor)

def Reply.after {α : Type} : Reply α → Cursor
  | .read _ q => q
  | .refused _ q => q

def Reply.leaving {α : Type} (f : Cursor → Cursor) : Reply α → Reply α
  | .read a q => .read a (f q)
  | .refused e q => .refused e (f q)

/-- A rule reads from a cursor, or fails with what it did not expect. -/
structure Rule (α : Type) where
  run : Cursor → Reply α

namespace Rule

/-- One rule after the other; the first that fails decides. -/
instance : Monad Rule where
  pure a := ⟨fun p => .read a p⟩
  bind rule next := ⟨fun p =>
    match rule.run p with
    | .read a q => (next a).run q
    | .refused e q => .refused e q⟩

@[simp] theorem run_pure {α : Type} (a : α) (p : Cursor) : (pure a : Rule α).run p = .read a p := rfl

theorem run_bind {α β : Type} (rule : Rule α) (next : α → Rule β) (p : Cursor) :
    (rule >>= next).run p =
      match rule.run p with
      | .read a q => (next a).run q
      | .refused e q => .refused e q := rfl

end Rule

def refuse {α : Type} (expected : Expectation) : Rule α := ⟨fun p => .refused (p.unexpected expected) p⟩

def peek : Rule (Option TokenKind) := ⟨fun p => .read p.found p⟩

/-- Passes over the next token and tells where it was; at the end of the source it stays. -/
def advance : Rule Position := ⟨fun p => .read p.position { p with unread := p.unread.tail }⟩

/-- Reads a token that stands for `kind`, and nothing else. -/
def expect (kind : TokenKind) : Rule Position := do
  if (← peek) = some kind then advance else refuse (.token kind)

def name : Rule String := do
  match ← peek with
  | some (.name x) => do
    let _ ← advance
    return x
  | _ => refuse .name

/-- Works one level deeper, unless that is too deep. -/
def nested {α : Type} (rule : Rule α) : Rule α := ⟨fun p =>
  if p.depth < maxNesting then
    (rule.run { p with depth := p.depth + 1 }).leaving fun q => { q with depth := q.depth - 1 }
  else (refuse .shallowerNesting).run p⟩

end Portugol.Grammar
