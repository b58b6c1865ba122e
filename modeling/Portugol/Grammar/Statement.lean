import Portugol.Grammar.Expression

/-! # Reading statements

A statement that cannot be read is given up: its error is kept, the tokens up to the next boundary between
statements are passed over, and reading goes on there. A block that lies too deep is passed over whole, so that
it costs one error whatever it holds. -/
namespace Portugol.Grammar

/-- The type that a word declares; `var` declares a variable without one. -/
def declaredType? : Keyword → Option (Option DataType)
  | .var => some none
  | .inteiro => some (some .integer)
  | .real => some (some .real)
  | .booleano => some (some .boolean)
  | .texto => some (some .text)
  | _ => none

def isAssignment (found : Option TokenKind) : Bool :=
  found = some (.symbol .arrow) || found = some (.symbol .becomes)

def initializer (bound : Nat) : Rule (Option Expr) := do
  if isAssignment (← peek) then
    let _ ← advance
    return some (← expression bound)
  else return none

def declaration (bound : Nat) (type : Option DataType) : Rule Statement := do
  let place ← advance
  let x ← name
  let init ← initializer bound
  let _ ← expect (.symbol .semicolon)
  return .declaration x type init place

def assignment (bound : Nat) (x : String) : Rule Statement := do
  let place ← advance
  if isAssignment (← peek) then
    let _ ← advance
    let value ← expression bound
    let _ ← expect (.symbol .semicolon)
    return .assignment x value place
  else refuse .assignment

def read : Rule Statement := do
  let place ← advance
  let _ ← expect (.symbol .openParen)
  let x ← name
  let _ ← expect (.symbol .closeParen)
  let _ ← expect (.symbol .semicolon)
  return .read x place

def moreExpressions : Nat → Rule (List Expr)
  | 0 => pure []
  | bound + 1 => do
    if (← peek) = some (.symbol .comma) then
      let _ ← advance
      let e ← expression bound
      return e :: (← moreExpressions bound)
    else return []

def write (bound : Nat) : Rule Statement := do
  let place ← advance
  let _ ← expect (.symbol .openParen)
  let first ← expression bound
  let more ← moreExpressions bound
  let _ ← expect (.symbol .closeParen)
  let _ ← expect (.symbol .semicolon)
  return .write (first :: more) place

def condition (bound : Nat) : Rule Expr := do
  let _ ← expect (.symbol .openParen)
  let e ← expression bound
  let _ ← expect (.symbol .closeParen)
  return e

/-- The tokens from the next boundary between statements on: behind a semicolon, or before a token that opens
or closes a block or begins a statement. A closing brace outside every block closes nothing and is passed over. -/
def fromBoundary (depth : Nat) : List Token → List Token
  | [] => []
  | t :: rest =>
    if t.kind = .symbol .closeBrace then if depth = 0 then rest else t :: rest
    else if t.kind = .symbol .openBrace then t :: rest
    else if t.kind = .symbol .semicolon then rest
    else if t.kind.startsStatement then t :: rest
    else fromBoundary depth rest

/-- The tokens behind the group that is opened next, when `opened` groups are open already. -/
def behindGroup (opened : Nat) : List Token → List Token
  | [] => []
  | t :: rest =>
    if t.kind = .symbol .openBrace then behindGroup (opened + 1) rest
    else if t.kind = .symbol .closeBrace then if opened ≤ 1 then rest else behindGroup (opened - 1) rest
    else behindGroup opened rest

/-- Reads a statement, or keeps its error and goes on to the next boundary, at least one token further. -/
def attempt (rule : Rule Statement) (p : Cursor) : Option Statement × Cursor :=
  match rule.run p with
  | .read s q => (some s, q)
  | .refused e q =>
    let rest := fromBoundary q.depth q.unread
    let rest := if rest.length = p.unread.length then rest.tail else rest
    (none, { q with unread := rest, errors := q.errors.push e })

/-- The statements up to a token at which they end; those that were given up are left out. -/
def many (ends : Option TokenKind → Bool) (step : Cursor → Option Statement × Cursor) :
    Nat → Cursor → List Statement × Cursor
  | 0, p => ([], p)
  | bound + 1, p =>
    if ends p.found then ([], p)
    else
      let first := step p
      let more := many ends step bound first.2
      (first.1.toList ++ more.1, more.2)

/-- A step that always succeeds, as a rule. -/
def gather {α : Type} (step : Cursor → α × Cursor) : Rule α := ⟨fun p => .read (step p).1 (step p).2⟩

def endsBlock (found : Option TokenKind) : Bool := found = none || found = some (.symbol .closeBrace)
def endsProgram (found : Option TokenKind) : Bool := found = none

def braced (step : Cursor → Option Statement × Cursor) (bound : Nat) : Rule Block := do
  let place ← expect (.symbol .openBrace)
  let statements ← gather (many endsBlock step bound)
  let _ ← expect (.symbol .closeBrace)
  return ⟨statements, place⟩

/-- A block over given statements; one that lies too deep is passed over whole. -/
def block (step : Cursor → Option Statement × Cursor) (bound : Nat) : Rule Block := ⟨fun p =>
  if maxNesting ≤ p.depth ∧ p.found = some (.symbol .openBrace) then
    .refused (p.unexpected .shallowerNesting) { p with unread := behindGroup 0 p.unread }
  else (nested (braced step bound)).run p⟩

/-- What is done otherwise: a block, or one more conditional, which then is the only statement of a block. -/
def otherwise (inner : Rule Block) (conditional : Rule Statement) : Rule (Option Block) := do
  if (← peek) = some (.keyword .senao) then
    let place ← advance
    if (← peek) = some (.keyword .se) then return some ⟨[← conditional], place⟩
    else return some (← inner)
  else return none

def conditional (bound : Nat) (inner : Rule Block) (again : Rule Statement) : Rule Statement := do
  let place ← advance
  let test ← condition bound
  let thenBlock ← inner
  let elseBlock ← otherwise inner again
  return .conditional test thenBlock elseBlock place

def repetition (bound : Nat) (inner : Rule Block) : Rule Statement := do
  let place ← advance
  let test ← condition bound
  let body ← inner
  return .repetition test body place

inductive StatementStart where
  | declaration (type : Option DataType)
  | assignment (x : String)
  | read
  | write
  | conditional
  | repetition
  | block
  | other

def StatementStart.of : Option TokenKind → StatementStart
  | some (.name x) => .assignment x
  | some (.symbol .openBrace) => .block
  | some (.keyword .leia) => .read
  | some (.keyword .escreva) => .write
  | some (.keyword .se) => .conditional
  | some (.keyword .enquanto) => .repetition
  | some (.keyword k) => (declaredType? k).elim .other .declaration
  | _ => .other

/-- A statement, of a source with at most that many unread tokens. -/
def statement : Nat → Rule Statement
  | 0 => refuse .statement
  | bound + 1 => do
    let inner := block (attempt (statement bound)) bound
    match StatementStart.of (← peek) with
    | .declaration type => declaration bound type
    | .assignment x => assignment bound x
    | .read => read
    | .write => write bound
    | .conditional => conditional bound inner (statement bound)
    | .repetition => repetition bound inner
    | .block => return .block (← inner)
    | .other => refuse .statement

def statements (p : Cursor) : List Statement × Cursor :=
  many endsProgram (attempt (statement p.unread.length)) p.unread.length p

end Portugol.Grammar
