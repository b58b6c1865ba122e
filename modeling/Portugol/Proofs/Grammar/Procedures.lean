import Portugol.Grammar.Statement

/-! # Reading without bounds

A rule that repeats is given a bound, and where the bound is used up it answers as at the end of the source. Here the
same is read without bounds: a loop goes on while its condition holds, rules call each other as often as it takes, and
whether anything was passed over since a statement was begun is told by positions. Such a procedure need not come to
an end. It is given turns, one for every round of a loop and for every call inside of another one, and if they do not
suffice it has no answer (`Procedure.unfinished`); so a procedure that would go on for ever has none, with whatever
turns.

A procedure reads from whatever can be read from (`Feed`): it asks what is next, goes on to the next token, counts how
deep it is nested, and keeps errors, and does nothing else to what it reads from. -/
namespace Portugol.Grammar

/-- What tokens are read from, one after the other. -/
class Feed (σ : Type) where
  found : σ → Option TokenKind
  position : σ → Position
  next : σ → σ
  depth : σ → Nat
  withDepth : Nat → σ → σ
  keep : Unexpected → σ → σ

instance : Feed Cursor where
  found := Cursor.found
  position := Cursor.position
  next p := { p with unread := p.unread.tail }
  depth := Cursor.depth
  withDepth d p := { p with depth := d }
  keep e p := { p with errors := p.errors.push e }

inductive Answer (σ α : Type) where
  | read (result : α) (after : σ)
  | refused (error : Unexpected) (after : σ)

namespace Answer

variable {σ α : Type}

def after : Answer σ α → σ
  | .read _ t => t
  | .refused _ t => t

def leaving (f : σ → σ) : Answer σ α → Answer σ α
  | .read a t => .read a (f t)
  | .refused e t => .refused e (f t)

end Answer

/-- A rule that may still be at work when its turns are used up. -/
structure Procedure (σ α : Type) where
  run : σ → Option (Answer σ α)

namespace Procedure

variable {σ α : Type}

/-- One procedure after the other; the first that fails, or is still at work, decides. -/
instance : Monad (Procedure σ) where
  pure a := ⟨fun s => some (.read a s)⟩
  bind proc next := ⟨fun s => (proc.run s).bind fun
    | .read a t => (next a).run t
    | .refused e t => some (.refused e t)⟩

def unfinished : Procedure σ α := ⟨fun _ => none⟩

def fail (e : Unexpected) : Procedure σ α := ⟨fun s => some (.refused e s)⟩

def caught (proc : Procedure σ α) : Procedure σ (Except Unexpected α) := ⟨fun s => (proc.run s).map fun
  | .read a t => .read (.ok a) t
  | .refused e t => .read (.error e) t⟩

variable [Feed σ]

/-! ## What is done to a feed -/

def peek : Procedure σ (Option TokenKind) := ⟨fun s => some (.read (Feed.found s) s)⟩

def here : Procedure σ Position := ⟨fun s => some (.read (Feed.position s) s)⟩

def nesting : Procedure σ Nat := ⟨fun s => some (.read (Feed.depth s) s)⟩

def keep (e : Unexpected) : Procedure σ Unit := ⟨fun s => some (.read () (Feed.keep e s))⟩

def advance : Procedure σ Position := ⟨fun s => some (.read (Feed.position s) (Feed.next s))⟩

def complaint (expected : Expectation) : Procedure σ Unexpected := do
  return ⟨expected, ← peek, ← here⟩

def refuse (expected : Expectation) : Procedure σ α := do
  fail (← complaint expected)

def skip : Procedure σ Unit := do
  let _ ← advance
  return ()

def expect (kind : TokenKind) : Procedure σ Position := do
  if (← peek) = some kind then advance else refuse (.token kind)

def name : Procedure σ String := do
  match ← peek with
  | some (.name x) => do
    let _ ← advance
    return x
  | _ => refuse .name

def nested (proc : Procedure σ α) : Procedure σ α := ⟨fun s =>
  if Feed.depth s < maxNesting then
    (proc.run (Feed.withDepth (Feed.depth s + 1) s)).map (Answer.leaving fun t => Feed.withDepth (Feed.depth t - 1) t)
  else (refuse .shallowerNesting).run s⟩

def descend : Procedure σ Position := ⟨fun s =>
  if Feed.depth s < maxNesting then advance.run (Feed.withDepth (Feed.depth s + 1) s)
  else (refuse .shallowerNesting).run s⟩

def restoringDepth (proc : Procedure σ α) : Procedure σ α := ⟨fun s =>
  (proc.run s).map (Answer.leaving (Feed.withDepth (Feed.depth s)))⟩

/-! ## Expressions -/

def fold (level : Level) (operand : Procedure σ Expr) : Nat → Expr → Procedure σ Expr
  | 0, _ => unfinished
  | turns + 1, lhs => do
    match operator? level (← peek) with
    | none => return lhs
    | some op =>
      let place ← descend
      let rhs ← operand
      fold level operand turns (.binary lhs op rhs place)

def chain (level : Level) (operand : Procedure σ Expr) (turns : Nat) : Procedure σ Expr := do
  let lhs ← operand
  restoringDepth (fold level operand turns lhs)

def operand (factor : Procedure σ Expr) (turns : Nat) : Level → Procedure σ Expr
  | .term => factor
  | .sum => chain .term factor turns
  | .comparison => chain .sum (chain .term factor turns) turns
  | .logic => chain .comparison (chain .sum (chain .term factor turns) turns) turns

def chains (factor : Procedure σ Expr) (turns : Nat) : Procedure σ Expr :=
  chain .logic (operand factor turns .logic) turns

def group (inner : Procedure σ Expr) : Procedure σ Expr := do
  let _ ← advance
  let inner ← inner
  let _ ← expect (.symbol .closeParen)
  return .group inner

def operation (op : UnaryOp) (operand : Procedure σ Expr) : Procedure σ Expr := do
  let place ← advance
  return .unary op (← operand) place

def factor : Nat → Procedure σ Expr
  | 0 => unfinished
  | turns + 1 => do
    match FactorStart.of (← peek) with
    | .literal value => return .literal value (← advance)
    | .name x => return .name x (← advance)
    | .group => nested (group (chains (factor turns) turns))
    | .unary op => nested (operation op (factor turns))
    | .other => refuse .expression

def expression (turns : Nat) : Procedure σ Expr := chains (factor turns) turns

/-! ## Statements -/

def initializer (turns : Nat) : Procedure σ (Option Expr) := do
  if isAssignment (← peek) then
    let _ ← advance
    return some (← expression turns)
  else return none

def declaration (turns : Nat) (type : Option DataType) : Procedure σ Statement := do
  let place ← advance
  let x ← name
  let init ← initializer turns
  let _ ← expect (.symbol .semicolon)
  return .declaration x type init place

def assignment (turns : Nat) (x : String) : Procedure σ Statement := do
  let place ← advance
  if isAssignment (← peek) then
    let _ ← advance
    let value ← expression turns
    let _ ← expect (.symbol .semicolon)
    return .assignment x value place
  else refuse .assignment

def read : Procedure σ Statement := do
  let place ← advance
  let _ ← expect (.symbol .openParen)
  let x ← name
  let _ ← expect (.symbol .closeParen)
  let _ ← expect (.symbol .semicolon)
  return .read x place

def moreExpressions : Nat → Procedure σ (List Expr)
  | 0 => unfinished
  | turns + 1 => do
    if (← peek) = some (.symbol .comma) then
      let _ ← advance
      let e ← expression turns
      return e :: (← moreExpressions turns)
    else return []

def write (turns : Nat) : Procedure σ Statement := do
  let place ← advance
  let _ ← expect (.symbol .openParen)
  let first ← expression turns
  let more ← moreExpressions turns
  let _ ← expect (.symbol .closeParen)
  let _ ← expect (.symbol .semicolon)
  return .write (first :: more) place

def condition (turns : Nat) : Procedure σ Expr := do
  let _ ← expect (.symbol .openParen)
  let e ← expression turns
  let _ ← expect (.symbol .closeParen)
  return e

def synchronize : Nat → Procedure σ Unit
  | 0 => unfinished
  | turns + 1 => do
    match ← peek with
    | none => return ()
    | some kind =>
      if kind = .symbol .closeBrace then
        if (← nesting) = 0 then skip else return ()
      else if kind = .symbol .openBrace then return ()
      else if kind = .symbol .semicolon then skip
      else if kind.startsStatement then return ()
      else
        skip
        synchronize turns

/-- Passes over the group that is opened next, when `opened` groups are open already. -/
def skipGroup (opened : Nat) : Nat → Procedure σ Unit
  | 0 => unfinished
  | turns + 1 => do
    match ← peek with
    | none => return ()
    | some kind =>
      skip
      if kind = .symbol .openBrace then skipGroup (opened + 1) turns
      else if kind = .symbol .closeBrace then
        if opened ≤ 1 then return () else skipGroup (opened - 1) turns
      else skipGroup opened turns

/-- Keeps the error of a statement and goes on to the next boundary, or behind it if the statement began there. -/
def giveUp (start : Position) (e : Unexpected) (turns : Nat) : Procedure σ (Option Statement) := do
  keep e
  synchronize turns
  if (← here) = start ∧ (← peek) ≠ none then skip
  return none

def attempt (proc : Procedure σ Statement) (turns : Nat) : Procedure σ (Option Statement) := do
  let start ← here
  match ← caught proc with
  | .ok s => return some s
  | .error e => giveUp start e turns

def many (ends : Option TokenKind → Bool) (step : Procedure σ (Option Statement)) : Nat → Procedure σ (List Statement)
  | 0 => unfinished
  | turns + 1 => do
    if ends (← peek) then return []
    else
      let first ← step
      let more ← many ends step turns
      return first.toList ++ more

def braced (step : Procedure σ (Option Statement)) (turns : Nat) : Procedure σ Block := do
  let place ← expect (.symbol .openBrace)
  let statements ← many endsBlock step turns
  let _ ← expect (.symbol .closeBrace)
  return ⟨statements, place⟩

def block (step : Procedure σ (Option Statement)) (turns : Nat) : Procedure σ Block := do
  if maxNesting ≤ (← nesting) ∧ (← peek) = some (.symbol .openBrace) then
    let e ← complaint .shallowerNesting
    skipGroup 0 turns
    fail e
  else nested (braced step turns)

def otherwise (inner : Procedure σ Block) (conditional : Procedure σ Statement) : Procedure σ (Option Block) := do
  if (← peek) = some (.keyword .senao) then
    let place ← advance
    if (← peek) = some (.keyword .se) then return some ⟨[← conditional], place⟩
    else return some (← inner)
  else return none

def conditional (turns : Nat) (inner : Procedure σ Block) (again : Procedure σ Statement) : Procedure σ Statement := do
  let place ← advance
  let test ← condition turns
  let thenBlock ← inner
  let elseBlock ← otherwise inner again
  return .conditional test thenBlock elseBlock place

def repetition (turns : Nat) (inner : Procedure σ Block) : Procedure σ Statement := do
  let place ← advance
  let test ← condition turns
  let body ← inner
  return .repetition test body place

def statement : Nat → Procedure σ Statement
  | 0 => unfinished
  | turns + 1 => do
    let inner := block (attempt (statement turns) turns) turns
    match StatementStart.of (← peek) with
    | .declaration type => declaration turns type
    | .assignment x => assignment turns x
    | .read => read
    | .write => write turns
    | .conditional => conditional turns inner (statement turns)
    | .repetition => repetition turns inner
    | .block => return .block (← inner)
    | .other => refuse .statement

def step (turns : Nat) : Procedure σ (Option Statement) := attempt (statement turns) turns

def statements (ends : Option TokenKind → Bool) (turns : Nat) : Procedure σ (List Statement) :=
  many ends (step turns) turns

end Procedure
end Portugol.Grammar
