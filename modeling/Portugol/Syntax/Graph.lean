import Portugol.Syntax.Statement

/-! # The graph of a program

A program is drawn as a graph, in text for Graphviz: a node for the program, and below it one for each statement, branch
and expression. A node is written where it is met, with the edge from the node above it, and nodes are counted as they
are written. -/
namespace Portugol

/-- A drawing under way: what is written, and the number of the node that comes next. -/
structure Drawing where
  written : String
  next : Nat

namespace Drawing

/-- A text with another one in place of a character, wherever it occurs. -/
def replace (c : Char) (replacement text : String) : String :=
  String.ofList (text.toList.flatMap fun d => if d = c then replacement.toList else [d])

def escape (label : String) : String :=
  replace '\n' "\\n" (replace '"' "\\\"" (replace '\\' "\\\\" label))

def writeLine (line : String) : StateM Drawing Unit :=
  modify fun d => { d with written := d.written ++ line ++ "\n" }

def edgeFrom (parent : Option Nat) (n : Nat) : StateM Drawing Unit :=
  match parent with
  | some parent => writeLine ("  n" ++ toString parent ++ " -> n" ++ toString n ++ ";")
  | none => return ()

/-- Draws a node and the edge from its parent, and tells its number. -/
def node (parent : Option Nat) (label : String) : StateM Drawing Nat := do
  let n := (← get).next
  modify fun d => { d with next := d.next + 1 }
  writeLine ("  n" ++ toString n ++ " [label=\"" ++ escape label ++ "\"];")
  edgeFrom parent n
  return n

def expression (parent : Nat) : Expr → StateM Drawing Unit
  | .group inner => do
    let n ← node (some parent) "( )"
    expression n inner
  | .binary lhs op rhs _ => do
    let n ← node (some parent) op.spelling
    expression n lhs
    expression n rhs
  | .unary op operand _ => do
    let sign := match op with
      | .not => "!"
      | .negate => "-"
    let n ← node (some parent) sign
    expression n operand
  | leaf => do
    let _ ← node (some parent) leaf.symbolic
    return ()

def expressions (parent : Nat) : List Expr → StateM Drawing Unit
  | [] => return ()
  | e :: rest => do
    expression parent e
    expressions parent rest

mutual

def statement (parent : Nat) : Statement → StateM Drawing Unit
  | .declaration x type init _ => do
    let label := match type with
      | some type => "Declaration " ++ x ++ ": " ++ type.name
      | none => "Declaration " ++ x
    let n ← node (some parent) label
    match init with
    | some init => expression n init
    | none => return ()
  | .assignment x value _ => do
    let n ← node (some parent) ("Assignment " ++ x)
    expression n value
  | .read x _ => do
    let _ ← node (some parent) ("Read " ++ x)
    return ()
  | .write exprs _ => do
    let n ← node (some parent) "Write"
    expressions n exprs
  | .conditional condition thenBlock elseBlock _ => do
    let n ← node (some parent) "Conditional"
    expression n condition
    block n "Then" thenBlock
    match elseBlock with
    | some elseBlock => block n "Else" elseBlock
    | none => return ()
  | .repetition condition body _ => do
    let n ← node (some parent) "Repetition"
    expression n condition
    block n "Block" body
  | .block inner => block parent "Block" inner

def block (parent : Nat) (label : String) : Block → StateM Drawing Unit
  | ⟨inner, _⟩ => do
    let n ← node (some parent) label
    statements n inner

def statements (parent : Nat) : List Statement → StateM Drawing Unit
  | [] => return ()
  | s :: rest => do
    statement parent s
    statements parent rest

end

def program (p : Program) : StateM Drawing Unit := do
  writeLine "digraph AST \x7b"
  writeLine "  node [shape=box];"
  let root ← node none "Program"
  statements root p.statements
  writeLine "\x7d"

end Drawing

/-- The graph of a program, as text for Graphviz. -/
def Program.graph (p : Program) : String := ((Drawing.program p).run ⟨"", 0⟩).2.written

end Portugol
