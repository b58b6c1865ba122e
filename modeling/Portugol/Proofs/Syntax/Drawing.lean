import Portugol.Syntax.Graph

/-! # Drawing a program draws its tree

A program is a tree of labelled nodes: one for the program, and one for each statement, branch and expression. What
is drawn below a node are the lines of trees, numbered on from the node that comes next, and as many numbers are used
up as the trees have nodes (`Drawing.Draws`). Each statement and each expression draws its own tree, so a program
draws the lines of its tree (`Program.graph_eq`). -/
namespace Portugol

inductive Tree where
  | node (label : String) (children : List Tree)

namespace Tree

mutual

def size : Tree → Nat
  | .node _ children => 1 + sizes children

def sizes : List Tree → Nat
  | [] => 0
  | t :: rest => t.size + sizes rest

end

end Tree

def Expr.tree : Expr → Tree
  | .group inner => .node "( )" [inner.tree]
  | .unary op operand _ => .node op.spelling [operand.tree]
  | .binary lhs op rhs _ => .node op.spelling [lhs.tree, rhs.tree]
  | .literal value _ => .node (Expr.literalText value) []
  | .name x _ => .node x []

mutual

def Statement.tree : Statement → Tree
  | .declaration x type init _ =>
    .node ("Declaration " ++ x ++ (type.map fun t => ": " ++ t.name).getD "") (init.map Expr.tree).toList
  | .assignment x value _ => .node ("Assignment " ++ x) [value.tree]
  | .read x _ => .node ("Read " ++ x) []
  | .write exprs _ => .node "Write" (exprs.map Expr.tree)
  | .conditional condition thenBlock none _ => .node "Conditional" [condition.tree, thenBlock.tree "Then"]
  | .conditional condition thenBlock (some elseBlock) _ =>
    .node "Conditional" [condition.tree, thenBlock.tree "Then", elseBlock.tree "Else"]
  | .repetition condition body _ => .node "Repetition" [condition.tree, body.tree "Block"]
  | .block inner => inner.tree "Block"

/-- The node of a block, with the label for its role. -/
def Block.tree : Block → String → Tree
  | ⟨statements, _⟩, label => .node label (Statement.trees statements)

def Statement.trees : List Statement → List Tree
  | [] => []
  | s :: rest => s.tree :: Statement.trees rest

end

def Program.tree (program : Program) : Tree := .node "Program" (Statement.trees program.statements)

/-! ## The lines of a tree -/

namespace Tree

def nodeLine (n : Nat) (label : String) : String :=
  "  n" ++ toString n ++ " [label=\"" ++ Drawing.escape label ++ "\"];"

def edgeLine (parent n : Nat) : String := "  n" ++ toString parent ++ " -> n" ++ toString n ++ ";"

mutual

/-- The lines of a tree whose root has number `n`. -/
def lines (parent : Option Nat) (n : Nat) : Tree → List String
  | .node label children =>
    nodeLine n label :: ((parent.map fun m => edgeLine m n).toList ++ childLines n (n + 1) children)

/-- The lines of the children of a node, the first of which has number `n`. -/
def childLines (parent n : Nat) : List Tree → List String
  | [] => []
  | t :: rest => lines (some parent) n t ++ childLines parent (n + t.size) rest

end

theorem childLines_append (parent n : Nat) (ts us : List Tree) :
    childLines parent n (ts ++ us) = childLines parent n ts ++ childLines parent (n + sizes ts) us := by
  induction ts generalizing n with
  | nil => rfl
  | cons t ts ih => rw [List.cons_append, childLines, childLines, sizes, ih, List.append_assoc, Nat.add_assoc]

theorem sizes_append (ts us : List Tree) : sizes (ts ++ us) = sizes ts + sizes us := by
  induction ts with
  | nil => rw [List.nil_append, sizes, Nat.zero_add]
  | cons t ts ih => rw [List.cons_append, sizes, sizes, ih, Nat.add_assoc]

end Tree

/-! ## Drawing -/

namespace Drawing

open Portugol.Tree (childLines sizes nodeLine edgeLine)

variable {α β : Type} {parent : Nat} {action action' : StateM Drawing Unit} {ts us : List Tree}

/-- A drawing with more lines, for so many more nodes. -/
def extended (d : Drawing) (lines : List String) (count : Nat) : Drawing :=
  ⟨d.written ++ String.join (lines.map (· ++ "\n")), d.next + count⟩

theorem extended_nil (d : Drawing) : d.extended [] 0 = d := by
  simp [extended]

theorem extended_extended (d : Drawing) (lines lines' : List String) (m n : Nat) :
    (d.extended lines m).extended lines' n = d.extended (lines ++ lines') (m + n) := by
  simp [extended, String.append_assoc, Nat.add_assoc]

theorem run_bind (action : StateM Drawing α) (next : α → StateM Drawing β) (d : Drawing) :
    (action >>= next).run d = (next (action.run d).1).run (action.run d).2 := rfl

theorem run_writeLine (line : String) (d : Drawing) : (writeLine line).run d = ((), d.extended [line] 0) := by
  have hrun : (writeLine line).run d = ((), { d with written := d.written ++ line ++ "\n" }) := rfl
  simp [hrun, extended, String.append_assoc]

theorem run_edgeFrom (parent : Option Nat) (n : Nat) (d : Drawing) :
    (edgeFrom parent n).run d = ((), d.extended (parent.map fun m => edgeLine m n).toList 0) := by
  cases parent with
  | none => exact congrArg (Prod.mk ()) (extended_nil d).symm
  | some m => exact run_writeLine _ d

theorem run_node (parent : Option Nat) (label : String) (d : Drawing) : (node parent label).run d =
    (d.next, d.extended (nodeLine d.next label :: (parent.map fun m => edgeLine m d.next).toList) 1) := by
  let counted : Drawing := { d with next := d.next + 1 }
  have hrun : (node parent label).run d =
      (d.next, ((edgeFrom parent d.next).run ((writeLine (nodeLine d.next label)).run counted).2).2) := rfl
  rw [hrun, run_writeLine, run_edgeFrom, extended_extended]
  simp [extended, counted]

/-- Below a node of a drawing these trees are drawn. -/
def Draws (parent : Nat) (action : StateM Drawing Unit) (ts : List Tree) : Prop :=
  ∀ d : Drawing, action.run d = ((), d.extended (childLines parent d.next ts) (sizes ts))

theorem draws_nil : Draws parent (pure ()) [] := fun d => congrArg (Prod.mk ()) (extended_nil d).symm

theorem draws_append (h : Draws parent action ts) (h' : Draws parent action' us) :
    Draws parent (action >>= fun _ => action') (ts ++ us) := by
  intro d
  rw [run_bind, h d, h', extended_extended, Tree.childLines_append, Tree.sizes_append]
  rfl

theorem draws_node {rest : Nat → StateM Drawing Unit} (label : String) (h : ∀ n, Draws n (rest n) ts) :
    Draws parent (node (some parent) label >>= rest) [.node label ts] := by
  intro d
  rw [run_bind, run_node, h, extended_extended]
  simp only [childLines, Tree.lines, sizes, Tree.size, extended, Option.map_some, Option.toList_some,
    List.append_nil, List.cons_append, List.nil_append, Nat.add_zero]

theorem draws_expression (parent : Nat) (e : Expr) : Draws parent (expression parent e) [e.tree] := by
  induction e generalizing parent with
  | group inner ih => exact draws_node _ fun n => ih n
  | unary op operand _ ih =>
    cases op <;> exact draws_node _ fun n => ih n
  | binary lhs op rhs _ ihl ihr => exact draws_node _ fun n => draws_append (ihl n) (ihr n)
  | literal | name => exact draws_node _ fun _ => draws_nil

theorem draws_expressions (parent : Nat) (es : List Expr) :
    Draws parent (expressions parent es) (es.map Expr.tree) := by
  induction es with
  | nil => exact draws_nil
  | cons e es ih => exact draws_append (draws_expression parent e) ih

mutual

theorem draws_statement (parent : Nat) : ∀ s : Statement, Draws parent (statement parent s) [s.tree]
  | .declaration x type init _ => by
    have hlabel : "Declaration " ++ x ++ (type.map fun t => ": " ++ t.name).getD "" =
        match type with
        | some type => "Declaration " ++ x ++ ": " ++ type.name
        | none => "Declaration " ++ x := by
      cases type <;> simp [String.append_assoc]
    rw [Statement.tree, hlabel]
    cases init with
    | none => exact draws_node _ fun _ => draws_nil
    | some init => exact draws_node _ fun n => draws_expression n init
  | .assignment _ value _ => draws_node _ fun n => draws_expression n value
  | .read _ _ => draws_node _ fun _ => draws_nil
  | .write exprs _ => draws_node _ fun n => draws_expressions n exprs
  | .conditional condition thenBlock none _ => draws_node _ fun n =>
    draws_append (draws_expression n condition) (draws_append (draws_block n "Then" thenBlock) draws_nil)
  | .conditional condition thenBlock (some elseBlock) _ => draws_node _ fun n =>
    draws_append (draws_expression n condition)
      (draws_append (draws_block n "Then" thenBlock) (draws_block n "Else" elseBlock))
  | .repetition condition body _ => draws_node _ fun n =>
    draws_append (draws_expression n condition) (draws_block n "Block" body)
  | .block inner => draws_block parent "Block" inner

theorem draws_block (parent : Nat) (label : String) : ∀ b : Block, Draws parent (block parent label b) [b.tree label]
  | ⟨inner, _⟩ => draws_node label fun n => draws_statements n inner

theorem draws_statements (parent : Nat) :
    ∀ ss : List Statement, Draws parent (statements parent ss) (Statement.trees ss)
  | [] => draws_nil
  | s :: rest => draws_append (draws_statement parent s) (draws_statements parent rest)

end

end Drawing

/-- What is drawn of a program are the lines of its tree, between those that every graph has. -/
theorem Program.graph_eq (program : Program) : program.graph =
    String.join ((["digraph AST \x7b", "  node [shape=box];"] ++ program.tree.lines none 0 ++ ["\x7d"]).map
      (· ++ "\n")) := by
  rw [graph, Drawing.program, Drawing.run_bind, Drawing.run_writeLine, Drawing.run_bind, Drawing.run_writeLine,
    Drawing.run_bind, Drawing.run_node, Drawing.run_bind, Drawing.draws_statements, Drawing.run_writeLine]
  simp only [Drawing.extended_extended]
  simp only [Drawing.extended, Program.tree, Tree.lines]
  exact String.empty_append

end Portugol
