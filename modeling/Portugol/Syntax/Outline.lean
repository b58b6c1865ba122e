import Portugol.Syntax.Statement

/-! # The outline of a program

An outline shows every field of a program, one to a line and indented by its depth. It is built in two steps:
a program is turned into nested items, and the items are laid out. -/
namespace Portugol

/-- Something to lay out: a word, or a name or nothing before a bracketed list of parts, each of which may
carry the name of a field. -/
inductive Outline where
  | word (text : String)
  | parts (name opening closing : String) (items : List (String × Outline))

namespace Outline

mutual

/-- The lines of an item; every line after the first is indented by so many steps of four. -/
def layOut (depth : Nat) : Outline → String
  | .word text => text
  | .parts name opening closing [] => name ++ opening ++ closing
  | .parts name opening closing (item :: items) =>
    name ++ opening ++ "\n" ++ layOutParts (depth + 1) (item :: items) ++ "".pushn ' ' (4 * depth) ++ closing

/-- The lines of the parts, each ended by a comma. -/
def layOutParts (depth : Nat) : List (String × Outline) → String
  | [] => ""
  | (label, item) :: items =>
    "".pushn ' ' (4 * depth) ++ label ++ layOut depth item ++ ",\n" ++ layOutParts depth items

end

/-- An item with named fields, one with arguments, and a list. -/
def fields (name : String) (items : List (String × Outline)) : Outline :=
  .parts (name ++ " ") "\x7b" "\x7d" (items.map fun (label, item) => (label ++ ": ", item))

def call (name : String) (arguments : List Outline) : Outline :=
  .parts name "(" ")" (arguments.map fun item => ("", item))

def list (items : List Outline) : Outline := .parts "" "[" "]" (items.map fun item => ("", item))

def optional (item : Option Outline) : Outline :=
  match item with
  | none => .word "None"
  | some item => call "Some" [item]

def quoted (text : String) : Outline := .word (Text.Quoted.quote text)

def ofNat (n : Nat) : Outline := .word (toString n)

end Outline

open Outline

def Position.outline (p : Position) : Outline :=
  fields "Position" [("line", ofNat p.line), ("column", ofNat p.column)]

def DataType.outline : DataType → Outline
  | .integer => .word "Inteiro"
  | .real => .word "Real"
  | .boolean => .word "Booleano"
  | .text => .word "Texto"

def Value.outline : Value → Outline
  | .undefined => .word "Undefined"
  | .integer n => call "Integer" [.word (Integer.render n)]
  | .real x => call "Float" [.word (Decimal.exactText x)]
  | .boolean b => call "Boolean" [.word (toString b)]
  | .text s => call "String" [quoted s]

def BinaryOp.outline : BinaryOp → Outline
  | .logic .and => .word "And"
  | .logic .or => .word "Or"
  | .equality .equal => .word "Equal"
  | .equality .notEqual => .word "NotEqual"
  | .order .less => .word "Less"
  | .order .lessEqual => .word "LessEqual"
  | .order .greater => .word "Greater"
  | .order .greaterEqual => .word "GreaterEqual"
  | .arithmetic .add => .word "Add"
  | .arithmetic .subtract => .word "Subtract"
  | .arithmetic .multiply => .word "Multiply"
  | .arithmetic .divide => .word "Divide"
  | .arithmetic .modulo => .word "Modulo"

def UnaryOp.outline : UnaryOp → Outline
  | .negate => .word "Negate"
  | .not => .word "Not"

def Expr.outline : Expr → Outline
  | .literal value p => call "Literal" [value.outline, p.outline]
  | .name x p => call "Variable" [quoted x, p.outline]
  | .group inner => call "Grouping" [inner.outline]
  | .unary op operand p => call "Unary" [op.outline, operand.outline, p.outline]
  | .binary lhs op rhs p => call "Binary" [lhs.outline, op.outline, rhs.outline, p.outline]

mutual

def Statement.outline : Statement → Outline
  | .declaration x type init p =>
    fields "Declaration" [("name", quoted x), ("ty", optional (type.map DataType.outline)),
      ("init", optional (init.map Expr.outline)), ("pos", p.outline)]
  | .assignment x value p =>
    fields "Assignment" [("name", quoted x), ("value", value.outline), ("pos", p.outline)]
  | .read x p => fields "Read" [("name", quoted x), ("pos", p.outline)]
  | .write exprs p => fields "Write" [("exprs", list (exprs.map Expr.outline)), ("pos", p.outline)]
  | .conditional condition thenBlock none p =>
    fields "Conditional" [("cond", condition.outline), ("then_block", thenBlock.outline),
      ("else_block", optional none), ("pos", p.outline)]
  | .conditional condition thenBlock (some elseBlock) p =>
    fields "Conditional" [("cond", condition.outline), ("then_block", thenBlock.outline),
      ("else_block", optional (some elseBlock.outline)), ("pos", p.outline)]
  | .repetition condition body p =>
    fields "Repetition" [("cond", condition.outline), ("body", body.outline), ("pos", p.outline)]
  | .block inner => call "Block" [inner.outline]

def Block.outline : Block → Outline
  | ⟨statements, p⟩ => fields "Block" [("statements", list (Statement.outlines statements)), ("pos", p.outline)]

def Statement.outlines : List Statement → List Outline
  | [] => []
  | s :: rest => s.outline :: Statement.outlines rest

end

def Program.outline (program : Program) : String :=
  (fields "Program" [("statements", list (Statement.outlines program.statements))]).layOut 0

end Portugol
