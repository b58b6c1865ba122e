import Portugol.Grammar.Statement

/-! # Reading programs

A source is a program if it has neither lexical errors nor statements that had to be given up. Otherwise all
of its errors are reported, in the order of their positions. -/
namespace Portugol

inductive SyntaxError where
  | lexical (error : LexicalError)
  | unexpected (error : Grammar.Unexpected)
deriving DecidableEq

namespace SyntaxError

def position : SyntaxError → Position
  | .lexical e => e.position
  | .unexpected e => e.position

def message : SyntaxError → String
  | .lexical e => e.message
  | .unexpected e => e.message

/-- Two sorted lists of errors as one. -/
def inOrder (lexical : List LexicalError) (unexpected : List Grammar.Unexpected) : List SyntaxError :=
  (lexical.map .lexical).merge (unexpected.map .unexpected) fun a b => a.position.le b.position

end SyntaxError

namespace Grammar

/-- The program that the unread tokens make, in a source with these lexical errors. -/
def programFrom (lexical : List LexicalError) (p : Cursor) : Except (List SyntaxError) Program :=
  let read := statements p
  match SyntaxError.inOrder lexical read.2.errors.toList with
  | [] => .ok ⟨read.1⟩
  | errors => .error errors

end Grammar

def Tokens.cursor (t : Tokens) : Grammar.Cursor := .start t.tokens t.stop

/-- Reads a program, or tells everything that is wrong with the source. -/
def Program.parse (source : String) : Except (List SyntaxError) Program :=
  let t := tokenize source
  Grammar.programFrom t.errors t.cursor

end Portugol
