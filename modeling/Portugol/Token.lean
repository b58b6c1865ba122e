import Portugol.Position
import Portugol.Value
import Portugol.Token.Keyword
import Portugol.Token.Symbol

/-! # Tokens

A token is what a stretch of source text stands for, together with that stretch and the place where it
begins. The end of a source is no token; where one is asked for and there is none, the answer is `none`. -/
namespace Portugol

inductive TokenKind where
  | symbol (s : Symbol)
  | keyword (k : Keyword)
  | name (x : String)
  | integer (n : Int64)
  | real (x : Float)
  | text (s : String)
deriving DecidableEq

structure Token where
  kind : TokenKind
  lexeme : String
  position : Position
deriving DecidableEq

def Symbol.category : Symbol → String
  | .openParen | .closeParen | .openBrace | .closeBrace | .comma | .semicolon => "PUNCT"
  | .arrow | .becomes => "ATRIB"
  | .plus | .minus => "OPSUM"
  | .star | .slash | .percent => "OPMULT"
  | .notEqual | .equal | .greater | .greaterEqual | .less | .lessEqual => "OPCOMP"
  | .and | .or => "OPLOG"
  | .not => "NOT"

namespace TokenKind

def category : TokenKind → String
  | .symbol s => s.category
  | .keyword _ => "KEYWORD"
  | .name _ => "ID"
  | .integer _ => "INT"
  | .real _ => "REAL"
  | .text _ => "STRING"

/-- Whether a token can only be the beginning of a statement. -/
def startsStatement : TokenKind → Bool
  | .keyword k => k.startsStatement
  | _ => false

def describe : TokenKind → String
  | .symbol s => "'" ++ s.spelling ++ "'"
  | .keyword k => "'" ++ k.word ++ "'"
  | .name x => "identifier '" ++ x ++ "'"
  | .integer n => "number " ++ Integer.render n
  | .real x => "number " ++ Decimal.plain x
  | .text s => "string \"" ++ s ++ "\""

end TokenKind

def categoryOf (found : Option TokenKind) : String := (found.map TokenKind.category).getD "EOF"

def describeFound (found : Option TokenKind) : String :=
  (found.map TokenKind.describe).getD "end of input"

end Portugol
