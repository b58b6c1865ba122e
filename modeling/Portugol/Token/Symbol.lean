/-! # Signs of punctuation and operators

Every sign is one or two characters long. `Symbol.at?` finds the longest sign at the beginning of a text; it
is the sign that the characters spell (`characters_of_at?`). -/
namespace Portugol

inductive Symbol where
  | openParen | closeParen | openBrace | closeBrace | comma | semicolon
  | arrow | becomes
  | plus | minus | star | slash | percent
  | not | notEqual | equal | greater | greaterEqual | less | lessEqual
  | and | or
deriving DecidableEq, Repr

namespace Symbol

def characters : Symbol → List Char
  | .openParen => ['(']
  | .closeParen => [')']
  | .openBrace => ['\x7b']
  | .closeBrace => ['\x7d']
  | .comma => [',']
  | .semicolon => [';']
  | .arrow => ['<', '-']
  | .becomes => ['=']
  | .plus => ['+']
  | .minus => ['-']
  | .star => ['*']
  | .slash => ['/']
  | .percent => ['%']
  | .not => ['!']
  | .notEqual => ['!', '=']
  | .equal => ['=', '=']
  | .greater => ['>']
  | .greaterEqual => ['>', '=']
  | .less => ['<']
  | .lessEqual => ['<', '=']
  | .and => ['&', '&']
  | .or => ['|', '|']

def spelling (s : Symbol) : String := String.ofList s.characters

/-- The longest sign that begins with `c`, the next character being known; two characters make one sign
only if the second is the one that the first asks for. -/
def at? (c : Char) (next : Option Char) : Option Symbol :=
  match c with
  | '(' => some .openParen
  | ')' => some .closeParen
  | '\x7b' => some .openBrace
  | '\x7d' => some .closeBrace
  | ',' => some .comma
  | ';' => some .semicolon
  | '+' => some .plus
  | '-' => some .minus
  | '*' => some .star
  | '/' => some .slash
  | '%' => some .percent
  | '!' => some (if next = some '=' then .notEqual else .not)
  | '=' => some (if next = some '=' then .equal else .becomes)
  | '>' => some (if next = some '=' then .greaterEqual else .greater)
  | '<' => some (if next = some '=' then .lessEqual else if next = some '-' then .arrow else .less)
  | '&' => if next = some '&' then some .and else none
  | '|' => if next = some '|' then some .or else none
  | _ => none

def tail (s : Symbol) : Nat := s.characters.length - 1

/-- A sign that is found spells the characters it was found at. -/
theorem characters_of_at? {c : Char} {rest : List Char} {s : Symbol} (h : at? c rest.head? = some s) :
    s.characters = c :: rest.take s.tail := by
  unfold at? at h
  rcases rest with _ | ⟨d, rest⟩ <;> split at h <;>
    (repeat' split at h) <;> simp_all <;> subst h <;> simp [characters, tail]

end Symbol
end Portugol
