import Portugol.Text.Alphabetic
import Portugol.Text.Numeric
import Portugol.Text.Blank
import Portugol.Token

/-! # Cutting a source into pieces

A source is cut into pieces one after the other, each as long as it can be: blanks and comments, which are
gaps, tokens, and faults, which are stretches that are none of these. What the first characters of a text
make is told by `munch`, as a content and the number of further characters that belong to it. The texts of
the pieces follow each other without loss (`flatten_pieces`), and no piece is empty (`text_ne_nil`). -/
namespace Portugol

inductive LexicalFault where
  | unexpectedCharacter (found : Char)
  | unterminatedText
  | unterminatedComment
  | malformedNumber (literal : String)
deriving DecidableEq

inductive Content where
  | gap
  | token (kind : TokenKind)
  | fault (cause : LexicalFault)

structure Piece where
  text : List Char
  content : Content

namespace Piece

def startsWord (c : Char) : Bool := Text.isAlphabetic c || c = '_'

def continuesWord (c : Char) : Bool := Text.isAlphabetic c || Text.isNumeric c || c = '_'

/-- The number of characters up to the end of a block comment, its closing mark included. -/
def commentEnd : List Char → Option Nat
  | [] => none
  | '*' :: '/' :: _ => some 2
  | _ :: rest => (commentEnd rest).map (· + 1)

def unescape (c : Char) : Char := if c = 'n' then '\n' else if c = 't' then '\t' else c

/-- The value of a text literal after its opening quote, and the number of characters up to and with its
closing quote. -/
def textEnd : List Char → Option (List Char × Nat)
  | [] => none
  | '"' :: _ => some ([], 1)
  | ['\\'] => none
  | '\\' :: c :: rest => (textEnd rest).map fun (value, n) => (unescape c :: value, n + 2)
  | c :: rest => (textEnd rest).map fun (value, n) => (c :: value, n + 1)

/-- A block comment or a text literal takes up the whole rest of the source if it does not end. -/
def comment (rest : List Char) : Content × Nat :=
  match commentEnd rest.tail with
  | some n => (.gap, n + 1)
  | none => (.fault .unterminatedComment, rest.length)

def quoted (rest : List Char) : Content × Nat :=
  match textEnd rest with
  | some (value, n) => (.token (.text (String.ofList value)), n)
  | none => (.fault .unterminatedText, rest.length)

/-- A number is digits, or digits, a point and digits. A whole number that does not fit is a fault, and so
is a point without a digit after it, which still belongs to the number. -/
def number (c : Char) (rest : List Char) : Content × Nat :=
  let digits := c :: rest.takeWhile Char.isDigit
  let beyond := rest.dropWhile Char.isDigit
  if beyond.head? = some '.' then
    match beyond.tail.takeWhile Char.isDigit with
    | [] => (.fault (.malformedNumber (String.ofList (digits ++ ['.']))), digits.length)
    | fraction =>
      (.token (.real (Decimal.nearest (Nat.ofDigitChars 10 (digits ++ fraction) 0) (-fraction.length))),
        digits.length + fraction.length)
  else
    match Integer.fit? (Nat.ofDigitChars 10 digits 0) with
    | some n => (.token (.integer n), digits.length - 1)
    | none => (.fault (.malformedNumber (String.ofList digits)), digits.length - 1)

def word (c : Char) (rest : List Char) : Content × Nat :=
  let letters := rest.takeWhile continuesWord
  let name := String.ofList (c :: letters)
  (.token (match Keyword.ofWord? name with | some k => .keyword k | none => .name name), letters.length)

/-- What begins with `c`, and how many of the characters after `c` belong to it. -/
def munch (c : Char) (rest : List Char) : Content × Nat :=
  if c = '/' ∧ rest.head? = some '/' then (.gap, (rest.takeWhile (· ≠ '\n')).length)
  else if c = '/' ∧ rest.head? = some '*' then comment rest
  else match Symbol.at? c rest.head? with
  | some s => (.token (.symbol s), s.tail)
  | none =>
    if c = '"' then quoted rest
    else if c.isDigit then number c rest
    else if startsWord c then word c rest
    else if Text.isBlank c then (.gap, 0)
    else (.fault (.unexpectedCharacter c), 0)

end Piece

def pieces : List Char → List Piece
  | [] => []
  | c :: rest =>
    let (content, n) := Piece.munch c rest
    ⟨c :: rest.take n, content⟩ :: pieces (rest.drop n)
termination_by source => source.length
decreasing_by
  simp only [List.length_drop, List.length_cons]
  omega

namespace Piece

@[simp] theorem pieces_nil : pieces [] = [] := by rw [pieces]

theorem pieces_cons (c : Char) (rest : List Char) :
    pieces (c :: rest) =
      ⟨c :: rest.take (munch c rest).2, (munch c rest).1⟩ :: pieces (rest.drop (munch c rest).2) := by
  rw [pieces]

/-- Nothing of a source is lost. -/
theorem flatten_pieces (source : List Char) : ((pieces source).map text).flatten = source := by
  fun_induction pieces source with
  | case1 => rfl
  | case2 c rest content n h ih => simp [ih]

theorem text_ne_nil {source : List Char} {p : Piece} (h : p ∈ pieces source) : p.text ≠ [] := by
  fun_induction pieces source with
  | case1 => simp at h
  | case2 c rest content n _ ih =>
    rcases List.mem_cons.1 h with rfl | h
    · simp
    · exact ih h

end Piece
end Portugol
