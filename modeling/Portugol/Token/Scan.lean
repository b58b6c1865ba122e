import Portugol.Text.Quoted
import Portugol.Token.Piece

/-! # Scanning a source

Scanning places the pieces of a source and reports what is not a gap: tokens and faults in the order of
the text, and at last the place where the source ends. A `Scanner` gives out the reports of a source one at
a time and can go back to its beginning. -/
namespace Portugol

structure LexicalError where
  cause : LexicalFault
  position : Position
deriving DecidableEq

inductive Report where
  | token (t : Token)
  | error (e : LexicalError)
  | finish (position : Position)
deriving DecidableEq

namespace Report

/-- The report on a piece that begins at a position; a gap is passed over in silence. -/
def ofPiece (p : Position) (piece : Piece) : Option Report :=
  match piece.content with
  | .gap => none
  | .token kind => some (.token ⟨kind, String.ofList piece.text, p⟩)
  | .fault cause => some (.error ⟨cause, p⟩)

def ofPieces : Position → List Piece → List Report
  | p, [] => [.finish p]
  | p, piece :: rest => (ofPiece p piece).toList ++ ofPieces (p.after piece.text) rest

def token? : Report → Option Token
  | .token t => some t
  | _ => none

def error? : Report → Option LexicalError
  | .error e => some e
  | _ => none

end Report

def scan (source : String) : List Report := Report.ofPieces .start (pieces source.toList)

/-- The tokens of a source, its lexical errors, and the position where it ends. -/
structure Tokens where
  tokens : List Token
  errors : List LexicalError
  stop : Position
deriving DecidableEq

def tokenize (source : String) : Tokens :=
  let reports := scan source
  { tokens := reports.filterMap Report.token?
    errors := reports.filterMap Report.error?
    stop := Position.start.after source.toList }

/-- A scan under way: the source, and the reports that are still to come. -/
structure Scanner where
  source : String
  pending : List Report

namespace Scanner

def new (source : String) : Scanner := ⟨source, scan source⟩

/-- The next report, if the scan has not finished. -/
def next (s : Scanner) : Option Report × Scanner := (s.pending.head?, { s with pending := s.pending.tail })

def reset (s : Scanner) : Scanner := new s.source

end Scanner

def LexicalError.message (e : LexicalError) : String :=
  let place := e.position.describe
  match e.cause with
  | .unexpectedCharacter c => s!"Unexpected character {Text.Quoted.quoteChar c} found on {place}."
  | .unterminatedText => s!"Unterminated string starting on {place}."
  | .unterminatedComment => s!"Unterminated block comment starting on {place}."
  | .malformedNumber literal =>
    s!"Invalid number format {Text.Quoted.quote literal} on {place}. No digit provided after decimal point?"

end Portugol
