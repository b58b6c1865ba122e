import Portugol.Proofs.Token.MaximalMunch
import Portugol.Proofs.Token.Order

/-! # Text literals

A text is a literal with a value if the value is written between quotes in it, character by character
(`Piece.WrittenChar`). The texts that are scanned as one text token are the literals with its value, and what begins
with a quote stays open exactly if it does not begin with a literal (`scan_literal`). -/
namespace Portugol

def IsLiteral (value literal : List Char) : Prop :=
  ∃ body, Piece.Written value body ∧ literal = '"' :: (body ++ ['"'])

/-- The lexemes of a text are its literals. -/
theorem lexeme_text_iff {s : String} {literal : List Char} :
    Lexeme (.text s) literal ↔ IsLiteral s.toList literal := by
  constructor
  · rintro ⟨⟩
    next body value h =>
    rw [String.toList_ofList]
    obtain ⟨inner, rest, rfl, hinner, hlength⟩ := Piece.textEnd_eq_some_iff.1 h
    have hrest : rest = [] := by
      rw [List.length_append, List.length_cons] at hlength
      exact List.eq_nil_of_length_eq_zero (by omega)
    exact ⟨inner, hinner, by rw [hrest]⟩
  · rintro ⟨body, hbody, rfl⟩
    have hend := Piece.textEnd_written hbody []
    rw [← String.ofList_toList (s := s)]
    exact .text (by rw [hend, List.length_append, List.length_singleton])

/-- Text behind a quote begins with the rest of a literal or is read to its end in vain. -/
theorem textEnd_eq_none_iff {text : List Char} :
    Piece.textEnd text = none ↔ ¬ ∃ value literal, literal <+: '"' :: text ∧ IsLiteral value literal := by
  rw [← not_iff_not, not_not, ← ne_eq, Option.ne_none_iff_exists']
  constructor
  · rintro ⟨⟨value, n⟩, h⟩
    obtain ⟨body, rest, rfl, hbody, -⟩ := Piece.textEnd_eq_some_iff.1 h
    exact ⟨value, _, ⟨rest, by simp⟩, body, hbody, rfl⟩
  · rintro ⟨value, literal, ⟨rest, hrest⟩, body, hbody, rfl⟩
    obtain rfl : body ++ '"' :: rest = text := by simpa using hrest
    exact ⟨_, Piece.textEnd_written hbody rest⟩

/-- A source that begins with a quote reports an open text there if what follows is read in vain; otherwise there is a
token at this place, and nothing else. -/
theorem error_mem_scan_quote_iff {text : List Char} :
    .error ⟨.unterminatedText, .start⟩ ∈ scan (String.ofList ('"' :: text)) ↔ Piece.textEnd text = none := by
  have hsorted := sorted_scan (String.ofList ('"' :: text))
  rw [scan, String.toList_ofList, Piece.pieces_cons, Piece.munch_eq_quoted, Piece.quoted] at hsorted ⊢
  cases hend : Piece.textEnd text with
  | none => simp [Report.ofPieces, Report.ofPiece]
  | some read =>
    rw [hend] at hsorted
    simp only [Report.ofPieces, Report.ofPiece, Option.toList_some, List.singleton_append,
      List.pairwise_cons] at hsorted
    simp only [Report.ofPieces, Report.ofPiece, Option.toList_some, List.singleton_append, List.mem_cons, reduceCtorEq,
      false_or, iff_false]
    intro hmem
    have hlt := hsorted.1 _ hmem
    exact Position.lt_irrefl _ hlt

/-- A literal is scanned as one token with its value, and nothing else is. What begins with a quote is an open text
exactly if no literal is a prefix of it. -/
theorem scan_literal :
    (∀ value literal : String, (∃ place stop, scan literal = [.token ⟨.text value, literal, place⟩, .finish stop]) ↔
      IsLiteral value.toList literal.toList) ∧
    ∀ text : List Char, .error ⟨.unterminatedText, .start⟩ ∈ scan (String.ofList ('"' :: text)) ↔
      ¬ ∃ value literal, literal <+: '"' :: text ∧ IsLiteral value literal := by
  refine ⟨fun value literal => ⟨?_, fun h => ?_⟩, fun text => error_mem_scan_quote_iff.trans textEnd_eq_none_iff⟩
  · rintro ⟨place, stop, hscan⟩
    have hmem : .token ⟨.text value, literal, place⟩ ∈ scan literal := by
      rw [hscan]
      exact .head _
    exact lexeme_text_iff.1 (lexeme_of_mem_scan hmem)
  · exact ⟨_, _, scan_of_lexeme (lexeme_text_iff.2 h)⟩

end Portugol
