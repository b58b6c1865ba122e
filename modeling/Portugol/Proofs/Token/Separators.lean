import Portugol.Proofs.Token.MaximalMunch

/-! # Lexemes with separators between them

The lexemes of a source can be put together again with any separators: a blank, and then blanks and comments as one
likes, each comment closed within the separator. The blank ends the lexeme before it, whatever that is, and the comments
are passed over up to their ends. So scanning the new text gives the tokens of the source and nothing else
(`scan_joined`); what was no token in the source is gone. -/
namespace Portugol

/-- Blanks, comments of one line with the line feed behind them, and closed block comments, one after the other. -/
inductive Trivia : List Char → Prop where
  | nil : Trivia []
  | blank {c rest} (hc : Text.isBlank c) (h : Trivia rest) : Trivia (c :: rest)
  | line {body rest} (hbody : '\n' ∉ body) (h : Trivia rest) : Trivia ('/' :: '/' :: (body ++ '\n' :: rest))
  | block {body rest} (hbody : ¬ ['*', '/'] <:+: body ++ ['*']) (h : Trivia rest) :
      Trivia ('/' :: '*' :: (body ++ '*' :: '/' :: rest))

/-- What stands between two lexemes: a blank first. -/
def IsSeparator (text : List Char) : Prop := ∃ c rest, text = c :: rest ∧ Text.isBlank c ∧ Trivia rest

/-- Lexemes in order, with a separator between every two. -/
inductive Joined : List (List Char) → List Char → Prop where
  | nil : Joined [] []
  | one {lexeme} : Joined [lexeme] lexeme
  | cons {lexeme next lexemes separator text} (hseparator : IsSeparator separator)
      (h : Joined (next :: lexemes) text) : Joined (lexeme :: next :: lexemes) (lexeme ++ (separator ++ text))

/-! ## Separators are passed over -/

/-- A blank or a comment is one piece. -/
theorem Piece.munch_of_filler {text rest : List Char} (h : Filler text rest) : ∃ c body, text = c :: body ∧
    munch c (body ++ rest) = (.gap, body.length) := by
  cases h with
  | blank hc => exact ⟨_, [], rfl, munch_of_isBlank rest hc⟩
  | @line body _ hbody hend =>
    have hline : ∀ c ∈ '/' :: body, decide (c ≠ '\n') = true := by
      intro c hc
      refine decide_eq_true ?_
      rintro rfl
      rcases List.mem_cons.1 hc with hc | hc
      · cases hc
      · exact hbody hc
    have hrest : ∀ c ∈ rest.head?, decide (c ≠ '\n') = false := by
      intro c hc
      rw [hend c hc]
      rfl
    refine ⟨'/', '/' :: body, rfl, ?_⟩
    rw [munch, if_pos ⟨rfl, rfl⟩, takeWhile_run hline hrest]
  | @block body _ hbody =>
    refine ⟨'/', '*' :: (body ++ ['*', '/']), rfl, ?_⟩
    have hend := commentEnd_body hbody rest
    rw [munch, if_neg (by simp), if_pos ⟨rfl, rfl⟩, comment]
    simp [hend]

/-- Nothing is reported of a gap. -/
theorem Report.ofPieces_gap {gap rest : List Char} (h : Gap gap rest) (p : Position) :
    ofPieces p (pieces (gap ++ rest)) = ofPieces (p.after gap) (pieces rest) := by
  induction h generalizing p with
  | nil => rfl
  | @cons text gap rest htext h ih =>
    obtain ⟨c, body, rfl, hmunch⟩ := Piece.munch_of_filler htext
    rw [List.append_assoc, List.cons_append, Piece.pieces_munched hmunch, ofPieces, ih, Position.after_append]
    rfl

/-- Trivia is a gap whatever follows. -/
theorem Trivia.gap {text : List Char} (h : Trivia text) (rest : List Char) : Gap text rest := by
  induction h with
  | nil => exact .nil
  | @blank c text hc h ih => exact @Gap.cons [c] _ _ (.blank hc) ih
  | @line body text hbody h ih =>
    have hline : Gap ('\n' :: text) rest := @Gap.cons ['\n'] _ _ (.blank rfl) ih
    refine @Gap.cons ('/' :: '/' :: body) _ _ (.line hbody ?_) hline
    simp
  | @block body text hbody h ih =>
    have hblock := @Gap.cons ('/' :: '*' :: (body ++ ['*', '/'])) _ _ (.block hbody) ih
    simpa using hblock

theorem IsSeparator.gap {text : List Char} (h : IsSeparator text) (rest : List Char) : Gap text rest := by
  obtain ⟨c, trivia, rfl, hc, htrivia⟩ := h
  exact (Trivia.blank hc htrivia).gap rest

/-! ## Lexemes are found again -/

namespace Report

variable {kind : TokenKind} {lexeme : List Char} (p : Position)

theorem ofPieces_lexeme_blank (h : Lexeme kind lexeme) {c : Char} (hc : Text.isBlank c) (rest : List Char) :
    ofPieces p (pieces (lexeme ++ c :: rest)) =
      .token ⟨kind, String.ofList lexeme, p⟩ :: ofPieces (p.after lexeme) (pieces (c :: rest)) := by
  obtain ⟨d, body, rfl, hmunch, -⟩ := Piece.munch_of_lexeme h
  have hboth : Piece.munch d (body ++ c :: rest) = (.token kind, body.length) := by
    rw [Piece.munch_blank rest hc, hmunch]
    · rw [hmunch]
      rintro (hopen | hopen) <;> cases hopen
    · rw [hmunch]
      nofun
  rw [List.cons_append, Piece.pieces_munched hboth]
  rfl

/-- Of lexemes with separators between them only the lexemes are reported, as the tokens that they are. -/
theorem ofPieces_joined {tokens : List Token} (hlexemes : ∀ t ∈ tokens, Lexeme t.kind t.lexeme.toList)
    {text : List Char} (h : Joined (tokens.map fun t => t.lexeme.toList) text) :
    ∃ found : List Token, ofPieces p (pieces text) = found.map .token ++ [.finish (p.after text)] ∧
      found.map (fun t => (t.kind, t.lexeme)) = tokens.map fun t => (t.kind, t.lexeme) := by
  induction tokens generalizing text p with
  | nil =>
    cases h
    rw [Piece.pieces_nil]
    exact ⟨[], rfl, rfl⟩
  | cons t tokens ih =>
    obtain ⟨ht, htokens⟩ := List.forall_mem_cons.1 hlexemes
    cases tokens with
    | nil =>
      cases h
      refine ⟨[⟨t.kind, t.lexeme, p⟩], ?_, rfl⟩
      rw [ofPieces_lexeme p ht, String.ofList_toList]
      rfl
    | cons u tokens =>
      cases h with
      | @cons _ _ _ separator text hseparator h =>
        have hgap := hseparator.gap text
        obtain ⟨c, trivia, rfl, hc, -⟩ := hseparator
        obtain ⟨found, hfound, hsame⟩ := ih ((p.after t.lexeme.toList).after (c :: trivia)) htokens h
        refine ⟨⟨t.kind, t.lexeme, p⟩ :: found, ?_, congrArg ((t.kind, t.lexeme) :: ·) hsame⟩
        have hlexeme := ofPieces_lexeme_blank p ht hc (trivia ++ text)
        rw [← List.cons_append] at hlexeme
        rw [hlexeme, ofPieces_gap hgap, hfound, String.ofList_toList, Position.after_append, Position.after_append]
        rfl

end Report

/-- The lexemes of a source, put together again with separators, are scanned without errors as the same tokens. -/
theorem scan_joined {source text : String}
    (h : Joined ((tokenize source).tokens.map fun t => t.lexeme.toList) text.toList) :
    ∃ found : List Token, scan text = found.map .token ++ [.finish (tokenize text).stop] ∧
      found.map (fun t => (t.kind, t.lexeme)) = (tokenize source).tokens.map fun t => (t.kind, t.lexeme) := by
  refine Report.ofPieces_joined .start (fun t ht => ?_) h
  obtain ⟨r, hr, hrt⟩ := List.mem_filterMap.1 ht
  cases r <;> cases hrt
  exact lexeme_of_mem_scan hr

theorem tokens_of_fragments : (tokenize "x$<-\"//\"15").tokens =
    [⟨.name "x", "x", ⟨1, 1⟩⟩, ⟨.symbol .arrow, "<-", ⟨1, 3⟩⟩, ⟨.text "//", "\"//\"", ⟨1, 5⟩⟩,
      ⟨.integer 15, "15", ⟨1, 9⟩⟩] := by
  decide +kernel

/-- A comment with a quote in it before a text that looks like a comment, and one of one line behind it. -/
theorem scan_joined_fragments :
    let source := "x$<-\"//\"15"
    let text := "x\t<- /* \" **/\"//\"\n// 2\n15"
    Joined ((tokenize source).tokens.map fun t => t.lexeme.toList) text.toList ∧
    ∃ found : List Token, scan text = found.map .token ++ [.finish (tokenize text).stop] ∧
      found.map (fun t => (t.kind, t.lexeme)) = (tokenize source).tokens.map fun t => (t.kind, t.lexeme) := by
  intro source text
  have hcomment : IsSeparator " /* \" **/".toList :=
    ⟨' ', _, rfl, rfl, @Trivia.block [' ', '"', ' ', '*'] _ (by decide) .nil⟩
  have hline : IsSeparator "\n// 2\n".toList :=
    ⟨'\n', _, rfl, rfl, @Trivia.line [' ', '2'] _ (by decide) .nil⟩
  have htext : text.toList = "x".toList ++ ("\t".toList ++ ("<-".toList ++ (" /* \" **/".toList ++
      ("\"//\"".toList ++ ("\n// 2\n".toList ++ "15".toList))))) := by
    decide
  have h : Joined ((tokenize source).tokens.map fun t => t.lexeme.toList) text.toList := by
    rw [tokens_of_fragments, htext]
    exact .cons ⟨'\t', [], rfl, rfl, .nil⟩ (.cons hcomment (.cons hline .one))
  exact ⟨h, scan_joined h⟩

end Portugol
