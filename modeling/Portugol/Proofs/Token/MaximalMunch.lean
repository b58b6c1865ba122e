import Mathlib.Data.List.TakeWhile
import Portugol.Proofs.Token.Accounts
import Portugol.Proofs.Token.Spelling

/-! # The longest token

A text is a lexeme if it is scanned as one token and nothing else (`IsLexeme`); for each kind of token, `Lexeme` tells
which texts these are. What scanning takes for a token is a lexeme of that kind, and it would have taken more if a
longer lexeme began at the same place (`token_maximal`): no sign, word or number goes on where it ends, and a text is
over at the first quote that closes it. -/
namespace Portugol

/-- A text that is one token and nothing else. -/
def IsLexeme (text : String) : Prop := ∃ t stop, scan text = [.token t, .finish stop] ∧ t.lexeme = text

/-- The texts that a token of each kind is written as. -/
inductive Lexeme : TokenKind → List Char → Prop where
  | symbol {s} : Lexeme (.symbol s) s.characters
  | keyword {k w} (h : Keyword.ofWord? w = some k) : Lexeme (.keyword k) w.toList
  | name {x} (h : IsName x) : Lexeme (.name x) x.toList
  | integer {c digits n} (hc : c.isDigit) (hdigits : ∀ d ∈ digits, d.isDigit)
      (hfit : Integer.fit? (Nat.ofDigitChars 10 (c :: digits) 0) = some n) : Lexeme (.integer n) (c :: digits)
  | real {c digits d fraction} (hc : c.isDigit) (hdigits : ∀ e ∈ digits, e.isDigit) (hd : d.isDigit)
      (hfraction : ∀ e ∈ fraction, e.isDigit) :
      Lexeme (.real (Decimal.nearest (Nat.ofDigitChars 10 (c :: digits ++ d :: fraction) 0) (-(d :: fraction).length)))
        (c :: (digits ++ '.' :: d :: fraction))
  | text {body value} (h : Piece.textEnd body = some (value, body.length)) :
      Lexeme (.text (String.ofList value)) ('"' :: body)

namespace Piece

variable {c : Char} {rest digits letters : List Char} {kind : TokenKind} {n : Nat}

theorem length_le_takeWhile {p : Char → Bool} {body : List Char} (h : ∀ d ∈ body, p d) (more : List Char) :
    body.length ≤ ((body ++ more).takeWhile p).length := by
  rw [List.takeWhile_append_of_pos h, List.length_append]
  exact Nat.le_add_right _ _

/-! ## Tokens are lexemes -/

theorem lexeme_of_quoted (h : quoted rest = (.token kind, n)) : Lexeme kind ('"' :: rest.take n) := by
  simp only [quoted] at h
  split at h
  · next value m hend =>
    cases h
    obtain ⟨body, tail, rfl, hbody, rfl⟩ := textEnd_eq_some_iff.1 hend
    refine .text (textEnd_eq_some_iff.2 ⟨body, [], ?_, hbody, ?_⟩)
    · exact List.take_length_add_append 1
    · simp
  · cases h

theorem lexeme_of_number (hc : c.isDigit) (h : number c rest = (.token kind, n)) : Lexeme kind (c :: rest.take n) := by
  have hall (text : List Char) : ∀ d ∈ text.takeWhile Char.isDigit, d.isDigit := List.all_eq_true.1 List.all_takeWhile
  have hdigits := hall rest
  simp only [number] at h
  split at h
  · next hpoint =>
    obtain ⟨beyond, hbeyond⟩ := List.head?_eq_some_iff.1 hpoint
    have hsplit := List.takeWhile_append_dropWhile (p := Char.isDigit) (l := rest)
    have htake := take_takeWhile Char.isDigit beyond
    have hfraction := hall beyond
    rw [hbeyond] at hsplit
    rw [hbeyond, List.tail_cons] at h
    cases hbody : beyond.takeWhile Char.isDigit with
    | nil =>
      rw [hbody] at h
      cases h
    | cons d fraction =>
      rw [hbody] at h hfraction htake
      cases h
      obtain ⟨hd, hfraction⟩ := List.forall_mem_cons.1 hfraction
      generalize rest.takeWhile Char.isDigit = digits at hsplit hdigits ⊢
      subst hsplit
      have hlength : (c :: digits).length + (d :: fraction).length = digits.length + ((d :: fraction).length + 1) := by
        simp only [List.length_cons]
        omega
      rw [hlength, List.take_length_add_append, List.take_succ_cons, htake]
      exact .real hc hdigits hd hfraction
  · split at h
    · next hfit =>
      cases h
      rw [List.length_cons, Nat.add_sub_cancel, take_takeWhile]
      exact .integer hc hdigits hfit
    · cases h

theorem lexeme_of_word (hc : startsWord c) (h : word c rest = (.token kind, n)) : Lexeme kind (c :: rest.take n) := by
  have hletters : ∀ d ∈ rest.takeWhile continuesWord, continuesWord d := List.all_eq_true.1 List.all_takeWhile
  simp only [word, Prod.mk.injEq, Content.token.injEq] at h
  obtain ⟨hkind, rfl⟩ := h
  rw [take_takeWhile]
  have hlist : c :: rest.takeWhile continuesWord = (String.ofList (c :: rest.takeWhile continuesWord)).toList :=
    String.toList_ofList.symm
  rw [hlist]
  split at hkind
  · next k hk =>
    subst hkind
    exact .keyword hk
  · next hfree =>
    subst hkind
    exact .name ⟨c, _, hlist.symm, hc, hletters, hfree⟩

/-- What is taken for a token is a lexeme of its kind. -/
theorem lexeme_of_munch (h : munch c rest = (.token kind, n)) : Lexeme kind (c :: rest.take n) := by
  simp only [munch] at h
  split at h
  · cases h
  split at h
  · simp only [comment] at h
    split at h <;> cases h
  split at h
  · next s hs =>
    cases h
    rw [← Symbol.characters_of_at? hs]
    exact .symbol
  split at h
  · next hquote =>
    subst hquote
    exact lexeme_of_quoted h
  split at h
  · next hdigit => exact lexeme_of_number hdigit h
  split at h
  · next hword => exact lexeme_of_word hword h
  split at h <;> cases h

/-! ## Lexemes are tokens -/

/-- All digits of a number belong to it. -/
theorem takeWhile_le_number (c : Char) (rest : List Char) :
    (rest.takeWhile Char.isDigit).length ≤ (number c rest).2 := by
  simp only [number]
  split
  · split
    · exact Nat.le_succ _
    · simp only [List.length_cons]
      omega
  · split <;> exact Nat.le_refl _

theorem number_real (hdigits : ∀ d ∈ digits, d.isDigit) {d : Char} (hd : d.isDigit) (rest : List Char) :
    number c (digits ++ '.' :: d :: rest) = (.token (.real (Decimal.nearest
      (Nat.ofDigitChars 10 (c :: digits ++ d :: rest.takeWhile Char.isDigit) 0)
        (-(d :: rest.takeWhile Char.isDigit).length))),
      (c :: digits).length + (d :: rest.takeWhile Char.isDigit).length) := by
  have hpoint : '.'.isDigit = false := rfl
  simp only [number]
  rw [List.takeWhile_append_of_pos hdigits, List.dropWhile_append_of_pos hdigits]
  simp [hpoint, hd]

theorem length_le_munch_word (hc : startsWord c) (hletters : ∀ d ∈ letters, continuesWord d) (more : List Char) :
    letters.length ≤ (munch c (letters ++ more)).2 := by
  rw [munch_eq_word hc]
  exact length_le_takeWhile hletters more

/-- A sign of two characters is not taken for the sign that is its first character. -/
theorem length_le_munch_symbol {s : Symbol} {body : List Char} (hs : s.characters = c :: body) (more : List Char) :
    body.length ≤ (munch c (body ++ more)).2 := by
  cases body with
  | nil => exact Nat.zero_le _
  | cons d body => cases s <;> cases hs <;> exact Nat.le_refl _

/-- A lexeme is taken for a token of its kind, and it is not broken off whatever follows. -/
theorem munch_of_lexeme {text : List Char} (h : Lexeme kind text) : ∃ c body, text = c :: body ∧
    munch c body = (.token kind, body.length) ∧ ∀ more, body.length ≤ (munch c (body ++ more)).2 := by
  cases h with
  | @symbol s =>
    obtain ⟨c, body, hs⟩ : ∃ c body, s.characters = c :: body := by
      cases s <;> exact ⟨_, _, rfl⟩
    refine ⟨c, body, hs, ?_, fun more => ?_⟩
    · have := munch_symbol hs apart_nil
      rwa [List.append_nil] at this
    · exact length_le_munch_symbol hs more
  | @keyword k w h =>
    obtain ⟨c, letters, hw, hc, hletters⟩ := exists_letters_of_ofWord? h
    rw [← String.ofList_toList (s := w), hw] at h
    refine ⟨c, letters, hw, ?_, fun more => ?_⟩
    · have := munch_keyword hc hletters h apart_nil
      rwa [List.append_nil] at this
    · exact length_le_munch_word hc hletters more
  | @name x h =>
    obtain ⟨c, letters, hx, hc, hletters, hfree⟩ := h
    rw [← String.ofList_toList (s := x), hx] at hfree
    refine ⟨c, letters, hx, ?_, fun more => ?_⟩
    · have := munch_name hc hletters hfree apart_nil
      rwa [List.append_nil, ← hx, String.ofList_toList] at this
    · exact length_le_munch_word hc hletters more
  | @integer c digits n hc hdigits hfit =>
    refine ⟨c, digits, rfl, ?_, fun more => ?_⟩
    · have hend : ∀ d ∈ ([] : List Char).head?, d.isDigit = false ∧ d ≠ '.' := nofun
      have hnumber := number_digits c hdigits hend
      rwa [List.append_nil, hfit, ← munch_eq_number hc] at hnumber
    · rw [munch_eq_number hc]
      exact Nat.le_trans (length_le_takeWhile hdigits more) (takeWhile_le_number c _)
  | @real c digits d fraction hc hdigits hd hfraction =>
    refine ⟨c, _, rfl, ?_, fun more => ?_⟩
    · rw [munch_eq_number hc, number_real hdigits hd, List.takeWhile_eq_self_iff.2 hfraction]
      simp
      omega
    · have hle := length_le_takeWhile hfraction more
      rw [munch_eq_number hc, List.append_assoc, List.cons_append, List.cons_append, number_real hdigits hd]
      simp
      omega
  | @text body value h =>
    refine ⟨'"', body, rfl, ?_, fun more => ?_⟩
    · rw [munch_eq_quoted, quoted, h]
    · rw [munch_eq_quoted, quoted, textEnd_append h]

end Piece

/-! ## Scanning lexemes -/

/-- A token that is reported was taken from some place on, behind what was scanned before. -/
theorem Report.exists_munch_of_token {before source : List Char} {t : Token}
    (h : .token t ∈ ofPieces (.behind before) (pieces source)) :
    ∃ passed c rest n, source = passed ++ c :: rest ∧ Piece.munch c rest = (.token t.kind, n) ∧
      t.lexeme.toList = c :: rest.take n ∧ t.position = .behind (before ++ passed) := by
  fun_induction pieces source generalizing before with
  | case1 => simp [ofPieces] at h
  | case2 c rest content n hmunch ih =>
    rw [ofPieces, Position.after_behind, List.mem_append, Option.mem_toList] at h
    rcases h with hpiece | hmore
    · cases content with
      | gap | fault => cases hpiece
      | token kind =>
        cases hpiece
        exact ⟨[], c, rest, n, rfl, hmunch, String.toList_ofList, by rw [List.append_nil]⟩
    · obtain ⟨passed, d, more, m, hsource, hm, hlexeme, hplace⟩ := ih hmore
      refine ⟨(c :: rest.take n) ++ passed, d, more, m, ?_, hm, hlexeme, ?_⟩
      · rw [List.append_assoc, ← hsource, List.cons_append, List.take_append_drop]
      · rw [hplace, List.append_assoc]

/-- The tokens of a source are lexemes. -/
theorem lexeme_of_mem_scan {source : String} {t : Token} (h : .token t ∈ scan source) :
    Lexeme t.kind t.lexeme.toList := by
  have hmem : .token t ∈ Report.ofPieces (.behind []) (pieces source.toList) := by
    rwa [← Position.after_start, Position.after_nil, ← scan]
  obtain ⟨-, c, rest, n, -, hmunch, hlexeme, -⟩ := Report.exists_munch_of_token hmem
  rw [hlexeme]
  exact Piece.lexeme_of_munch hmunch

theorem Report.ofPieces_lexeme {kind : TokenKind} {text : List Char} (p : Position) (h : Lexeme kind text) :
    ofPieces p (pieces text) = [.token ⟨kind, String.ofList text, p⟩, .finish (p.after text)] := by
  obtain ⟨c, body, rfl, hmunch, -⟩ := Piece.munch_of_lexeme h
  have hpieces : pieces (c :: (body ++ [])) = ⟨c :: body, .token kind⟩ :: pieces [] :=
    Piece.pieces_munched (by rwa [List.append_nil])
  rw [List.append_nil, Piece.pieces_nil] at hpieces
  rw [hpieces]
  rfl

theorem scan_of_lexeme {kind : TokenKind} {text : String} (h : Lexeme kind text.toList) :
    scan text = [.token ⟨kind, text, .start⟩, .finish (.behind text.toList)] := by
  rw [scan, Report.ofPieces_lexeme .start h, String.ofList_toList, Position.after_start]

/-- The texts that are scanned as one token are the lexemes of all kinds. -/
theorem isLexeme_iff {text : String} : IsLexeme text ↔ ∃ kind, Lexeme kind text.toList := by
  constructor
  · rintro ⟨t, stop, hscan, rfl⟩
    have hmem : .token t ∈ scan t.lexeme := by
      rw [hscan]
      exact .head _
    exact ⟨t.kind, lexeme_of_mem_scan hmem⟩
  · rintro ⟨kind, h⟩
    exact ⟨_, _, scan_of_lexeme h, rfl⟩

/-- A token of a source is scanned alone as it is among the others, and no longer lexeme begins where it does. -/
theorem token_maximal {source : String} {t : Token} (h : .token t ∈ scan source) :
    ∃ before behind, source.toList = before ++ (t.lexeme.toList ++ behind) ∧ t.position = .behind before ∧
      scan t.lexeme = [.token { t with position := .start }, .finish (.behind t.lexeme.toList)] ∧
      ∀ longer, longer <+: t.lexeme.toList ++ behind → t.lexeme.toList.length < longer.length →
        ¬ IsLexeme (String.ofList longer) := by
  have hmem : .token t ∈ Report.ofPieces (.behind []) (pieces source.toList) := by
    rwa [← Position.after_start, Position.after_nil, ← scan]
  obtain ⟨before, c, rest, n, hsource, hmunch, hlexeme, hplace⟩ := Report.exists_munch_of_token hmem
  have hself : Lexeme t.kind t.lexeme.toList := by
    rw [hlexeme]
    exact Piece.lexeme_of_munch hmunch
  have hrest : t.lexeme.toList ++ rest.drop n = c :: rest := by
    rw [hlexeme, List.cons_append, List.take_append_drop]
  refine ⟨before, rest.drop n, by rw [hsource, hrest], hplace, scan_of_lexeme hself, ?_⟩
  intro longer hprefix hlonger hlong
  rw [isLexeme_iff, String.toList_ofList] at hlong
  obtain ⟨kind, hlong⟩ := hlong
  obtain ⟨d, body, rfl, -, hreach⟩ := Piece.munch_of_lexeme hlong
  rw [hrest, List.cons_prefix_cons] at hprefix
  obtain ⟨rfl, more, rfl⟩ := hprefix
  have hn := Piece.munch_le d (body ++ more)
  have hle := hreach more
  rw [hmunch] at hn hle
  rw [hlexeme, List.length_cons, List.length_take_of_le hn, List.length_cons] at hlonger
  omega

theorem scan_sign_behind_name : scan "se senao2<=x" =
    [.token ⟨.keyword .se, "se", ⟨1, 1⟩⟩, .token ⟨.name "senao2", "senao2", ⟨1, 4⟩⟩,
      .token ⟨.symbol .lessEqual, "<=", ⟨1, 10⟩⟩, .token ⟨.name "x", "x", ⟨1, 12⟩⟩, .finish ⟨1, 13⟩] := by
  decide +kernel

/-- A name that begins as two reserved words do, with a sign behind it. -/
theorem token_maximal_sign_behind_name :
    let t : Token := ⟨.name "senao2", "senao2", ⟨1, 4⟩⟩
    .token t ∈ scan "se senao2<=x" ∧
    ∃ before behind, "se senao2<=x".toList = before ++ (t.lexeme.toList ++ behind) ∧ t.position = .behind before ∧
      scan t.lexeme = [.token { t with position := .start }, .finish (.behind t.lexeme.toList)] ∧
      ∀ longer, longer <+: t.lexeme.toList ++ behind → t.lexeme.toList.length < longer.length →
        ¬ IsLexeme (String.ofList longer) := by
  intro t
  have h : .token t ∈ scan "se senao2<=x" := by
    rw [scan_sign_behind_name]
    exact .tail _ (.head _)
  exact ⟨h, token_maximal h⟩

end Portugol
