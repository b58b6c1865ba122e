import Portugol.Proofs.Syntax.Places
import Portugol.Proofs.Token.Endings
import Portugol.Token.Scan

/-! # Sources put one below the other

A source that is put below another one, behind a line feed, is scanned as it is alone, only further down: the
reports on both are those on the first and then those on the second (`scan_below`, `tokenize_below`). The first source
must not end inside a text or a comment; whatever else it ends with is ended by the line feed, as any token is by
any blank (`Piece.munch_blank`). -/
namespace Portugol

/-! ## Positions -/

namespace Position

theorem after_lower (k : Nat) (p : Position) (text : List Char) : (p.lower k).after text = (p.after text).lower k := by
  have hstep (p : Position) (c : Char) : (p.lower k).step c = (p.step c).lower k := by
    rw [step, step]
    split
    · simp only [lower, Nat.add_right_comm]
    · rfl
  induction text generalizing p with
  | nil => rfl
  | cons c text ih => rw [after_cons, after_cons, hstep, ih]

theorem line_after (p : Position) (text : List Char) : (p.after text).line = p.line + text.count '\n' := by
  induction text generalizing p with
  | nil => rfl
  | cons c text ih =>
    rw [after_cons, ih, step, List.count_cons]
    by_cases hc : c = '\n'
    · simp only [hc, if_true, beq_self_eq_true]
      omega
    · simp [hc]

/-- Behind a line feed one stands where one began, but further down. -/
theorem start_after_line (text : List Char) : start.after (text ++ ['\n']) = start.lower (text.count '\n' + 1) := by
  have hline := line_after start text
  rw [after_append, after_cons, after_nil, step, if_pos rfl, hline, lower]
  simp only [start, Nat.add_assoc]

end Position

def Token.moved (f : Position → Position) (t : Token) : Token := { t with position := f t.position }

def LexicalError.moved (f : Position → Position) (e : LexicalError) : LexicalError :=
  { e with position := f e.position }

def Tokens.moved (f : Position → Position) (t : Tokens) : Tokens :=
  ⟨t.tokens.map (Token.moved f), t.errors.map (LexicalError.moved f), f t.stop⟩

/-- How many lines lie above a source that is put below this one. -/
def height (source : String) : Nat := source.toList.count '\n' + 1

theorem height_below (a b : String) : height (a ++ "\n" ++ b) = height a + height b := by
  simp [height]
  omega

/-- A source ends in its last line. -/
theorem line_stop (source : String) : (tokenize source).stop.line = height source := by
  have hline := Position.line_after .start source.toList
  rw [height, Nat.add_comm]
  exact hline

def Content.IsOpen (content : Content) : Prop :=
  content = .fault .unterminatedText ∨ content = .fault .unterminatedComment

namespace Piece

/-! ## A blank ends a piece -/

/-- No blank goes on with a word or a number. -/
theorem not_continuesWord_of_isBlank {c : Char} (h : Text.isBlank c) : continuesWord c = false := by
  have hapart := Text.Ranges.of_within Text.blankRanges_sorted (p := fun n =>
    !(Text.Ranges.within Text.alphabeticRanges n || Text.Ranges.within Text.numericRanges n)) (by decide +kernel) h
  have hline : c ≠ '_' := Text.ne_of_isBlank h (by decide)
  simpa [continuesWord, Text.isAlphabetic, Text.isNumeric, hline] using hapart

theorem not_isDigit_of_isBlank {c : Char} (h : Text.isBlank c) : c.isDigit = false := by
  rw [Bool.eq_false_iff]
  intro hdigit
  have hword := not_continuesWord_of_isBlank h
  simp [continuesWord, Text.isNumeric_of_isDigit hdigit] at hword

variable {rest : List Char} {d : Char} (more : List Char)

theorem takeWhile_stop {p : Char → Bool} (hd : p d = false) :
    (rest ++ d :: more).takeWhile p = rest.takeWhile p := by
  induction rest with
  | nil => simp [hd]
  | cons c rest ih =>
    rw [List.cons_append, List.takeWhile_cons, List.takeWhile_cons, ih]

theorem dropWhile_stop {p : Char → Bool} (hd : p d = false) :
    (rest ++ d :: more).dropWhile p = rest.dropWhile p ++ d :: more := by
  induction rest with
  | nil => simp [hd]
  | cons c rest ih =>
    rw [List.cons_append, List.dropWhile_cons, List.dropWhile_cons, ih]
    split <;> rfl

theorem head?_stop (rest more : List Char) {c : Char} (hd : d ≠ c) :
    (rest ++ d :: more).head? = some c ↔ rest.head? = some c := by
  cases rest with
  | nil => simpa using hd
  | cons e rest => rfl

theorem at?_blank (hd : Text.isBlank d) (c : Char) :
    Symbol.at? c (rest ++ d :: more).head? = Symbol.at? c rest.head? := by
  cases rest with
  | nil =>
    have hsign : d ≠ '=' ∧ d ≠ '-' ∧ d ≠ '&' ∧ d ≠ '|' :=
      ⟨Text.ne_of_isBlank hd rfl, Text.ne_of_isBlank hd rfl, Text.ne_of_isBlank hd rfl, Text.ne_of_isBlank hd rfl⟩
    rw [List.nil_append, List.head?_cons, List.head?_nil]
    unfold Symbol.at?
    split <;> simp [hsign]
  | cons e rest => rfl

theorem comment_append (h : ¬ (comment rest).1.IsOpen) (hne : rest ≠ []) : comment (rest ++ more) = comment rest := by
  obtain ⟨c, rest, rfl⟩ := List.exists_cons_of_ne_nil hne
  simp only [comment, List.tail_cons, List.cons_append] at h ⊢
  cases hend : commentEnd rest with
  | none =>
    rw [hend] at h
    exact absurd (.inr rfl) h
  | some n => rw [commentEnd_append hend]

theorem quoted_append (h : ¬ (quoted rest).1.IsOpen) : quoted (rest ++ more) = quoted rest := by
  simp only [quoted] at h ⊢
  cases hend : textEnd rest with
  | none =>
    rw [hend] at h
    exact absurd (.inl rfl) h
  | some value => rw [textEnd_append hend]

theorem number_blank (hd : Text.isBlank d) (c : Char) : number c (rest ++ d :: more) = number c rest := by
  have hdigit := not_isDigit_of_isBlank hd
  have hpoint : d ≠ '.' := Text.ne_of_isBlank hd (by decide)
  simp only [number, takeWhile_stop more hdigit, dropWhile_stop more hdigit, head?_stop _ more hpoint]
  split
  · next hpoint =>
    obtain ⟨fraction, hfraction⟩ := List.head?_eq_some_iff.1 hpoint
    rw [hfraction, List.cons_append, List.tail_cons, List.tail_cons, takeWhile_stop more hdigit]
  · rfl

theorem word_blank (hd : Text.isBlank d) (c : Char) : word c (rest ++ d :: more) = word c rest := by
  simp only [word, takeWhile_stop more (not_continuesWord_of_isBlank hd)]

/-- A piece that does not stay open is the same with a blank behind the source; after a comment of one line the blank
has to be a line feed. -/
theorem munch_blank {c : Char} (hd : Text.isBlank d) (h : ¬ (munch c rest).1.IsOpen)
    (hgap : (munch c rest).1 = .gap → d = '\n') : munch c (rest ++ d :: more) = munch c rest := by
  have hbar := head?_stop rest more (Text.ne_of_isBlank hd (by decide) : d ≠ '/')
  have hstar := head?_stop rest more (Text.ne_of_isBlank hd (by decide) : d ≠ '*')
  simp only [munch, hbar, hstar, at?_blank more hd] at h hgap ⊢
  split
  · next hcomment =>
    rw [if_pos hcomment] at hgap
    obtain rfl := hgap rfl
    rw [takeWhile_stop more rfl]
  next hcomment =>
  rw [if_neg hcomment] at h
  split
  · next hopen =>
    rw [if_pos hopen] at h
    exact comment_append _ h (by rintro rfl; cases hopen.2)
  next hcomment =>
  rw [if_neg hcomment] at h
  cases hs : Symbol.at? c rest.head? with
  | some s => rfl
  | none =>
    rw [hs] at h
    simp only at h ⊢
    split
    · next hquote =>
      rw [if_pos hquote] at h
      exact quoted_append _ h
    · rw [number_blank more hd, word_blank more hd]

/-! ## Pieces stay within the source -/

theorem comment_le (hne : rest ≠ []) : (comment rest).2 ≤ rest.length := by
  obtain ⟨c, rest, rfl⟩ := List.exists_cons_of_ne_nil hne
  simp only [comment, List.tail_cons]
  cases hend : commentEnd rest with
  | none => exact Nat.le_refl _
  | some n => exact Nat.succ_le_succ (commentEnd_le hend)

theorem quoted_le : (quoted rest).2 ≤ rest.length := by
  simp only [quoted]
  cases hend : textEnd rest with
  | none => exact Nat.le_refl _
  | some value => exact textEnd_le hend

theorem number_le (c : Char) : (number c rest).2 ≤ rest.length := by
  have hsplit : (rest.takeWhile Char.isDigit).length + (rest.dropWhile Char.isDigit).length = rest.length := by
    rw [← List.length_append, List.takeWhile_append_dropWhile]
  simp only [number]
  split
  · next hpoint =>
    obtain ⟨beyond, hbeyond⟩ := List.head?_eq_some_iff.1 hpoint
    rw [hbeyond, List.length_cons] at hsplit
    have hfraction := (List.takeWhile_sublist Char.isDigit (l := beyond)).length_le
    rw [hbeyond, List.tail_cons]
    split
    · simp only [List.length_cons]
      omega
    · simp only [List.length_cons]
      omega
  · split <;> simp only [List.length_cons, Nat.add_sub_cancel] <;> omega

theorem tail_le {c : Char} {s : Symbol} (h : Symbol.at? c rest.head? = some s) : s.tail ≤ rest.length := by
  have hlen := congrArg List.length (Symbol.characters_of_at? h)
  rw [List.length_cons, List.length_take] at hlen
  have htail : s.tail = s.characters.length - 1 := rfl
  omega

theorem munch_le (c : Char) (rest : List Char) : (munch c rest).2 ≤ rest.length := by
  simp only [munch]
  split
  · exact (List.takeWhile_sublist _).length_le
  split
  · next hopen => exact comment_le (by rintro rfl; cases hopen.2)
  split
  · next s hs => exact tail_le hs
  split
  · exact quoted_le
  split
  · exact number_le c
  split
  · exact (List.takeWhile_sublist _).length_le
  split
  · exact Nat.zero_le _
  · exact Nat.zero_le _

/-! ## The pieces of two sources -/

theorem munch_of_isBlank (hd : Text.isBlank d) : munch d more = (.gap, 0) := by
  have hword : startsWord d = false := by
    have := not_continuesWord_of_isBlank hd
    simp_all [startsWord, continuesWord]
  have hsign : Symbol.at? d more.head? = none := by
    unfold Symbol.at?
    split
    case h_18 => rfl
    all_goals exact absurd hd (by decide)
  have hbar : d ≠ '/' := Text.ne_of_isBlank hd (by decide)
  have hquote : d ≠ '"' := Text.ne_of_isBlank hd (by decide)
  simp [munch, hbar, hsign, hquote, not_isDigit_of_isBlank hd, hword, hd]

theorem pieces_blank (hd : Text.isBlank d) : pieces (d :: more) = ⟨[d], .gap⟩ :: pieces more := by
  rw [pieces_cons, munch_of_isBlank more hd, List.take_zero, List.drop_zero]

theorem pieces_below {source : List Char} (h : ∀ piece ∈ pieces source, ¬ piece.content.IsOpen)
    (more : List Char) : pieces (source ++ '\n' :: more) = pieces source ++ ⟨['\n'], .gap⟩ :: pieces more := by
  fun_induction pieces source with
  | case1 => rw [List.nil_append, List.nil_append, pieces_blank more rfl]
  | case2 c rest content n hmunch ih =>
    obtain ⟨hpiece, hpieces⟩ := List.forall_mem_cons.1 h
    have hle : n ≤ rest.length := by
      have := munch_le c rest
      rwa [hmunch] at this
    have hboth : munch c (rest ++ '\n' :: more) = (content, n) := by
      rw [munch_blank more rfl _ fun _ => rfl, hmunch]
      rwa [hmunch]
    rw [List.cons_append, pieces_cons, hboth, List.cons_append, ← ih hpieces,
      List.take_append_of_le_length hle, List.drop_append_of_le_length hle]

end Piece

namespace Report

def moved (f : Position → Position) : Report → Report
  | .token t => .token (t.moved f)
  | .error e => .error (e.moved f)
  | .finish p => .finish (f p)

theorem ofPieces_lower (k : Nat) (p : Position) (ps : List Piece) :
    ofPieces (p.lower k) ps = (ofPieces p ps).map (moved (Position.lower k)) := by
  induction ps generalizing p with
  | nil => rfl
  | cons piece rest ih =>
    rw [ofPieces, ofPieces, List.map_append, Position.after_lower, ih]
    congr 1
    unfold ofPiece
    split <;> rfl

theorem filterMap_token?_moved (f : Position → Position) (reports : List Report) :
    (reports.map (moved f)).filterMap token? = (reports.filterMap token?).map (Token.moved f) := by
  rw [List.filterMap_map, List.map_filterMap]
  congr 1
  funext r
  cases r <;> rfl

theorem filterMap_error?_moved (f : Position → Position) (reports : List Report) :
    (reports.map (moved f)).filterMap error? = (reports.filterMap error?).map (LexicalError.moved f) := by
  rw [List.filterMap_map, List.map_filterMap]
  congr 1
  funext r
  cases r <;> rfl

theorem ofPieces_ne_nil (p : Position) (ps : List Piece) : ofPieces p ps ≠ [] := by
  induction ps generalizing p with
  | nil => exact List.cons_ne_nil _ _
  | cons piece rest ih => exact List.append_ne_nil_of_right_ne_nil _ (ih _)

/-- The end is reported behind all pieces, everything else of each part alone. -/
theorem ofPieces_append (p : Position) (ps qs : List Piece) :
    ofPieces p (ps ++ qs) = (ofPieces p ps).dropLast ++ ofPieces (p.after (ps.map Piece.text).flatten) qs := by
  induction ps generalizing p with
  | nil => rfl
  | cons piece rest ih =>
    rw [List.cons_append, ofPieces, ofPieces, ih, List.dropLast_append_of_ne_nil (ofPieces_ne_nil _ _),
      List.append_assoc, List.map_cons, List.flatten_cons, Position.after_append]

end Report

/-! ## Tokens and errors of two sources -/

/-- A source with no error that it could end inside of. -/
def Tokens.Ends (t : Tokens) : Prop := ∀ e ∈ t.errors, ¬ (Content.fault e.cause).IsOpen

theorem Tokens.ends_of_errors_eq_nil {t : Tokens} (h : t.errors = []) : t.Ends := by
  rw [Ends, h]
  exact nofun

theorem Report.error_mem_ofPieces {ps : List Piece} {piece : Piece} (h : piece ∈ ps) {cause : LexicalFault}
    (hcause : piece.content = .fault cause) (p : Position) :
    ∃ q, Report.error ⟨cause, q⟩ ∈ ofPieces p ps := by
  induction ps generalizing p with
  | nil => cases h
  | cons first rest ih =>
    rw [ofPieces]
    rcases List.mem_cons.1 h with rfl | h
    · refine ⟨p, List.mem_append_left _ ?_⟩
      rw [ofPiece, hcause]
      exact Option.mem_toList.2 rfl
    · obtain ⟨q, hq⟩ := ih h (p.after first.text)
      exact ⟨q, List.mem_append_right _ hq⟩

/-- The pieces of a source that ends come to an end. -/
theorem Piece.not_isOpen {source : String} (h : (tokenize source).Ends) :
    ∀ piece ∈ pieces source.toList, ¬ piece.content.IsOpen := by
  intro piece hpiece hopen
  obtain ⟨cause, hcause⟩ : ∃ cause, piece.content = .fault cause := by
    rcases hopen with hopen | hopen <;> exact ⟨_, hopen⟩
  obtain ⟨q, hq⟩ := Report.error_mem_ofPieces hpiece hcause .start
  have herror : (⟨cause, q⟩ : LexicalError) ∈ (tokenize source).errors := List.mem_filterMap.2 ⟨_, hq, rfl⟩
  exact h _ herror (hcause ▸ hopen)

/-- A scan comes to the end at last. -/
theorem scan_eq (source : String) : scan source = (scan source).dropLast ++ [.finish (tokenize source).stop] := by
  have happend := Report.ofPieces_append .start (pieces source.toList) []
  rwa [List.append_nil, Piece.flatten_pieces] at happend

/-- What concerns tokens or errors does not concern the end. -/
theorem filterMap_dropLast_scan {α : Type} {f : Report → Option α} (hf : ∀ p, f (.finish p) = none) (source : String) :
    (scan source).dropLast.filterMap f = (scan source).filterMap f := by
  conv =>
    rhs
    rw [scan_eq]
  simp [hf]

/-- Below a source that ends, another one is scanned as it is alone, as many lines further down as the first has. -/
theorem scan_below {a : String} (h : (tokenize a).Ends) (b : String) :
    scan (a ++ "\n" ++ b) = (scan a).dropLast ++ (scan b).map (Report.moved (Position.lower (height a))) := by
  have htext : (a ++ "\n" ++ b).toList = a.toList ++ '\n' :: b.toList := by simp
  have hstart : (Position.start.after a.toList).step '\n' = Position.start.lower (height a) := by
    rw [height, ← Position.start_after_line, Position.after_append]
    rfl
  rw [scan, htext, Piece.pieces_below (Piece.not_isOpen h), Report.ofPieces_append, Piece.flatten_pieces,
    Report.ofPieces, Position.after_cons, Position.after_nil, hstart, Report.ofPieces_lower]
  rfl

theorem tokenize_below {a : String} (h : (tokenize a).Ends) (b : String) :
    tokenize (a ++ "\n" ++ b) =
      ⟨(tokenize a).tokens ++ (tokenize b).tokens.map (Token.moved (Position.lower (height a))),
        (tokenize a).errors ++ (tokenize b).errors.map (LexicalError.moved (Position.lower (height a))),
        (tokenize b).stop.lower (height a)⟩ := by
  have htext : (a ++ "\n" ++ b).toList = a.toList ++ ['\n'] ++ b.toList := by simp
  have hbelow : Position.start.after (a.toList ++ ['\n']) = Position.start.lower (height a) :=
    Position.start_after_line a.toList
  simp only [tokenize, scan_below h, List.filterMap_append, filterMap_dropLast_scan (f := Report.token?) fun _ => rfl,
    filterMap_dropLast_scan (f := Report.error?) fun _ => rfl, Report.filterMap_token?_moved,
    Report.filterMap_error?_moved]
  rw [htext, Position.after_append, hbelow, Position.after_lower]

/-- No state of a scan goes over a line feed that is not inside of a text or a comment: what is reported of two sources,
one below the other, is what is reported of the first before its end, and then what is reported of the second, only
further down. -/
theorem scan_over_line {a : String} (h : (tokenize a).Ends) (b : String) :
    (∃ told, scan a = told ++ [.finish (tokenize a).stop] ∧
      scan (a ++ "\n" ++ b) = told ++ (scan b).map (Report.moved (Position.lower (height a)))) ∧
    (tokenize (a ++ "\n" ++ b)).tokens =
      (tokenize a).tokens ++ (tokenize b).tokens.map (Token.moved (Position.lower (height a))) ∧
    (tokenize (a ++ "\n" ++ b)).errors =
      (tokenize a).errors ++ (tokenize b).errors.map (LexicalError.moved (Position.lower (height a))) ∧
    (tokenize (a ++ "\n" ++ b)).stop = (tokenize b).stop.lower (height a) := by
  refine ⟨⟨_, scan_eq a, scan_below h b⟩, ?_⟩
  rw [tokenize_below h]
  exact ⟨rfl, rfl, rfl⟩

theorem errors_cut_short : (tokenize "1.\n|<").errors =
    [⟨.malformedNumber "1.", ⟨1, 1⟩⟩, ⟨.unexpectedCharacter '|', ⟨2, 1⟩⟩] := by
  decide +kernel

/-- A number, a sign of two characters and another one that are cut short, and a text that does not end below. -/
theorem scan_over_line_cut_short :
    let a := "1.\n|<"
    let b := "= \"oi"
    (tokenize a).Ends ∧
    (∃ told, scan a = told ++ [.finish (tokenize a).stop] ∧
      scan (a ++ "\n" ++ b) = told ++ (scan b).map (Report.moved (Position.lower (height a)))) ∧
    (tokenize (a ++ "\n" ++ b)).tokens =
      (tokenize a).tokens ++ (tokenize b).tokens.map (Token.moved (Position.lower (height a))) ∧
    (tokenize (a ++ "\n" ++ b)).errors =
      (tokenize a).errors ++ (tokenize b).errors.map (LexicalError.moved (Position.lower (height a))) ∧
    (tokenize (a ++ "\n" ++ b)).stop = (tokenize b).stop.lower (height a) := by
  intro a b
  have h : (tokenize a).Ends := by
    rw [Tokens.Ends, errors_cut_short]
    simp [Content.IsOpen]
  exact ⟨h, scan_over_line h b⟩

end Portugol
