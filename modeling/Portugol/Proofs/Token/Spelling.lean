import Portugol.Proofs.Token.Lines

/-! # Spelling tokens

A token is spelled with the fewest characters: a sign or a word as it is, a whole number in its digits, a text
between quotes with a backslash before each quote and each backslash inside. When tokens are spelled with one
blank between every two of them, the blank ends each token where its spelling ends, and scanning finds these
tokens and nothing else (`tokenize_spaced`). -/
namespace Portugol

/-! ## Spellings -/

/-- Names that are spelled as they are: a letter or an underscore, then letters, numbers and underscores, and no
reserved word. -/
def IsName (x : String) : Prop :=
  ∃ c letters, x.toList = c :: letters ∧ Piece.startsWord c ∧ (∀ d ∈ letters, Piece.continuesWord d) ∧
    Keyword.ofWord? x = none

namespace TokenKind

def escape (c : Char) : List Char := if c = '"' ∨ c = '\\' then ['\\', c] else [c]

def spelling : TokenKind → List Char
  | .symbol s => s.characters
  | .keyword k => k.word.toList
  | .name x => x.toList
  | .integer n => (Integer.render n).toList
  | .real x => (Decimal.plain x).toList
  | .text s => '"' :: (s.toList.flatMap escape ++ ['"'])

/-- The tokens that their spelling gives back: not those of a number below zero, which is an operator and a
number, nor those of a real number, which has many spellings. -/
def Spellable : TokenKind → Prop
  | .name x => IsName x
  | .integer n => 0 ≤ n.toInt
  | .real _ => False
  | .symbol _ | .keyword _ | .text _ => True

end TokenKind

/-- The spellings of tokens, with a blank between every two. -/
def spaced (kinds : List TokenKind) : List Char := [' '].intercalate (kinds.map TokenKind.spelling)

namespace Piece

/-! ## Characters that begin and continue words -/

theorem le_of_isAlphabetic {c : Char} (h : Text.isAlphabetic c) : 0x41 ≤ c.toNat := by
  apply Nat.le_of_not_lt
  intro hlt
  rw [Text.isAlphabetic, Text.alphabeticRanges, Text.Ranges.within, if_pos (by omega)] at h
  cases h

theorem startsWord_of_isAlpha {c : Char} (h : c.isAlpha) : startsWord c := by
  simp [startsWord, Text.isAlphabetic_of_isAlpha h]

theorem continuesWord_of_isAlpha {c : Char} (h : c.isAlpha) : continuesWord c := by
  simp [continuesWord, Text.isAlphabetic_of_isAlpha h]

theorem continuesWord_of_isDigit {c : Char} (h : c.isDigit) : continuesWord c := by
  simp [continuesWord, Text.isNumeric_of_isDigit h]

theorem continuesWord_of_startsWord {c : Char} (h : startsWord c) : continuesWord c := by
  simp only [startsWord, continuesWord, Bool.or_eq_true] at h ⊢
  exact h.imp_left .inl

theorem continuesWord_blank : continuesWord ' ' = false := not_continuesWord_of_isBlank rfl

theorem not_isDigit_of_startsWord {c : Char} (h : startsWord c) : c.isDigit = false := by
  rw [startsWord, Bool.or_eq_true, decide_eq_true_eq] at h
  rcases h with h | rfl
  · have hle := le_of_isAlphabetic h
    rw [Bool.eq_false_iff]
    intro hdigit
    simp only [Char.isDigit, Bool.and_eq_true, decide_eq_true_eq, ge_iff_le, UInt32.le_iff_toNat_le] at hdigit
    have hhigh : c.toNat ≤ 57 := hdigit.2
    omega
  · rfl

theorem not_startsWord_quote : startsWord '"' = false := by
  decide +kernel

/-- A sign never begins with a character that a word begins with. -/
theorem at?_eq_none_of_startsWord {c : Char} (h : startsWord c) (next : Option Char) : Symbol.at? c next = none := by
  unfold Symbol.at?
  split
  case h_18 => rfl
  all_goals exact absurd h (by decide +kernel)

theorem at?_eq_none_of_isDigit {c : Char} (h : c.isDigit) (next : Option Char) : Symbol.at? c next = none := by
  unfold Symbol.at?
  split
  case h_18 => rfl
  all_goals exact absurd h (by decide)

/-! ## What begins with a quote, a digit or a letter -/

theorem munch_eq_quoted (rest : List Char) : munch '"' rest = quoted rest := by
  simp [munch, Symbol.at?]

theorem munch_eq_number {c : Char} (hc : c.isDigit) (rest : List Char) : munch c rest = number c rest := by
  have hslash : c ≠ '/' := by
    rintro rfl
    exact absurd hc (by decide)
  have hquote : c ≠ '"' := by
    rintro rfl
    exact absurd hc (by decide)
  simp only [munch, hslash, false_and, if_false, at?_eq_none_of_isDigit hc, hquote, hc, if_true]

theorem munch_eq_word {c : Char} (hc : startsWord c) (rest : List Char) : munch c rest = word c rest := by
  have hslash : c ≠ '/' := by
    rintro rfl
    exact absurd hc (by decide +kernel)
  have hquote : c ≠ '"' := by
    rintro rfl
    rw [not_startsWord_quote] at hc
    cases hc
  simp only [munch, hslash, false_and, if_false, at?_eq_none_of_startsWord hc, hquote, not_isDigit_of_startsWord hc, hc,
    if_true]
  rfl

/-! ## Tokens before a blank -/

/-- Nothing follows, or a blank does. -/
def Apart (rest : List Char) : Prop := ∀ c ∈ rest.head?, c = ' '

theorem apart_nil : Apart [] := nofun

variable {rest : List Char}

section Stops

variable {p : Char → Bool} {body : List Char} (hbody : ∀ c ∈ body, p c)
include hbody

/-- A run of characters is over where the first one that does not belong to it follows. -/
theorem takeWhile_run (hrest : ∀ c ∈ rest.head?, p c = false) : (body ++ rest).takeWhile p = body := by
  rw [List.takeWhile_append_of_pos hbody]
  cases rest with
  | nil => rw [List.takeWhile_nil, List.append_nil]
  | cons c rest => rw [List.takeWhile_cons_of_neg (by simp [hrest c rfl]), List.append_nil]

theorem dropWhile_run (hrest : ∀ c ∈ rest.head?, p c = false) : (body ++ rest).dropWhile p = rest := by
  rw [List.dropWhile_append_of_pos hbody]
  cases rest with
  | nil => rfl
  | cons c rest => rw [List.dropWhile_cons_of_neg (by simp [hrest c rfl])]

/-- Of two runs with what does not belong to them behind, neither is longer. -/
theorem run_cancel {body' rest' : List Char} (hbody' : ∀ c ∈ body', p c) (hrest : ∀ c ∈ rest.head?, p c = false)
    (hrest' : ∀ c ∈ rest'.head?, p c = false) (h : body ++ rest = body' ++ rest') : body = body' ∧ rest = rest' := by
  constructor
  · rw [← takeWhile_run hbody hrest, h, takeWhile_run hbody' hrest']
  · rw [← dropWhile_run hbody hrest, h, dropWhile_run hbody' hrest']

theorem takeWhile_apart (hp : p ' ' = false) (hrest : Apart rest) : (body ++ rest).takeWhile p = body := by
  refine takeWhile_run hbody fun c hc => ?_
  rwa [hrest c hc]

end Stops

theorem munch_symbol {s : Symbol} {c : Char} {body : List Char} (hs : s.characters = c :: body)
    (hrest : Apart rest) : munch c (body ++ rest) = (.token (.symbol s), body.length) := by
  cases rest with
  | nil => cases s <;> cases hs <;> rfl
  | cons d rest =>
    obtain rfl := hrest d rfl
    cases s <;> cases hs <;> rfl

section Words

variable {c : Char} {letters : List Char} (hc : startsWord c) (hletters : ∀ d ∈ letters, continuesWord d)
include hc hletters

theorem munch_keyword {k : Keyword} (hk : Keyword.ofWord? (String.ofList (c :: letters)) = some k)
    (hrest : Apart rest) : munch c (letters ++ rest) = (.token (.keyword k), letters.length) := by
  rw [munch_eq_word hc, word, takeWhile_apart hletters continuesWord_blank hrest, hk]

theorem munch_name (hfree : Keyword.ofWord? (String.ofList (c :: letters)) = none) (hrest : Apart rest) :
    munch c (letters ++ rest) = (.token (.name (String.ofList (c :: letters))), letters.length) := by
  rw [munch_eq_word hc, word, takeWhile_apart hletters continuesWord_blank hrest, hfree]

end Words

/-- Digits are a number up to what is neither a digit nor a point. -/
theorem number_digits (c : Char) {digits : List Char} (hdigits : ∀ d ∈ digits, d.isDigit)
    (hrest : ∀ d ∈ rest.head?, d.isDigit = false ∧ d ≠ '.') :
    number c (digits ++ rest) = (match Integer.fit? (Nat.ofDigitChars 10 (c :: digits) 0) with
      | some n => .token (.integer n)
      | none => .fault (.malformedNumber (String.ofList (c :: digits))), digits.length) := by
  have hdigit : ∀ d ∈ rest.head?, d.isDigit = false := fun d hd => (hrest d hd).1
  have hpoint : rest.head? ≠ some '.' := fun h => (hrest '.' h).2 rfl
  simp only [number, takeWhile_run hdigits hdigit, dropWhile_run hdigits hdigit, hpoint, if_false, List.length_cons,
    Nat.add_sub_cancel]
  cases Integer.fit? (Nat.ofDigitChars 10 (c :: digits) 0) <;> rfl

theorem toList_render {n : Int64} (hn : 0 ≤ n.toInt) :
    (Integer.render n).toList = Nat.toDigits 10 n.toInt.toNat := by
  rw [Integer.render, ← Int.toNat_of_nonneg hn]
  exact Nat.toList_repr

theorem munch_integer {n : Int64} (hn : 0 ≤ n.toInt) {c : Char} {digits : List Char}
    (hdigits : Nat.toDigits 10 n.toInt.toNat = c :: digits) (hrest : Apart rest) :
    munch c (digits ++ rest) = (.token (.integer n), digits.length) := by
  have hall : ∀ d ∈ c :: digits, d.isDigit := by
    rw [← hdigits]
    exact fun d hd => Nat.isDigit_of_mem_toDigits (by decide) (by decide) hd
  obtain ⟨hc, hbody⟩ := List.forall_mem_cons.1 hall
  have hstop : ∀ d ∈ rest.head?, d.isDigit = false ∧ d ≠ '.' := by
    intro d hd
    obtain rfl := hrest d hd
    exact ⟨rfl, by decide⟩
  have hvalue : Nat.ofDigitChars 10 (c :: digits) 0 = n.toInt.toNat := by
    rw [← hdigits, Nat.ofDigitChars_ten_toDigits]
  have hfit : Integer.fit? (n.toInt.toNat : Int) = some n :=
    Integer.fit?_eq_some_iff.2 (Int.toNat_of_nonneg hn).symm
  rw [munch_eq_number hc, number_digits c hbody hstop, hvalue, hfit]

theorem written_escape (s : List Char) : Written s (s.flatMap TokenKind.escape) := by
  induction s with
  | nil => exact .nil
  | cons c s ih =>
    rw [List.flatMap_cons]
    refine .cons ?_ ih
    by_cases hc : c = '"' ∨ c = '\\'
    · rw [TokenKind.escape, if_pos hc]
      rcases hc with rfl | rfl <;> exact .escaped (by decide) (by decide)
    · rw [TokenKind.escape, if_neg hc]
      rw [not_or] at hc
      exact .plain hc.1 hc.2

theorem munch_text (s : String) (rest : List Char) :
    munch '"' (s.toList.flatMap TokenKind.escape ++ ['"'] ++ rest) =
      (.token (.text s), (s.toList.flatMap TokenKind.escape ++ ['"']).length) := by
  rw [munch_eq_quoted]
  simp [quoted, textEnd_written (written_escape s.toList)]

theorem isAlpha_word (k : Keyword) : ∃ c letters, k.word.toList = c :: letters ∧ c.isAlpha ∧
    ∀ d ∈ letters, d.isAlpha := by
  have hall : k.word.toList.all Char.isAlpha = true := by cases k <;> rfl
  obtain ⟨c, letters, hk⟩ : ∃ c letters, k.word.toList = c :: letters := by
    cases k <;> exact ⟨_, _, rfl⟩
  rw [hk, List.all_cons, Bool.and_eq_true, List.all_eq_true] at hall
  exact ⟨c, letters, hk, hall⟩

/-- A reserved word consists of letters. -/
theorem exists_letters_of_ofWord? {w : String} {k : Keyword} (h : Keyword.ofWord? w = some k) :
    ∃ c letters, w.toList = c :: letters ∧ startsWord c ∧ ∀ d ∈ letters, continuesWord d := by
  by_cases hw : w = "senão"
  · subst hw
    have hletters : ['e', 'n', 'ã', 'o'].all continuesWord = true := by decide +kernel
    exact ⟨'s', ['e', 'n', 'ã', 'o'], rfl, by decide +kernel, List.all_eq_true.1 hletters⟩
  · rw [Keyword.ofWord?, if_neg hw] at h
    obtain rfl : k.word = w := by simpa using List.find?_some h
    obtain ⟨c, letters, hk, hc, hletters⟩ := isAlpha_word k
    exact ⟨c, letters, hk, startsWord_of_isAlpha hc, fun d hd => continuesWord_of_isAlpha (hletters d hd)⟩

/-- A spelling in front of a blank is one piece, the token that it spells. -/
theorem munch_spelling {kind : TokenKind} (h : kind.Spellable) : ∃ c body, kind.spelling = c :: body ∧
    ∀ rest, Apart rest → munch c (body ++ rest) = (.token kind, body.length) := by
  cases kind with
  | symbol s =>
    obtain ⟨c, body, hs⟩ : ∃ c body, s.characters = c :: body := by
      cases s <;> exact ⟨_, _, rfl⟩
    exact ⟨c, body, hs, fun rest hrest => munch_symbol hs hrest⟩
  | keyword k =>
    obtain ⟨c, letters, hk, hc, hletters⟩ := isAlpha_word k
    have hword : Keyword.ofWord? (String.ofList (c :: letters)) = some k := by
      rw [← hk, String.ofList_toList, Keyword.ofWord?_word]
    exact ⟨c, letters, hk, fun rest hrest => munch_keyword (startsWord_of_isAlpha hc)
      (fun d hd => continuesWord_of_isAlpha (hletters d hd)) hword hrest⟩
  | name x =>
    obtain ⟨c, letters, hx, hc, hletters, hfree⟩ := h
    rw [← String.ofList_toList (s := x), hx] at hfree
    refine ⟨c, letters, hx, fun rest hrest => ?_⟩
    rw [munch_name hc hletters hfree hrest, ← hx, String.ofList_toList]
  | integer n =>
    obtain ⟨c, digits, hn⟩ := List.exists_cons_of_ne_nil (Nat.toDigits_ne_nil (n := n.toInt.toNat) (b := 10))
    exact ⟨c, digits, (toList_render h).trans hn, fun rest hrest => munch_integer h hn hrest⟩
  | real x => exact h.elim
  | text s => exact ⟨'"', _, rfl, fun rest _ => munch_text s rest⟩

/-- A token is told by its spelling. -/
theorem spelling_inj {kind kind' : TokenKind} (h : kind.Spellable) (h' : kind'.Spellable)
    (hsame : kind.spelling = kind'.spelling) : kind = kind' := by
  obtain ⟨c, body, hspelling, hmunch⟩ := munch_spelling h
  obtain ⟨c', body', hspelling', hmunch'⟩ := munch_spelling h'
  rw [hspelling, hspelling', List.cons.injEq] at hsame
  obtain ⟨rfl, rfl⟩ := hsame
  have hboth := (hmunch [] apart_nil).symm.trans (hmunch' [] apart_nil)
  simpa using hboth

/-! ## Spaced tokens -/

theorem pieces_munched {c : Char} {body rest : List Char} {content : Content}
    (h : munch c (body ++ rest) = (content, body.length)) :
    pieces (c :: (body ++ rest)) = ⟨c :: body, content⟩ :: pieces rest := by
  rw [pieces_cons, h]
  simp

end Piece

/-- Each token is a piece, and so is each blank between two. -/
theorem pieces_spaced_cons {kind : TokenKind} (h : kind.Spellable) (kinds : List TokenKind) :
    pieces (spaced (kind :: kinds)) = ⟨kind.spelling, .token kind⟩ ::
      (if kinds = [] then [] else ⟨[' '], .gap⟩ :: pieces (spaced kinds)) := by
  obtain ⟨c, body, hspelling, hmunch⟩ := Piece.munch_spelling h
  cases kinds with
  | nil =>
    have := Piece.pieces_munched (hmunch [] Piece.apart_nil)
    simpa [spaced, hspelling] using this
  | cons next kinds =>
    have hapart : Piece.Apart (' ' :: spaced (next :: kinds)) := by
      rintro d ⟨⟩
      rfl
    have := Piece.pieces_munched (hmunch _ hapart)
    rw [Piece.pieces_blank (d := ' ') _ rfl] at this
    simpa [spaced, hspelling] using this

theorem ofPieces_spaced {kinds : List TokenKind} (h : ∀ kind ∈ kinds, kind.Spellable) (p : Position) :
    ((Report.ofPieces p (pieces (spaced kinds))).filterMap Report.token?).map Token.kind = kinds ∧
    (Report.ofPieces p (pieces (spaced kinds))).filterMap Report.error? = [] := by
  induction kinds generalizing p with
  | nil => simp [spaced, Report.ofPieces, Report.token?, Report.error?]
  | cons kind kinds ih =>
    obtain ⟨hkind, hkinds⟩ := List.forall_mem_cons.1 h
    rw [pieces_spaced_cons hkind]
    split
    · next hnil => simp [hnil, Report.ofPieces, Report.ofPiece, Report.token?, Report.error?]
    · obtain ⟨htokens, herrors⟩ := ih hkinds ((p.after kind.spelling).after [' '])
      constructor
      · simpa [Report.ofPieces, Report.ofPiece, Report.token?] using htokens
      · simpa [Report.ofPieces, Report.ofPiece, Report.error?] using herrors

/-- Scanning spaced tokens finds them, and no errors. -/
theorem tokenize_spaced {kinds : List TokenKind} (h : ∀ kind ∈ kinds, kind.Spellable) :
    (tokenize (String.ofList (spaced kinds))).tokens.map Token.kind = kinds ∧
    (tokenize (String.ofList (spaced kinds))).errors = [] := by
  have hscan := ofPieces_spaced h .start
  simpa only [tokenize, scan, String.toList_ofList] using hscan

end Portugol
