import Portugol.Token.Piece

/-! # Where comments and texts end

A block comment ends at the first mark that closes it (`commentEnd_eq_some_iff`). A text literal ends at the first quote
that does not belong to a character before it: between the quotes each character of the value is written as itself or
behind a backslash (`WrittenChar`), and reading the literal gives this value and the number of characters up to that
quote (`textEnd_eq_some_iff`). Neither answer depends on what follows. -/
namespace Portugol.Piece

variable {text value body : List Char} {n : Nat}

/-! ## Comments -/

theorem exists_of_commentEnd (h : commentEnd text = some n) : ∃ body rest, text = body ++ '*' :: '/' :: rest ∧
    (¬ ['*', '/'] <:+: body ++ ['*']) ∧ n = body.length + 2 := by
  fun_induction commentEnd text generalizing n with
  | case1 => cases h
  | case2 rest =>
    cases h
    exact ⟨[], rest, rfl, by decide, rfl⟩
  | case3 c text hne ih =>
    obtain ⟨m, hm, rfl⟩ := Option.map_eq_some_iff.1 h
    obtain ⟨body, rest, rfl, hfirst, rfl⟩ := ih hm
    refine ⟨c :: body, rest, rfl, fun hmark => ?_, rfl⟩
    rw [List.cons_append, List.infix_cons_iff] at hmark
    rcases hmark with hhere | hlater
    · -- A mark that begins with the character passed over would have been found there.
      obtain ⟨rfl, tail, htail⟩ := List.cons_prefix_cons.1 hhere
      refine hne (tail ++ '/' :: rest) rfl ?_
      rw [← List.singleton_append (l := '/' :: rest), ← List.append_assoc, ← htail]
      rfl
    · exact hfirst hlater

theorem commentEnd_body (h : ¬ ['*', '/'] <:+: body ++ ['*']) (rest : List Char) :
    commentEnd (body ++ '*' :: '/' :: rest) = some (body.length + 2) := by
  induction body with
  | nil =>
    rw [List.nil_append, commentEnd]
    rfl
  | cons c body ih =>
    rw [List.cons_append, List.infix_cons_iff, not_or] at h
    obtain ⟨hhere, hlater⟩ := h
    rw [List.cons_append, commentEnd, ih hlater]
    · rfl
    rintro tail rfl htail
    refine hhere (List.cons_prefix_cons.2 ⟨rfl, ?_⟩)
    cases body with
    | nil => cases htail
    | cons d body =>
      cases htail
      exact ⟨_, rfl⟩

theorem commentEnd_eq_some_iff : commentEnd text = some n ↔ ∃ body rest, text = body ++ '*' :: '/' :: rest ∧
    (¬ ['*', '/'] <:+: body ++ ['*']) ∧ n = body.length + 2 := by
  constructor
  · exact exists_of_commentEnd
  · rintro ⟨body, rest, rfl, hbody, rfl⟩
    exact commentEnd_body hbody rest

theorem commentEnd_append (h : commentEnd text = some n) (more : List Char) : commentEnd (text ++ more) = some n := by
  obtain ⟨body, rest, rfl, hbody, rfl⟩ := commentEnd_eq_some_iff.1 h
  exact commentEnd_eq_some_iff.2 ⟨body, rest ++ more, by simp, hbody, rfl⟩

theorem commentEnd_le (h : commentEnd text = some n) : n ≤ text.length := by
  obtain ⟨body, rest, rfl, -, rfl⟩ := commentEnd_eq_some_iff.1 h
  simp only [List.length_append, List.length_cons]
  omega

/-! ## Texts -/

/-- How a character of a text may be written between quotes. -/
inductive WrittenChar : Char → List Char → Prop where
  | plain {c} (hquote : c ≠ '"') (hslash : c ≠ '\\') : WrittenChar c [c]
  | escaped {c} (hn : c ≠ 'n') (ht : c ≠ 't') : WrittenChar c ['\\', c]
  | lineFeed : WrittenChar '\n' ['\\', 'n']
  | tab : WrittenChar '\t' ['\\', 't']

/-- How a text may be written between quotes: character by character. -/
inductive Written : List Char → List Char → Prop where
  | nil : Written [] []
  | cons {c code value body} (hc : WrittenChar c code) (h : Written value body) : Written (c :: value) (code ++ body)

theorem writtenChar_unescape (c : Char) : WrittenChar (unescape c) ['\\', c] := by
  unfold unescape
  split
  · next hn =>
    subst hn
    exact .lineFeed
  split
  · next ht =>
    subst ht
    exact .tab
  · next hn ht => exact .escaped hn ht

/-- A character that is written as itself. -/
theorem textEnd_cons {c : Char} (hquote : c ≠ '"') (hslash : c ≠ '\\') (text : List Char) :
    textEnd (c :: text) = (textEnd text).map fun read => (c :: read.1, read.2 + 1) := by
  rw [textEnd]
  · exact hquote
  · exact fun hc _ => hslash hc
  · exact fun _ _ hc _ => hslash hc

theorem textEnd_writtenChar {c : Char} {code : List Char} (h : WrittenChar c code) (text : List Char) :
    textEnd (code ++ text) = (textEnd text).map fun read => (c :: read.1, read.2 + code.length) := by
  cases h with
  | plain hquote hslash => exact textEnd_cons hquote hslash text
  | escaped hn ht =>
    rw [List.cons_append, List.cons_append, textEnd, unescape, if_neg hn, if_neg ht]
    rfl
  | lineFeed | tab =>
    rw [List.cons_append, List.cons_append, textEnd]
    rfl

theorem textEnd_written (h : Written value body) (rest : List Char) :
    textEnd (body ++ '"' :: rest) = some (value, body.length + 1) := by
  induction h with
  | nil =>
    rw [List.nil_append, textEnd]
    rfl
  | cons hc h ih =>
    rw [List.append_assoc, textEnd_writtenChar hc, ih, Option.map_some, List.length_append]
    simp only [Option.some.injEq, Prod.mk.injEq, true_and]
    omega

theorem exists_of_textEnd (h : textEnd text = some (value, n)) :
    ∃ body rest, text = body ++ '"' :: rest ∧ Written value body ∧ n = body.length + 1 := by
  fun_induction textEnd text generalizing value n with
  | case1 => cases h
  | case2 rest =>
    cases h
    exact ⟨[], rest, rfl, .nil, rfl⟩
  | case3 => cases h
  | case4 c rest ih =>
    obtain ⟨⟨v, m⟩, hm, heq⟩ := Option.map_eq_some_iff.1 h
    cases heq
    obtain ⟨body, after, rfl, hbody, rfl⟩ := ih hm
    exact ⟨'\\' :: c :: body, after, rfl, .cons (writtenChar_unescape c) hbody, rfl⟩
  | case5 c rest hquote hlast hmore ih =>
    obtain ⟨⟨v, m⟩, hm, heq⟩ := Option.map_eq_some_iff.1 h
    cases heq
    have hslash : c ≠ '\\' := by
      rintro rfl
      cases rest with
      | nil => exact hlast rfl rfl
      | cons d rest => exact hmore d rest rfl rfl
    obtain ⟨body, after, rfl, hbody, rfl⟩ := ih hm
    exact ⟨c :: body, after, rfl, .cons (.plain hquote hslash) hbody, rfl⟩

theorem textEnd_eq_some_iff : textEnd text = some (value, n) ↔
    ∃ body rest, text = body ++ '"' :: rest ∧ Written value body ∧ n = body.length + 1 := by
  constructor
  · exact exists_of_textEnd
  · rintro ⟨body, rest, rfl, hbody, rfl⟩
    exact textEnd_written hbody rest

theorem textEnd_append (h : textEnd text = some (value, n)) (more : List Char) :
    textEnd (text ++ more) = some (value, n) := by
  obtain ⟨body, rest, rfl, hbody, rfl⟩ := textEnd_eq_some_iff.1 h
  exact textEnd_eq_some_iff.2 ⟨body, rest ++ more, by simp, hbody, rfl⟩

theorem textEnd_le (h : textEnd text = some (value, n)) : n ≤ text.length := by
  obtain ⟨body, rest, rfl, -, rfl⟩ := textEnd_eq_some_iff.1 h
  simp only [List.length_append, List.length_cons]
  omega

end Portugol.Piece
