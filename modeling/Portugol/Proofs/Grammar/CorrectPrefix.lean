import Portugol.Proofs.Grammar.Following
import Portugol.Proofs.Grammar.Viability

/-! # The first token that does not fit

The first error that is told of a source that does not parse is at the first token at which the source can no longer
be continued to a program, unless it is that the nesting is too deep (`Program.first_unexpected`). The tokens before it
can be continued, since the rules only pass over what can. With the token they cannot: a program that began with them
would be read alongside the source, and the same error would be told of it. -/
namespace Portugol
namespace Grammar

def kindsToEnd (ts : List Token) : List (Option TokenKind) := ts.map (fun t => some t.kind) ++ [none]

/-- What comes first in some program that the grammar derives, however deep it is nested, or in its tokens and the end
of the source behind them. -/
def Continues (found : List (Option TokenKind)) : Prop :=
  ∃ ss n ts, Statement.FlattensAll ss n ts ∧ found <+: kindsToEnd ts

/-! ## Programs read alongside a source -/

/-- Where no position is told apart from another. -/
def besides (tail : List Token) (stop : Position) : Side := ⟨fun _ => .start, tail, stop, []⟩

/-- Errors that are the same begin with errors that ask for the same. -/
theorem Same.cons {l r : Side} {e : Unexpected} {es es' : List Unexpected} (h : Same l r (e :: es) es') :
    ∃ e' more', es' = e' :: more' ∧ e'.expected = e.expected := by
  cases es' with
  | nil => cases h
  | cons e' more' =>
    have hfirst : e.moved l.view = e'.moved r.view := (List.cons.inj h).1
    exact ⟨e', more', rfl, (congrArg Unexpected.expected hfirst).symm⟩

/-- Two sources whose tokens stand for the same up to one: if the first error of one of them is told at none of the
tokens behind, then it is the first error of the other one too. -/
theorem first_error_alike {us us' tail : List Token} {stop : Position} {e : Unexpected} {more : List Unexpected}
    (hus : List.Forall₂ (fun t t' => t.kind = t'.kind) us us')
    (herrors : (statements (.start (us ++ tail) stop)).2.errors.toList = e :: more)
    (tail' : List Token) (stop' : Position)
    (hbehind : (tail = [] ∧ tail' = []) ∨ (us ≠ [] ∧ ∀ rest, rest <:+ tail → ¬ e.At stop rest)) :
    ∃ e' more', (statements (.start (us' ++ tail') stop')).2.errors.toList = e' :: more' ∧
      e'.expected = e.expected := by
  let l := besides tail stop
  let r := besides tail' stop'
  have halike : List.Forall₂ (Alike l r) us us' := hus.imp fun t t' h => ⟨h, rfl⟩
  have hstart : Abreast l r (.start (us ++ tail) stop) (.start (us' ++ tail') stop') := by
    refine ⟨⟨rfl, rfl, rfl, [], [], rfl, rfl, rfl⟩, ⟨us, us', rfl, rfl, halike⟩, fun hend => ?_⟩
    rcases hbehind with ⟨ht, ht'⟩ | ⟨hne, -⟩
    · exact ⟨ht, ht', rfl⟩
    · exact absurd (List.append_left_eq_self.1 hend) hne
  have hrelated := related_statements hstart (Nat.le_refl _) (Nat.le_refl _) (Nat.le_refl _) (Nat.le_refl _)
  cases hrelated with
  | read _ hq =>
    obtain ⟨es, es', hes, hes', hsame⟩ := hq.errors
    obtain rfl : es = e :: more := hes.symm.trans herrors
    obtain ⟨e', more', rfl, he⟩ := hsame.cons
    exact ⟨e', more', hes', he⟩
  | @beyond _ _ es es' hopen hsame hb hb' =>
    obtain ⟨-, behind, hreported, htold⟩ := hb
    obtain ⟨-, behind', hreported', -⟩ := hb'
    have hfirst : es ++ behind = e :: more := hreported.symm.trans herrors
    cases es with
    | nil =>
      -- Then the first error is told at tokens that are not compared.
      obtain rfl : behind = e :: more := hfirst
      obtain ⟨rest, hrest, hat⟩ := htold.exists_rest e List.mem_cons_self
      rcases hbehind with ⟨ht, ht'⟩ | ⟨-, hnot⟩
      · exact absurd ⟨ht, ht', rfl⟩ hopen
      · exact absurd hat (hnot rest hrest)
    | cons e₀ es =>
      obtain rfl : e₀ = e := (List.cons.inj hfirst).1
      obtain ⟨e', more', rfl, he⟩ := hsame.cons
      exact ⟨e', more' ++ behind', hreported', he⟩

/-- No program that the grammar derives has a first error but that it is nested too deep. -/
theorem shallowerNesting_of_flattens {ss : List Statement} {n : Nat} {ts : List Token}
    (h : Statement.FlattensAll ss n ts) {stop : Position} {e : Unexpected} {more : List Unexpected}
    (he : (statements (.start ts stop)).2.errors.toList = e :: more) : e.expected = .shallowerNesting := by
  obtain ⟨hfit, hdeep⟩ := statements_answers h stop
  rcases Nat.lt_or_ge maxNesting n with hn | hn
  · obtain ⟨e', more', he', hexpected⟩ := hdeep hn
    obtain rfl : e' = e := (List.cons.inj (he'.symm.trans he)).1
    exact hexpected
  · rw [hfit hn] at he
    cases he

/-! ## The token at which the first error is told -/

variable {tokens before rest : List Token} {stop : Position} {e : Unexpected} {more : List Unexpected}

/-- The tokens before the first error can be continued. -/
theorem exists_before (herrors : (statements (.start tokens stop)).2.errors.toList = e :: more) :
    ∃ before rest, tokens = before ++ rest ∧ e.At stop rest ∧
      Continues (before.map fun t => some t.kind) := by
  have hviable := Rule.viable_many (Rule.statement_reads tokens.length) (Rule.viable_statement tokens.length)
    endsProgram tokens.length (.start tokens stop)
  obtain ⟨before, rest, htokens, hat, us, ss, n, hss⟩ := hviable e more herrors
  refine ⟨before, rest, htokens, hat, ss, n, _, hss, ?_⟩
  rw [kindsToEnd, List.map_append, List.append_assoc]
  exact List.prefix_append _ _

theorem forall₂_kinds {us us' : List Token} (h : us.map (fun t => some t.kind) = us'.map fun t => some t.kind) :
    List.Forall₂ (fun t t' => t.kind = t'.kind) us us' := by
  rw [← List.forall₂_eq_eq_eq, List.forall₂_map_left_iff, List.forall₂_map_right_iff] at h
  exact h.imp fun _ _ => Option.some.inj

/-- Tokens from a place on do not stand at any place behind it. -/
theorem not_at_behind {t : Token} {rest behind : List Token}
    (hsorted : (t :: rest).Pairwise fun t u => t.position < u.position) (hstop : ∀ u ∈ t :: rest, u.position < stop)
    (hat : e.At stop (t :: rest)) (hbehind : behind <:+ rest) : ¬ e.At stop behind := by
  rintro ⟨-, hposition⟩
  have hplace : e.position = t.position := hat.2
  rw [hplace] at hposition
  have hlt : t.position < placeOf stop behind := by
    cases behind with
    | nil => exact hstop t List.mem_cons_self
    | cons u behind => exact List.rel_of_pairwise_cons hsorted (hbehind.mem List.mem_cons_self)
  rw [← hposition] at hlt
  exact Position.lt_irrefl _ hlt

/-- With the token of the first error they cannot be. -/
theorem not_continues (hsorted : (before ++ rest).Pairwise fun t u => t.position < u.position)
    (hstop : ∀ t ∈ before ++ rest, t.position < stop)
    (herrors : (statements (.start (before ++ rest) stop)).2.errors.toList = e :: more) (hat : e.At stop rest)
    (hdeep : e.expected ≠ .shallowerNesting) :
    ¬ Continues (before.map (fun t => some t.kind) ++ [rest.head?.map Token.kind]) := by
  rintro ⟨ss, n, ts, hss, hprefix⟩
  rw [kindsToEnd, List.prefix_concat_iff] at hprefix
  cases rest with
  | nil =>
    rcases hprefix with heq | hprefix
    · have hus := forall₂_kinds (List.append_inj_left' heq rfl)
      obtain ⟨e', more', herrors', he⟩ := first_error_alike hus herrors [] stop (.inl ⟨rfl, rfl⟩)
      rw [List.append_nil] at herrors'
      exact hdeep (he ▸ shallowerNesting_of_flattens hss herrors')
    · have hnone := hprefix.mem (List.mem_append_right _ (List.mem_singleton.2 rfl))
      simp at hnone
  | cons t rest =>
    rcases hprefix with heq | hprefix
    · have hlast := List.append_inj_right' heq rfl
      simp at hlast
    · obtain ⟨kinds, hkinds⟩ := hprefix
      obtain ⟨us', tail', rfl, hus', -⟩ := List.map_eq_append_iff.1 hkinds.symm
      have hus : List.Forall₂ (fun t t' => t.kind = t'.kind) (before ++ [t]) us' :=
        forall₂_kinds (by rw [hus', List.map_append]; rfl)
      have hsuffix : (t :: rest) <:+ before ++ t :: rest := List.suffix_append _ _
      have hbehind : ∀ behind, behind <:+ rest → ¬ e.At stop behind := fun behind =>
        not_at_behind (hsorted.sublist hsuffix.sublist) (fun u hu => hstop u (hsuffix.mem hu)) hat
      rw [List.append_cons] at herrors
      obtain ⟨e', more', herrors', he⟩ := first_error_alike hus herrors tail' stop (.inr ⟨by simp, hbehind⟩)
      exact hdeep (he ▸ shallowerNesting_of_flattens hss herrors')

end Grammar

namespace Program

open Grammar

/-- The first error of a source that is no lexical one, unless it is that the nesting is too deep, is told at the first
token at which the source can no longer be continued to a program: what is before the token can be, and together with
the token, or with the end of the source if the error is told there, it cannot. -/
theorem first_unexpected {source : String} {errors : List SyntaxError}
    (h : Program.parse source = .error errors) {e : Unexpected} {more : List Unexpected}
    (he : errors.filterMap SyntaxError.unexpected? = e :: more) (hdeep : e.expected ≠ .shallowerNesting) :
    ∃ before rest, (tokenize source).tokens = before ++ rest ∧ e.At (tokenize source).stop rest ∧
      Continues (before.map fun t => some t.kind) ∧
      ¬ Continues (before.map (fun t => some t.kind) ++ [e.found]) := by
  obtain ⟨-, rfl⟩ := parse_eq_error_iff.1 h
  rw [SyntaxError.filterMap_unexpected?_inOrder] at he
  obtain ⟨before, rest, htokens, hat, hcontinues⟩ := exists_before he
  refine ⟨before, rest, htokens, hat, hcontinues, ?_⟩
  have hread : (Grammar.statements (.start (before ++ rest) (tokenize source).stop)).2.errors.toList = e :: more := by
    rw [← htokens]
    exact he
  rw [hat.1]
  exact not_continues (htokens ▸ sorted_tokens source) (fun t ht => token_lt_stop (htokens ▸ ht)) hread hat hdeep

theorem inOrder_unclosed : SyntaxError.inOrder (tokenize "se (x { }").errors
    (Grammar.statements (tokenize "se (x { }").cursor).2.errors.toList =
      [.unexpected ⟨.token (.symbol .closeParen), some (.symbol .openBrace), ⟨1, 7⟩⟩] := by
  have hlexical : (tokenize "se (x { }").errors = [] := by decide +kernel
  rw [hlexical, SyntaxError.inOrder_nil]
  decide +kernel

/-- A condition that is not closed can be continued, but not with a block. -/
theorem first_unexpected_unclosed :
    Program.parse "se (x { }" =
        .error [.unexpected ⟨.token (.symbol .closeParen), some (.symbol .openBrace), ⟨1, 7⟩⟩] ∧
      Expectation.token (.symbol .closeParen) ≠ .shallowerNesting ∧
      ∃ before rest, (tokenize "se (x { }").tokens = before ++ rest ∧
        (⟨.token (.symbol .closeParen), some (.symbol .openBrace), ⟨1, 7⟩⟩ : Unexpected).At
          (tokenize "se (x { }").stop rest ∧
        Continues (before.map fun t => some t.kind) ∧
        ¬ Continues (before.map (fun t => some t.kind) ++ [some (.symbol .openBrace)]) := by
  have hparse := parse_eq_error_iff.2 ⟨List.cons_ne_nil _ _, inOrder_unclosed.symm⟩
  exact ⟨hparse, nofun, first_unexpected hparse rfl nofun⟩

end Program
end Portugol
