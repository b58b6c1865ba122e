import Portugol.Proofs.Machine.Sequels

/-! # Sources with the same tokens

Blanks, comments and the spelling of a token tell nothing. Two sources without lexical errors whose tokens stand for the
same are read alike: each has the program of the other at the places of its own tokens, or the errors of the other at
the tokens with the same numbers. The two programs run alike (`Program.parse_and_run_alike`). A position tells the
number of its token because no two tokens of a source stand at the same position. -/
namespace Portugol

namespace Tokens

/-- Where the token with a number stands, the first one having the number zero; behind all of them the source ends. -/
def place (t : Tokens) (i : Nat) : Position := (t.tokens[i]?.map Token.position).getD t.stop

def index (t : Tokens) (p : Position) : Nat := t.tokens.findIdx fun token => token.position = p

/-- From the place of each token of a source to the place of the token with the same number in another one. -/
def across (t u : Tokens) (p : Position) : Position := u.place (t.index p)

end Tokens

/-- Two errors that ask for the same and find the same, at the tokens with the same number in two sources. -/
def SyntaxError.Counterparts (t u : Tokens) (e e' : SyntaxError) : Prop :=
  ∃ expected found i, i ≤ t.tokens.length ∧ e = .unexpected ⟨expected, found, t.place i⟩ ∧
    e' = .unexpected ⟨expected, found, u.place i⟩

/-! ## Numbers of tokens -/

variable {a b : String}

/-- A place tells the number of its token, or that it is the end of the source. -/
theorem index_place (source : String) {i : Nat} (hi : i ≤ (tokenize source).tokens.length) :
    (tokenize source).index ((tokenize source).place i) = i := by
  rw [Tokens.index, Tokens.place]
  rcases Nat.lt_or_eq_of_le hi with hlt | rfl
  · rw [List.getElem?_eq_getElem hlt, List.findIdx_eq hlt]
    refine ⟨decide_eq_true rfl, fun j hj => decide_eq_false fun heq => ?_⟩
    have hbefore := List.pairwise_iff_getElem.1 (sorted_tokens source) j i (by omega) hlt hj
    rw [heq] at hbefore
    exact Position.lt_irrefl _ hbefore
  · rw [List.getElem?_eq_none (Nat.le_refl _), List.findIdx_eq_length]
    refine fun t ht => decide_eq_false fun heq => ?_
    have hbefore := token_lt_stop ht
    rw [heq] at hbefore
    exact Position.lt_irrefl _ hbefore

theorem across_place (u : Tokens) {i : Nat} (hi : i ≤ (tokenize a).tokens.length) :
    (tokenize a).across u ((tokenize a).place i) = u.place i := by
  rw [Tokens.across, index_place a hi]

theorem across_stop (u : Tokens) (hlen : u.tokens.length = (tokenize a).tokens.length) :
    (tokenize a).across u (tokenize a).stop = u.stop := by
  have hstop (t : Tokens) : t.place t.tokens.length = t.stop := by
    rw [Tokens.place, List.getElem?_eq_none (Nat.le_refl _)]
    rfl
  have hplace := across_place (a := a) u (Nat.le_refl _)
  rwa [hstop, ← hlen, hstop] at hplace

/-- Tokens with the same numbers stand for the same, each at its place. -/
theorem shifted_across (h : (tokenize a).tokens.map Token.kind = (tokenize b).tokens.map Token.kind) :
    Grammar.Shifted ((tokenize a).across (tokenize b)) (tokenize a).tokens (tokenize b).tokens := by
  have hlen : (tokenize a).tokens.length = (tokenize b).tokens.length := by
    simpa using congrArg List.length h
  refine List.forall₂_iff_get.2 ⟨hlen, fun i hi hi' => ⟨?_, ?_⟩⟩
  · have hkind := congrArg (·[i]?) h
    simpa [hi, hi'] using hkind
  · have hplace := across_place (a := a) (tokenize b) (Nat.le_of_lt hi)
    rw [Tokens.place, Tokens.place, List.getElem?_eq_getElem hi, List.getElem?_eq_getElem hi'] at hplace
    exact hplace

/-- Each error of statements that were given up is told at a token that has a number, or at the end. -/
theorem exists_number {e : Grammar.Unexpected}
    (he : e ∈ (Grammar.statements (tokenize a).cursor).2.errors.toList) :
    ∃ i ≤ (tokenize a).tokens.length, e.position = (tokenize a).place i := by
  have htold := Grammar.statements_told (tokenize a).tokens (tokenize a).stop
  obtain ⟨rest, hrest, -, hposition⟩ := htold.exists_rest e he
  refine ⟨(tokenize a).tokens.length - rest.length, Nat.sub_le _ _, ?_⟩
  rw [hposition, Grammar.placeOf, List.suffix_iff_eq_drop.1 hrest, List.head?_drop, ← List.suffix_iff_eq_drop.1 hrest,
    Tokens.place]

/-! ## Reading and running -/

namespace Program

/-- Two sources whose tokens stand for the same are both programs, the same one at the places of their own tokens, or
neither is; then they have the same errors, at the tokens with the same numbers. The two programs, run from the same
machine, leave the same variables, input and output, and end in the same way, up to the position of an error. -/
theorem parse_and_run_alike (ha : (tokenize a).errors = []) (hb : (tokenize b).errors = [])
    (h : (tokenize a).tokens.map Token.kind = (tokenize b).tokens.map Token.kind) :
    (∃ first second, Program.parse a = .ok first ∧ Program.parse b = .ok second ∧
      second = first.moved ((tokenize a).across (tokenize b)) ∧
      ∀ (o : Options) (fuel : Nat) (m : Machine),
        Outcome.Moved ((tokenize a).across (tokenize b)) (first.run o fuel m) (second.run o fuel m)) ∨
    ∃ errors errors', Program.parse a = .error errors ∧ Program.parse b = .error errors' ∧
      List.Forall₂ (SyntaxError.Counterparts (tokenize a) (tokenize b)) errors errors' := by
  have hall := shifted_across h
  have hlen := hall.length_eq
  obtain ⟨hread, herrors⟩ := Grammar.statements_shifted hall (tokenize a).stop #[] (Nat.le_of_eq hlen) (Nat.le_refl _)
  rw [across_stop (tokenize b) hlen.symm] at hread herrors
  -- What is read of the second source is what is read of the first one, moved.
  change (Grammar.statements (tokenize b).cursor).1 = (Grammar.statements (tokenize a).cursor).1.map _ at hread
  change (Grammar.statements (tokenize b).cursor).2.errors.toList =
    (Grammar.statements (tokenize a).cursor).2.errors.toList.map _ at herrors
  by_cases hnone : (Grammar.statements (tokenize a).cursor).2.errors = #[]
  · left
    have hnone' : (Grammar.statements (tokenize b).cursor).2.errors = #[] := by
      rw [hnone] at herrors
      exact Array.toList_eq_nil_iff.1 herrors
    refine ⟨⟨_⟩, _, Grammar.programFrom_eq_ok_iff.2 ⟨ha, hnone, rfl⟩,
      Grammar.programFrom_eq_ok_iff.2 ⟨hb, hnone', ?_⟩, rfl, fun o fuel m => run_moved _ o fuel _ m⟩
    exact hread
  · right
    have hsome (source : String) (hlexical : (tokenize source).errors = [])
        (hne : (Grammar.statements (tokenize source).cursor).2.errors.toList ≠ []) :
        Program.parse source =
          .error ((Grammar.statements (tokenize source).cursor).2.errors.toList.map .unexpected) := by
      rw [parse_eq_error_iff, hlexical, SyntaxError.inOrder_nil]
      exact ⟨by simpa using hne, rfl⟩
    have hne : (Grammar.statements (tokenize a).cursor).2.errors.toList ≠ [] := by simpa using hnone
    refine ⟨_, _, hsome a ha hne, hsome b hb (by simpa [herrors] using hne), ?_⟩
    rw [herrors, List.map_map, List.forall₂_map_right_iff, List.forall₂_map_left_iff, List.forall₂_same]
    intro e he
    obtain ⟨i, hi, hplace⟩ := exists_number he
    refine ⟨e.expected, e.found, i, hi, by rw [← hplace], ?_⟩
    rw [← across_place (tokenize b) hi, ← hplace]
    rfl

theorem tokenize_output : tokenize "escreva(y);" =
    ⟨[⟨.keyword .escreva, "escreva", ⟨1, 1⟩⟩, ⟨.symbol .openParen, "(", ⟨1, 8⟩⟩, ⟨.name "y", "y", ⟨1, 9⟩⟩,
      ⟨.symbol .closeParen, ")", ⟨1, 10⟩⟩, ⟨.symbol .semicolon, ";", ⟨1, 11⟩⟩], [], ⟨1, 12⟩⟩ := by
  decide +kernel

theorem tokenize_commented : tokenize "escreva( // x\n y) ;" =
    ⟨[⟨.keyword .escreva, "escreva", ⟨1, 1⟩⟩, ⟨.symbol .openParen, "(", ⟨1, 8⟩⟩, ⟨.name "y", "y", ⟨2, 2⟩⟩,
      ⟨.symbol .closeParen, ")", ⟨2, 3⟩⟩, ⟨.symbol .semicolon, ";", ⟨2, 5⟩⟩], [], ⟨2, 6⟩⟩ := by
  decide +kernel

/-- An unknown name behind a comment is told where it stands. -/
theorem parse_and_run_alike_commented :
    (tokenize "escreva(y);").errors = [] ∧ (tokenize "escreva( // x\n y) ;").errors = [] ∧
    (tokenize "escreva(y);").tokens.map Token.kind = (tokenize "escreva( // x\n y) ;").tokens.map Token.kind ∧
    ∃ second m, Program.parse "escreva( // x\n y) ;" = .ok second ∧
      second.run ⟨false, false⟩ 0 (.start [] none) = .failed (.undefinedVariable "y" ⟨2, 2⟩) m := by
  have ha : (tokenize "escreva(y);").errors = [] := by rw [tokenize_output]
  have hb : (tokenize "escreva( // x\n y) ;").errors = [] := by rw [tokenize_commented]
  have h : (tokenize "escreva(y);").tokens.map Token.kind =
      (tokenize "escreva( // x\n y) ;").tokens.map Token.kind := by
    rw [tokenize_output, tokenize_commented]
    rfl
  have hfirst : Program.parse "escreva(y);" = .ok ⟨[.write [.name "y" ⟨1, 9⟩] ⟨1, 1⟩]⟩ :=
    Grammar.programFrom_eq_ok_iff.2 ⟨ha, by rw [statements_output]; rfl, by rw [statements_output]⟩
  refine ⟨ha, hb, h, ?_⟩
  rcases parse_and_run_alike ha hb h with ⟨first, second, hok, hok', -, hrun⟩ | ⟨errors, -, herror, -⟩
  · cases hfirst.symm.trans hok
    have hplace : (tokenize "escreva(y);").across (tokenize "escreva( // x\n y) ;") ⟨1, 9⟩ = ⟨2, 2⟩ := by
      rw [tokenize_output, tokenize_commented]
      rfl
    have hmoved := hrun ⟨false, false⟩ 0 (.start [] none)
    generalize hr : second.run ⟨false, false⟩ 0 (.start [] none) = r at hmoved
    cases hmoved with
    | @failed _ _ m _ =>
      rw [RuntimeError.moved, hplace] at hr
      exact ⟨second, m, hok', hr⟩
  · cases hfirst.symm.trans herror

end Program
end Portugol
