import Portugol.Proofs.Grammar.Following
import Portugol.Proofs.Token.Lines

/-! # Sources one below the other

Where a source comes to its end between two statements, nothing of it is carried on: what is put below it is read as
it is alone (`Program.parse_below`). There is one exception, an "else", which belongs to the conditional above it. -/
namespace Portugol

def SyntaxError.moved (f : Position → Position) : SyntaxError → SyntaxError
  | .lexical e => .lexical (e.moved f)
  | .unexpected e => .unexpected (e.moved f)

theorem Statement.FlattensAll.length_le {ss : List Statement} {n : Nat} {ts : List Token}
    (h : Statement.FlattensAll ss n ts) : ss.length ≤ ts.length := by
  induction ss generalizing n ts with
  | nil => exact Nat.zero_le _
  | cons s ss ih =>
    cases h with
    | cons hs hss =>
      obtain ⟨t, us, rfl, -⟩ := hs.exists_first
      have := ih hss
      simp only [List.length_cons, List.length_append]
      omega

theorem Statement.FlattensAll.noElse {ss : List Statement} {n : Nat} {ts : List Token}
    (h : Statement.FlattensAll ss n ts) {rest : List Token} (hrest : Grammar.Rule.NoElse rest) :
    Grammar.Rule.NoElse (ts ++ rest) := by
  cases h with
  | nil => exact hrest
  | cons hs _ =>
    obtain ⟨t, us, rfl, hfirst⟩ := hs.exists_first
    exact Grammar.Rule.noElse_of_first hfirst _

namespace Grammar

theorem Unexpected.moved_id (e : Unexpected) : e.moved id = e := rfl

/-- Statements that are there are read, and then the others. -/
theorem many_append {ss : List Statement} {n : Nat} {ts : List Token} (h : Statement.FlattensAll ss n ts)
    {bound count : Nat} (hlen : ts.length ≤ bound) (hcount : ts.length ≤ count) {p : Cursor} {rest : List Token}
    (hp : p.unread = ts ++ rest) (hroom : p.depth + n ≤ maxNesting) (hrest : Rule.NoElse rest) :
    many endsProgram (attempt (statement bound)) count p =
      (ss ++ (many endsProgram (attempt (statement bound)) (count - ss.length) { p with unread := rest }).1,
        (many endsProgram (attempt (statement bound)) (count - ss.length) { p with unread := rest }).2) := by
  induction ss generalizing n ts count p with
  | nil =>
    cases h
    obtain rfl : p.unread = rest := hp
    rfl
  | cons s ss ih =>
    cases h with
    | @cons _ _ m n ts us hs hss =>
      obtain ⟨t, ts', rfl, -⟩ := hs.exists_first
      simp only [List.length_append, List.length_cons] at hlen hcount
      -- Each statement has a token, so what is left of the count suffices for the others.
      obtain ⟨count, rfl⟩ : ∃ k, count = k + 1 := ⟨count - 1, by omega⟩
      have hfirst : attempt (statement bound) p = (some s, { p with unread := us ++ rest }) := by
        have hread := (Rule.statement_answers hs bound (by simp only [List.length_cons]; omega)
          (hss.noElse hrest) p (by simp [hp]) (by omega)).1 (by omega)
        rw [attempt, hread]
      have hgoes : endsProgram p.found = false := by simp [endsProgram, Cursor.found, hp]
      have hlen' : us.length ≤ bound := by omega
      have hcount' : us.length ≤ count := by omega
      have hmore := ih hss hlen' hcount' (p := { p with unread := us ++ rest }) rfl (by simp only; omega)
      rw [many, hgoes, if_neg (by simp)]
      simp only [hfirst, hmore]
      simp

/-- Tokens that stand for the same as others, at the images of their places. -/
def Shifted (f : Position → Position) : List Token → List Token → Prop :=
  List.Forall₂ fun t t' => t.kind = t'.kind ∧ f t.position = t'.position

theorem shifted_moved (f : Position → Position) (tokens : List Token) :
    Shifted f tokens (tokens.map (Token.moved f)) := by
  rw [Shifted, List.forall₂_map_right_iff, List.forall₂_same]
  exact fun t _ => ⟨rfl, rfl⟩

/-- The tokens of a source beside others that stand for the same, which may have more behind them. -/
theorem abreast_shifted {f : Position → Position} {tokens others rest : List Token} {stop : Position} {p : Cursor}
    (h : Shifted f tokens others) (hp : p.unread = others ++ rest) (hdepth : p.depth = 0)
    (hend : tokens = [] → rest = [] ∧ p.stop = f stop) :
    Abreast ⟨f, [], stop, []⟩ ⟨id, rest, p.stop, p.errors.toList⟩ (.start tokens stop) p := by
  refine ⟨⟨rfl, rfl, hdepth, [], [], rfl, (List.append_nil _).symm, rfl⟩,
    ⟨_, _, (List.append_nil _).symm, hp, h⟩, fun hnil => ?_⟩
  obtain ⟨hrest, hstop⟩ := hend hnil
  exact ⟨rfl, hrest, hstop.symm⟩

/-- Tokens that stand for the same as those of a source, at places of their own: the same statements there, and the
same errors beside those that were known. -/
theorem statements_shifted {f : Position → Position} {tokens others : List Token} (h : Shifted f tokens others)
    (stop : Position) (known : Array Unexpected) {bound count : Nat} (hcount : tokens.length ≤ count)
    (hbound : count ≤ bound) :
    (many endsProgram (attempt (statement bound)) count ⟨others, f stop, 0, known⟩).1 =
        (statements (.start tokens stop)).1.map (Statement.moved f) ∧
      (many endsProgram (attempt (statement bound)) count ⟨others, f stop, 0, known⟩).2.errors.toList =
        known.toList ++ (statements (.start tokens stop)).2.errors.toList.map (Unexpected.moved f) := by
  have hstart := @abreast_shifted f tokens others [] stop ⟨others, f stop, 0, known⟩ h (List.append_nil _).symm rfl
    fun _ => ⟨rfl, rfl⟩
  have hlen : others.length ≤ count := h.length_eq ▸ hcount
  have hrelated := related_statements hstart (Nat.le_refl _) hlen (Nat.le_refl _) hbound
  rw [statements_start]
  cases hrelated with
  | beyond hopen => exact absurd ⟨rfl, rfl, rfl⟩ hopen
  | read hss hq =>
    obtain ⟨es, es', hes, hes', hsame⟩ := hq.errors
    have hss' := hss.symm
    simp only [Same, Placed.moved] at hss' hsame
    rw [funext Statement.moved_id, List.map_id'] at hss'
    rw [funext Unexpected.moved_id, List.map_id'] at hsame
    rw [List.nil_append] at hes
    exact ⟨hss', by rw [hes', ← hsame, ← hes]; rfl⟩

/-- Below statements that are read, the tokens of another source make the same statements as alone, with the same
errors. -/
theorem statements_below {ss : List Statement} {n : Nat} {ts : List Token} (h : Statement.FlattensAll ss n ts)
    (hn : n ≤ maxNesting) (f : Position → Position) {us : List Token} (hus : Rule.NoElse us) (stop : Position) :
    (statements (.start (ts ++ us.map (Token.moved f)) (f stop))).1 =
        ss ++ (statements (.start us stop)).1.map (Statement.moved f) ∧
      (statements (.start (ts ++ us.map (Token.moved f)) (f stop))).2.errors.toList =
        (statements (.start us stop)).2.errors.toList.map (Unexpected.moved f) := by
  have hrest : Rule.NoElse (us.map (Token.moved f)) := by
    rw [Rule.NoElse, List.head?_map, Option.map_map]
    exact hus
  have hss := h.length_le
  rw [statements_start, many_append h (by simp) (by simp) rfl (by simpa [Cursor.start] using hn) hrest]
  have hcount : us.length ≤ (ts ++ us.map (Token.moved f)).length - ss.length := by
    rw [List.length_append, List.length_map]
    omega
  obtain ⟨hread, herrors⟩ := statements_shifted (shifted_moved f us) stop #[] hcount (Nat.sub_le _ _)
  exact ⟨congrArg (ss ++ ·) hread, herrors⟩

end Grammar

/-! ## Errors in order -/

namespace SyntaxError

variable (lexical : List LexicalError) (unexpected : List Grammar.Unexpected)

theorem le_lower (k : Nat) (p q : Position) : (p.lower k).le (q.lower k) = p.le q := by
  rw [Bool.eq_iff_iff]
  change p.lower k ≤ q.lower k ↔ p ≤ q
  simp only [Position.le_def, Position.lower, Nat.add_lt_add_iff_right, Nat.add_right_cancel_iff]

theorem inOrder_lower (k : Nat) :
    inOrder (lexical.map (LexicalError.moved (.lower k))) (unexpected.map (Grammar.Unexpected.moved (.lower k))) =
      (inOrder lexical unexpected).map (SyntaxError.moved (.lower k)) := by
  have hle : ∀ a ∈ lexical.map SyntaxError.lexical, ∀ b ∈ unexpected.map SyntaxError.unexpected,
      a.position.le b.position = (a.moved (.lower k)).position.le (b.moved (.lower k)).position := by
    intro a _ b _
    cases a <;> cases b <;> exact (le_lower k _ _).symm
  rw [inOrder, inOrder, List.map_merge (s := fun a b => a.position.le b.position) hle]
  simp only [List.map_map]
  rfl

/-- An error before all lexical ones stands before them. -/
theorem inOrder_cons {lexical : List LexicalError} {e : Grammar.Unexpected}
    (h : ∀ d ∈ lexical, e.position < d.position) (es : List Grammar.Unexpected) :
    inOrder lexical (e :: es) = .unexpected e :: inOrder lexical es := by
  rw [inOrder, List.map_cons]
  cases lexical with
  | nil => simp [inOrder]
  | cons d lexical =>
    have hd : ¬ (SyntaxError.lexical d).position ≤ (SyntaxError.unexpected e).position := by
      intro hle
      exact Position.lt_irrefl _ (Position.lt_of_lt_of_le (h d List.mem_cons_self) hle)
    rw [List.map_cons, List.cons_merge_cons]
    exact if_neg hd

end SyntaxError

namespace Program

/-- Below a program a source is read as it is alone, as many lines further down as the program has. -/
theorem parse_below {a b : String} {program : Program} (ha : Program.parse a = .ok program)
    (hb : Grammar.Rule.NoElse (tokenize b).tokens) :
    Program.parse (a ++ "\n" ++ b) = match Program.parse b with
      | .ok more => .ok ⟨program.statements ++ (more.moved (.lower (height a))).statements⟩
      | .error errors => .error (errors.map (SyntaxError.moved (.lower (height a)))) := by
  obtain ⟨hlexical, n, hn, hall⟩ := Grammar.flattens_of_programFrom ha
  have htokens := tokenize_below (Tokens.ends_of_errors_eq_nil hlexical) b
  obtain ⟨hread, herrors⟩ :=
    Grammar.statements_below hall hn (.lower (height a)) hb (tokenize b).stop
  rw [Program.parse, Program.parse, htokens, hlexical, List.nil_append]
  simp only [Grammar.programFrom, Tokens.cursor, hread, herrors, SyntaxError.inOrder_lower]
  cases SyntaxError.inOrder (tokenize b).errors
    (Grammar.statements (.start (tokenize b).tokens (tokenize b).stop)).2.errors.toList with
  | nil => rfl
  | cons e errors => rfl

theorem tokenize_line : tokenize "var x = 1;" =
    ⟨[⟨.keyword .var, "var", ⟨1, 1⟩⟩, ⟨.name "x", "x", ⟨1, 5⟩⟩, ⟨.symbol .becomes, "=", ⟨1, 7⟩⟩,
      ⟨.integer 1, "1", ⟨1, 9⟩⟩, ⟨.symbol .semicolon, ";", ⟨1, 10⟩⟩], [], ⟨1, 11⟩⟩ := by
  decide +kernel

/-- A program of one line. -/
theorem parse_line : Program.parse "var x = 1;" =
    .ok ⟨[.declaration "x" none (some (.literal (.integer 1) ⟨1, 9⟩)) ⟨1, 1⟩]⟩ := by
  rw [parse, tokenize_line]
  exact Grammar.programFrom_eq_ok_iff.2 ⟨rfl, rfl, rfl⟩

end Program
end Portugol
