import Portugol.Grammar.Program
import Portugol.Proofs.Grammar.Statements

/-! # What parsing answers

A source parses to a program if and only if it has no lexical error and the program flattens to its tokens, to all
of them. So there is at most one way to read the tokens, and what the grammar derives is refused for one reason
only: that it is nested too deep. -/
namespace Portugol

/-! ## Programs that the grammar derives are well shaped -/

/-- The statement is well shaped, and no expression of it costs more than it may. -/
structure Statement.ShapedWithin (room : Nat) (s : Statement) : Prop where
  wellShaped : s.WellShaped
  cost_le : ∀ e ∈ s.exprs, e.cost ≤ room

theorem Statement.ShapedWithin.mono {s : Statement} {room room' : Nat} (h : s.ShapedWithin room)
    (hle : room ≤ room') : s.ShapedWithin room' :=
  ⟨h.wellShaped, fun e he => Nat.le_trans (h.cost_le e he) hle⟩

/-- A statement that the grammar derives is well shaped, and its expressions cost no more than the derivation. -/
theorem Statement.Flattens.shapedWithin {s : Statement} {n : Nat} {ts : List Token} (h : s.Flattens n ts) :
    s.ShapedWithin n := by
  refine ⟨⟨fun e he => ?_, fun p hs => ?_⟩, fun e he => (h.exprs e he).1⟩
  · obtain ⟨-, us, -, hflat⟩ := h.exprs e he
    exact hflat.leveled
  · subst hs
    cases h

/-- So are statements in a row and all statements inside them. -/
theorem Statement.FlattensAll.shaped {ss : List Statement} {n : Nat} {ts : List Token}
    (h : Statement.FlattensAll ss n ts) : ∀ part ∈ Statement.partsAll ss, part.ShapedWithin n := by
  intro part hpart
  obtain ⟨k, us, hk, -, hflat⟩ := h.parts part hpart
  exact hflat.shapedWithin.mono hk

theorem Statement.FlattensAll.wellShaped {ss : List Statement} {n : Nat} {ts : List Token}
    (h : Statement.FlattensAll ss n ts) : ∀ part ∈ Statement.partsAll ss, part.WellShaped :=
  fun part hpart => (h.shaped part hpart).wellShaped

namespace Grammar

/-! ## All statements of a source -/

/-- Every statement has a first token, so where none was given up the bound suffices to come to the end. -/
theorem unread_eq_nil {rule : Rule Statement} [rule.Orderly] (hrule : rule.Reads Statement.Flattens)
    {bound : Nat} {p : Cursor} (hlen : p.unread.length ≤ bound)
    (h : (many endsProgram (attempt rule) bound p).2.errors = p.errors) :
    (many endsProgram (attempt rule) bound p).2.unread = [] := by
  induction bound generalizing p with
  | zero => exact List.length_eq_zero_iff.1 (Nat.le_zero.1 hlen)
  | succ bound ih =>
    rw [many] at h ⊢
    split
    · next hends => exact Cursor.found_eq_none_iff.1 (by simpa [endsProgram] using hends)
    · next hgoes =>
      rw [if_neg hgoes] at h
      have hfirst : (attempt rule p).2.errors = p.errors :=
        (Rule.leads_step (attempt rule) p).errors_eq (Rule.leads_step (many endsProgram (attempt rule) bound) _) h
      obtain ⟨s, -, hgives⟩ := Rule.gives_attempt hfirst
      obtain ⟨n, ts, hpass, hflat⟩ := hrule _ _ _ hgives
      obtain ⟨t, us, rfl, -⟩ := hflat.exists_first
      have hshorter := congrArg List.length hpass.unread_eq
      simp only [List.cons_append, List.length_cons, List.length_append] at hshorter
      exact ih (by omega) (h.trans hfirst.symm)

theorem statements_start (tokens : List Token) (stop : Position) :
    statements (.start tokens stop) =
      many endsProgram (attempt (statement tokens.length)) tokens.length (.start tokens stop) := rfl

/-- Where no error was added, the statements are those of the tokens, of all of them. -/
theorem statements_flattens {tokens : List Token} {stop : Position}
    (h : (statements (.start tokens stop)).2.errors = #[]) :
    ∃ n ≤ maxNesting, Statement.FlattensAll (statements (.start tokens stop)).1 n tokens := by
  have hrule := Rule.statement_reads tokens.length
  rw [statements_start] at h ⊢
  obtain ⟨n, ts, hpass, hall⟩ := Rule.many_reads hrule endsProgram tokens.length (.start tokens stop) _ _ ⟨rfl, h⟩
  have hend := unread_eq_nil hrule (p := .start tokens stop) (Nat.le_refl _) h
  have htokens : tokens = ts := by
    rw [← List.append_nil ts, ← hend]
    exact hpass.unread_eq
  have hroom := hpass.room (Nat.zero_le _)
  rw [← htokens] at hall
  exact ⟨n, by simpa [Cursor.start] using hroom, hall⟩

theorem statements_answers {ss : List Statement} {n : Nat} {tokens : List Token}
    (h : Statement.FlattensAll ss n tokens) (stop : Position) :
    (n ≤ maxNesting → statements (.start tokens stop) = (ss, .start [] stop)) ∧
    (maxNesting < n → ∃ e more, (statements (.start tokens stop)).2.errors.toList = e :: more ∧
      e.expected = .shallowerNesting) := by
  have hends : ∀ found, endsProgram found = true → endsBlock found = true := by
    intro found hnone
    rw [endsBlock, Bool.or_eq_true]
    exact .inl hnone
  have hall : (gather (many endsProgram (attempt (statement tokens.length)) tokens.length)).Answers ss n tokens [] :=
    Rule.many_answers h hends (Nat.le_refl _) (Nat.le_refl _) rfl
  obtain ⟨hfit, hdeep⟩ := hall (.start tokens stop) (List.append_nil _).symm (Nat.zero_le _)
  rw [statements_start]
  simp only [Cursor.start, Nat.zero_add] at hfit hdeep ⊢
  refine ⟨fun hn => ?_, fun hn => ?_⟩
  · have := hfit hn
    simp only [gather, Reply.read.injEq] at this
    exact Prod.ext this.1 this.2
  · obtain ⟨e, more, hmore, he⟩ := hdeep hn
    exact ⟨e, more, by simpa [gather, Reply.reported] using hmore, he⟩

/-! ## Programs -/

end Grammar

theorem SyntaxError.inOrder_nil (unexpected : List Grammar.Unexpected) :
    inOrder [] unexpected = unexpected.map .unexpected := by
  rw [inOrder, List.map_nil, List.nil_merge]

namespace Grammar

theorem inOrder_eq_nil_iff {lexical : List LexicalError} {unexpected : List Unexpected} :
    SyntaxError.inOrder lexical unexpected = [] ↔ lexical = [] ∧ unexpected = [] := by
  rw [← List.length_eq_zero_iff, SyntaxError.inOrder, List.length_merge]
  simp

theorem programFrom_eq_ok_iff {lexical : List LexicalError} {p : Cursor} {program : Program} :
    programFrom lexical p = .ok program ↔
      lexical = [] ∧ (statements p).2.errors = #[] ∧ (statements p).1 = program.statements := by
  have hnone : SyntaxError.inOrder lexical (statements p).2.errors.toList = [] ↔
      lexical = [] ∧ (statements p).2.errors = #[] := by
    rw [inOrder_eq_nil_iff]
    exact and_congr_right fun _ => Array.toList_eq_nil_iff
  rw [programFrom]
  cases hall : SyntaxError.inOrder lexical (statements p).2.errors.toList with
  | nil =>
    obtain ⟨hlexical, herrors⟩ := hnone.1 hall
    simp only [Except.ok.injEq, hlexical, herrors, true_and]
    exact ⟨fun h => h ▸ rfl, fun h => h ▸ rfl⟩
  | cons e errors =>
    rw [hall] at hnone
    refine ⟨nofun, fun h => ?_⟩
    exact absurd (hnone.2 ⟨h.1, h.2.1⟩) (List.cons_ne_nil e errors)

/-- What is read without an error is derived by the grammar. -/
theorem flattens_of_programFrom {lexical : List LexicalError} {tokens : List Token} {stop : Position}
    {program : Program} (h : programFrom lexical (.start tokens stop) = .ok program) :
    lexical = [] ∧ program.Flattens tokens := by
  obtain ⟨hlexical, herrors, hstatements⟩ := programFrom_eq_ok_iff.1 h
  obtain ⟨n, hn, hall⟩ := statements_flattens herrors
  rw [hstatements] at hall
  exact ⟨hlexical, n, hn, hall⟩

/-- What the grammar derives is read, or it is nested too deep and the first error says so. -/
theorem programFrom_flattens {ss : List Statement} {n : Nat} {tokens : List Token}
    (h : Statement.FlattensAll ss n tokens) (stop : Position) :
    (n ≤ maxNesting → programFrom [] (.start tokens stop) = .ok ⟨ss⟩) ∧
    (maxNesting < n → ∃ e errors, programFrom [] (.start tokens stop) = .error (.unexpected e :: errors) ∧
      e.expected = .shallowerNesting) := by
  obtain ⟨hfit, hdeep⟩ := statements_answers h stop
  refine ⟨fun hn => ?_, fun hn => ?_⟩
  · rw [programFrom_eq_ok_iff, hfit hn]
    exact ⟨rfl, rfl, rfl⟩
  · obtain ⟨e, more, hmore, he⟩ := hdeep hn
    refine ⟨e, more.map .unexpected, ?_, he⟩
    simp [programFrom, hmore, SyntaxError.inOrder]

end Grammar

/-- A source parses to a program if and only if no lexical error is in it and the tokens are those of the program;
then the program keeps the levels of the operators and writes something wherever it writes. -/
theorem Program.parse_eq_ok_iff (source : String) (program : Program) :
    Program.parse source = .ok program ↔
      (tokenize source).errors = [] ∧ program.Flattens (tokenize source).tokens ∧ program.WellShaped := by
  rw [Program.parse, Grammar.programFrom_eq_ok_iff]
  constructor
  · rintro ⟨hlexical, herrors, hstatements⟩
    obtain ⟨n, hn, hall⟩ := Grammar.statements_flattens herrors
    rw [Tokens.cursor] at hstatements
    rw [hstatements] at hall
    exact ⟨hlexical, ⟨n, hn, hall⟩, hall.wellShaped⟩
  · rintro ⟨hlexical, ⟨n, hn, hall⟩, -⟩
    have hread := (Grammar.statements_answers hall (tokenize source).stop).1 hn
    rw [Tokens.cursor, hread]
    exact ⟨hlexical, rfl, rfl⟩

end Portugol
