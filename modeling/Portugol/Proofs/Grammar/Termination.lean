import Portugol.Proofs.Grammar.Performing

/-! # Reading comes to an end

An attempt at a statement comes to its end wherever in a source it is made, and passes over a token at least unless
the source is at its end: there is either a statement then, or one more error. So the statements of a block, and those
of a program, take at most as many rounds as there are tokens (`Program.reading_progresses`). What comes to its end are
the procedures, which nothing but the source bounds. -/
namespace Portugol
namespace Grammar

variable {n bound count : Nat} {p q r : Cursor} {read : Option Statement} {ss : List Statement}
  {ends : Option TokenKind → Bool}

/-- On the way through a source: some of its tokens are left, at whatever nesting and after whatever errors. -/
structure Cursor.On (source : String) (p : Cursor) : Prop where
  unread_suffix : p.unread <:+ (tokenize source).tokens
  stop_eq : p.stop = (tokenize source).stop

theorem Cursor.On.inOrder {source : String} (h : p.On source) : p.InOrder where
  sorted := (sorted_tokens source).sublist h.unread_suffix.sublist
  before_stop t ht := by
    rw [h.stop_eq]
    exact token_lt_stop (h.unread_suffix.mem ht)

theorem Cursor.on_cursor (source : String) : (tokenize source).cursor.On source := ⟨List.suffix_refl _, rfl⟩

/-! ## Coming to an end -/

namespace Procedure

variable {σ α : Type}

/-- A procedure comes to its end: given enough turns it answers, and with more of them in the same way. -/
def Finishes (proc : Nat → Procedure σ α) (s : σ) (answer : Answer σ α) : Prop :=
  ∃ enough, ∀ turns ≥ enough, (proc turns).run s = some answer

/-- A procedure comes to its end, with an answer of such a kind. -/
def Ends (proc : Nat → Procedure σ α) (s : σ) (P : Answer σ α → Prop) : Prop :=
  ∃ enough, ∀ turns ≥ enough, ∃ answer, (proc turns).run s = some answer ∧ P answer

theorem Ends.imp {proc : Nat → Procedure σ α} {s : σ} {P Q : Answer σ α → Prop} (h : Ends proc s P)
    (hPQ : ∀ answer, P answer → Q answer) : Ends proc s Q := by
  obtain ⟨enough, h⟩ := h
  refine ⟨enough, fun turns hturns => ?_⟩
  obtain ⟨answer, hrun, hP⟩ := h turns hturns
  exact ⟨answer, hrun, hPQ answer hP⟩

theorem ends_of_performs {proc : Nat → Procedure σ α} {rule : Rule α} {R : σ → Cursor → Prop} {s : σ} {enough : Nat}
    (h : ∀ turns ≥ enough, Performs R bound (proc turns) rule) (hs : R s p) (hp : p.InOrder)
    (hlen : p.unread.length ≤ bound) : Ends proc s fun answer => Agrees R (some answer) (rule.run p) :=
  ⟨enough, fun turns hturns => (h turns hturns s p hs hp hlen).exists_answer⟩

theorem Finishes.unique {proc : Nat → Procedure σ α} {s : σ} {answer answer' : Answer σ α}
    (h : Finishes proc s answer) (h' : Finishes proc s answer') : answer = answer' := by
  obtain ⟨enough, h⟩ := h
  obtain ⟨enough', h'⟩ := h'
  have heq := (h _ (Nat.le_max_left enough enough')).symm.trans (h' _ (Nat.le_max_right enough enough'))
  exact Option.some.inj heq

variable {proc : Nat → Procedure Cursor α} {step step' : Cursor → α × Cursor}

theorem finishes_of_performs {enough : Nat} (h : ∀ turns ≥ enough, Performs Eq bound (proc turns) (gather step))
    (hp : p.InOrder) (hlen : p.unread.length ≤ bound) : Finishes proc p (.read (step p).1 (step p).2) := by
  refine ⟨enough, fun turns hturns => ?_⟩
  obtain ⟨q, hrun, rfl⟩ := (h turns hturns p p rfl hp hlen).exists_read
  exact hrun

theorem Finishes.step_unique (h : Finishes proc p (.read (step p).1 (step p).2))
    (h' : Finishes proc p (.read (step' p).1 (step' p).2)) : step p = step' p := by
  have heq := h.unique h'
  rw [Answer.read.injEq] at heq
  exact Prod.ext heq.1 heq.2

end Procedure

open Procedure (Finishes)

theorem finishes_step (hp : p.InOrder) (hlen : p.unread.length ≤ bound) :
    Finishes Procedure.step p
      (.read (attempt (statement bound) p).1 (attempt (statement bound) p).2) :=
  Procedure.finishes_of_performs (fun _ hturns => Procedure.performs_step hturns) hp hlen

theorem finishes_statements (hends : ends none = true) (hp : p.InOrder) (hlen : p.unread.length ≤ bound) :
    Finishes (Procedure.statements ends) p
      (.read (many ends (attempt (statement bound)) bound p).1 (many ends (attempt (statement bound)) bound p).2) :=
  Procedure.finishes_of_performs (fun _ hturns => Procedure.performs_statements hends hturns) hp hlen

/-! ## Attempts -/

/-- An attempt at a statement comes to its end further on, with a statement or with one more error at least; and this
is what it comes to with a bound that suffices. -/
structure Progresses (p : Cursor) (read : Option Statement) (q : Cursor) : Prop where
  finishes : Finishes Procedure.step p (.read read q)
  unread_suffix : q.unread <:+ p.unread
  shorter : q.unread.length < p.unread.length
  errors_kept : p.errors.toList <+: q.errors.toList
  read_or_error : (∃ s, read = some s) ∨ (read = none ∧ p.errors.size < q.errors.size)
  attempt_eq : ∀ bound ≥ p.unread.length, attempt (statement bound) p = (read, q)

theorem attempt_reads_or_tells {rule : Rule Statement} [rule.Orderly] (p : Cursor) :
    (∃ s, (attempt rule p).1 = some s) ∨
      ((attempt rule p).1 = none ∧ p.errors.size < (attempt rule p).2.errors.size) := by
  have hleads := Rule.leads_run rule p
  cases hr : rule.run p with
  | read s q => exact .inl ⟨s, by simp only [attempt, hr]⟩
  | refused e q =>
    rw [hr] at hleads
    have hkept := hleads.errors_kept.length_le
    refine .inr ⟨by simp only [attempt, hr], ?_⟩
    simp only [attempt, hr, Array.size_push]
    exact Nat.lt_succ_of_le hkept

theorem exists_progresses (hp : p.InOrder) (hfound : p.found ≠ none) : ∃ read q, Progresses p read q := by
  have hstep := finishes_step hp (Nat.le_refl p.unread.length)
  have hleads := Rule.leads_step (attempt (statement p.unread.length)) p
  refine ⟨_, _, hstep, hleads.unread_suffix, ?_, hleads.errors_kept, attempt_reads_or_tells p, ?_⟩
  · exact Rule.attempt_shortens (Rule.shortens_statement _ p) hfound
  · exact fun bound hbound => (finishes_step hp hbound).step_unique hstep

/-! ## Loops -/

/-- So many rounds of a loop over statements: each begins where the loop does not end, and attempts one statement;
behind the last one the loop ends. -/
inductive Rounds (ends : Option TokenKind → Bool) : Nat → Cursor → List Statement → Cursor → Prop where
  | exit {p : Cursor} (h : ends p.found = true) : Rounds ends 0 p [] p
  | round {count : Nat} {p q r : Cursor} {read : Option Statement} {ss : List Statement} (h : ends p.found = false)
      (hstep : Finishes Procedure.step p (.read read q)) (hmore : Rounds ends count q ss r) :
      Rounds ends (count + 1) p (read.toList ++ ss) r

/-- A loop over statements comes to its end after so many rounds, no more than there are tokens; and this is what it
comes to with a bound that suffices. -/
structure Loops (ends : Option TokenKind → Bool) (p : Cursor) (count : Nat) (ss : List Statement) (q : Cursor) :
    Prop where
  rounds : Rounds ends count p ss q
  count_le : count ≤ p.unread.length
  finishes : Finishes (Procedure.statements ends) p (.read ss q)
  many_eq : ∀ bound ≥ p.unread.length, many ends (attempt (statement bound)) bound p = (ss, q)

theorem exists_rounds (hends : ends none = true) (hn : n ≤ bound) (hp : p.InOrder) (hlen : p.unread.length ≤ n) :
    ∃ count ≤ p.unread.length, Rounds ends count p (many ends (attempt (statement bound)) n p).1
      (many ends (attempt (statement bound)) n p).2 := by
  -- Each round leaves fewer tokens, so the count goes down with them.
  induction n generalizing p with
  | zero =>
    have hexit : ends p.found = true := by
      rw [Cursor.found_eq_none_iff.2 (List.length_eq_zero_iff.1 (Nat.le_zero.1 hlen)), hends]
    exact ⟨0, Nat.zero_le _, .exit hexit⟩
  | succ n ih =>
    rw [many]
    cases hgoes : ends p.found with
    | true => exact ⟨0, Nat.zero_le _, .exit hgoes⟩
    | false =>
      have hfound := Cursor.found_ne_none hends hgoes
      have hstep := finishes_step hp (Nat.le_trans hlen hn)
      have hleads := Rule.leads_step (attempt (statement bound)) p
      have hshorter := Rule.attempt_shortens (Rule.shortens_statement bound p) hfound
      obtain ⟨count, hcount, hrounds⟩ := ih (by omega) (hp.leads hleads) (by omega)
      exact ⟨count + 1, by omega, .round hgoes hstep hrounds⟩

theorem exists_loops (hends : ends none = true) (hp : p.InOrder) : ∃ count ss q, Loops ends p count ss q := by
  have hstatements := finishes_statements hends hp (Nat.le_refl p.unread.length)
  obtain ⟨count, hcount, hrounds⟩ := exists_rounds hends (Nat.le_refl p.unread.length) hp (Nat.le_refl _)
  refine ⟨count, _, _, hrounds, hcount, hstatements, fun bound hbound => ?_⟩
  exact (finishes_statements hends hp hbound).step_unique hstatements

theorem Rounds.ended (h : Rounds ends count p ss q) : ends q.found = true := by
  induction h with
  | exit h => exact h
  | round _ _ _ ih => exact ih

/-- The statements of a program end where the source does. -/
theorem Loops.unread_eq (h : Loops endsProgram p count ss q) : q.unread = [] := by
  have hended := h.rounds.ended
  rwa [endsProgram, decide_eq_true_eq, Cursor.found_eq_none_iff] at hended

theorem unread_statements (hp : p.InOrder) : (statements p).2.unread = [] := by
  obtain ⟨count, ss, q, hloops⟩ := exists_loops (show endsProgram none = true from rfl) hp
  rw [statements, hloops.many_eq _ (Nat.le_refl _)]
  exact hloops.unread_eq

end Grammar

/-! ## Programs -/

/-- Wherever an attempt at a statement is made in a source, it comes to its end and passes over a token unless none is
left, and there is a statement or one more error. The statements of a block that are begun there come to their end, and
so do those of the program, at the end of the source; both take no more rounds than there are tokens. -/
theorem Program.reading_progresses (source : String) :
    (∀ p : Grammar.Cursor, p.On source → p.found ≠ none → ∃ read q, Grammar.Progresses p read q) ∧
    (∀ p : Grammar.Cursor, p.On source → ∃ count ss q, Grammar.Loops Grammar.endsBlock p count ss q) ∧
    ∃ count ss q, Grammar.Loops Grammar.endsProgram (tokenize source).cursor count ss q ∧
      count ≤ (tokenize source).tokens.length ∧ q.unread = [] ∧
      Grammar.statements (tokenize source).cursor = (ss, q) := by
  refine ⟨fun p hp hfound => Grammar.exists_progresses hp.inOrder hfound,
    fun p hp => Grammar.exists_loops rfl hp.inOrder, ?_⟩
  have hcursor := Grammar.Cursor.on_cursor source
  obtain ⟨count, ss, q, hloops⟩ := Grammar.exists_loops (show Grammar.endsProgram none = true from rfl) hcursor.inOrder
  exact ⟨count, ss, q, hloops, hloops.count_le, hloops.unread_eq, hloops.many_eq _ (Nat.le_refl _)⟩

/-- Before a closing brace, inside of a block, a statement is given up where it was begun; the brace is passed over. -/
theorem Program.reading_progresses_stalled :
    let brace : Token := ⟨.symbol .closeBrace, "\x7d", ⟨1, 1⟩⟩
    let x : Token := ⟨.name "x", "x", ⟨1, 3⟩⟩
    let p : Grammar.Cursor := ⟨[brace, x], ⟨1, 4⟩, 1, #[]⟩
    let q : Grammar.Cursor := ⟨[x], ⟨1, 4⟩, 1, #[⟨.statement, some (.symbol .closeBrace), ⟨1, 1⟩⟩]⟩
    p.On "\x7d x" ∧ p.found ≠ none ∧ Grammar.Progresses p none q ∧
      q.On "\x7d x" ∧ ∃ count ss r, Grammar.Loops Grammar.endsBlock q count ss r := by
  intro brace x p q
  have htokens : (tokenize "\x7d x").tokens = [brace, x] := by decide +kernel
  have hstop : (tokenize "\x7d x").stop = ⟨1, 4⟩ := by decide +kernel
  have hp : p.On "\x7d x" := ⟨htokens ▸ List.suffix_refl _, hstop.symm⟩
  have hq : q.On "\x7d x" := ⟨htokens ▸ List.suffix_cons brace [x], hstop.symm⟩
  have hfound : p.found ≠ none := by decide
  obtain ⟨hattempts, hblocks, -⟩ := Program.reading_progresses "\x7d x"
  obtain ⟨read, r, hprogresses⟩ := hattempts p hp hfound
  have hattempt : Grammar.attempt (Grammar.statement 2) p = (none, q) := rfl
  obtain ⟨rfl, rfl⟩ := Prod.ext_iff.1 ((hprogresses.attempt_eq 2 (Nat.le_refl 2)).symm.trans hattempt)
  exact ⟨hp, hfound, hprogresses, hq, hblocks q hq⟩

end Portugol
