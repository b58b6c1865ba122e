import Portugol.Proofs.Grammar.Following
import Portugol.Proofs.Grammar.Procedures

/-! # Procedures perform the rules

What is read from mirrors a cursor if it shows the same and goes on showing it, whatever is done to both (`Mirrors`).
Where it mirrors a cursor before tokens that are in order, and with more turns than there are tokens, every procedure
answers, and it answers what the rule does whose bound is the number of tokens (`Procedure.Performs`). For a token is
passed over in every round of a loop and before every call of a procedure in itself, so what is left of the turns is
always more than what is left of the tokens. That the tokens are in order matters where a statement is given up
(`Procedure.agrees_giveUp`). -/
namespace Portugol.Grammar

variable {σ α β : Type}

/-! ## Cursors in order -/

namespace Cursor

/-- The tokens that are left stand in the order of their positions, and before the end of the source. -/
structure InOrder (p : Cursor) : Prop where
  sorted : p.unread.Pairwise fun t u => t.position < u.position
  before_stop : ∀ t ∈ p.unread, t.position < p.stop

variable {p q : Cursor}

theorem InOrder.leads (hp : p.InOrder) (h : p.Leads q) : q.InOrder where
  sorted := hp.sorted.sublist h.unread_suffix.sublist
  before_stop t ht := by
    rw [h.stop_eq]
    exact hp.before_stop t (h.unread_suffix.mem ht)

theorem InOrder.lt_position (hp : p.InOrder) (h : p.Leads q) {t : Token} {us : List Token} (hu : p.unread = t :: us)
    (hq : q.unread <:+ us) : p.position < q.position := by
  have hsorted := hp.sorted
  rw [hu] at hsorted
  rw [position, position, hu]
  cases hv : q.unread with
  | nil =>
    rw [h.stop_eq]
    exact hp.before_stop t (by simp [hu])
  | cons u rest => exact List.rel_of_pairwise_cons hsorted (hq.mem (by simp [hv]))

theorem InOrder.withDepth (hp : p.InOrder) (d : Nat) : InOrder { p with depth := d } := ⟨hp.sorted, hp.before_stop⟩

/-- The position is the same if and only if nothing was passed over. -/
theorem InOrder.position_eq_iff (hp : p.InOrder) (h : p.Leads q) :
    q.position = p.position ↔ q.unread.length = p.unread.length := by
  constructor
  · intro hposition
    have hq := h.unread_suffix
    cases hu : p.unread with
    | nil =>
      rw [hu, List.suffix_nil] at hq
      rw [hq]
    | cons t us =>
      rw [hu] at hq
      rcases List.suffix_cons_iff.1 hq with heq | hq
      · rw [heq]
      · have hlt := hp.lt_position h hu hq
        rw [hposition] at hlt
        exact absurd hlt (Position.lt_irrefl _)
  · intro hlen
    rw [position, position, h.unread_suffix.eq_of_length hlen, h.stop_eq]

theorem found_ne_none {ends : Option TokenKind → Bool} (hends : ends none = true) (h : ends p.found = false) :
    p.found ≠ none := by
  intro hnone
  rw [hnone, hends] at h
  cases h

end Cursor

/-! ## Mirrors of a cursor -/

/-- Whatever stands in this relation shows the same, and does so after each thing that is done to it. Nesting is only
changed by one level at a time, and back to what it was. -/
class Mirrors [Feed σ] (R : σ → Cursor → Prop) : Prop where
  found_eq {s p} (h : R s p) : Feed.found s = p.found
  position_eq {s p} (h : R s p) : Feed.position s = p.position
  depth_eq {s p} (h : R s p) : Feed.depth s = p.depth
  next {s p} (h : R s p) : R (Feed.next s) { p with unread := p.unread.tail }
  keep {s p} (h : R s p) (e : Unexpected) : R (Feed.keep e s) { p with errors := p.errors.push e }
  deeper {s p} (h : R s p) (hroom : p.depth < maxNesting) :
    R (Feed.withDepth (p.depth + 1) s) { p with depth := p.depth + 1 }
  shallower {s p} (h : R s p) : R (Feed.withDepth (p.depth - 1) s) { p with depth := p.depth - 1 }
  restored {s p t q} (h : R s p) (h' : R t q) : R (Feed.withDepth p.depth t) { q with depth := p.depth }

instance : Mirrors (Eq (α := Cursor)) where
  found_eq h := congrArg _ h
  position_eq h := congrArg _ h
  depth_eq h := congrArg _ h
  next h := congrArg _ h
  keep h e := congrArg (Feed.keep e) h
  deeper h _ := congrArg _ h
  shallower h := congrArg _ h
  restored _ h := congrArg _ h

/-- A procedure has answered, and with what a rule answers. -/
inductive Agrees (R : σ → Cursor → Prop) : Option (Answer σ α) → Reply α → Prop where
  | read {a : α} {s : σ} {p : Cursor} (h : R s p) : Agrees R (some (.read a s)) (.read a p)
  | refused {e : Unexpected} {s : σ} {p : Cursor} (h : R s p) : Agrees R (some (.refused e s)) (.refused e p)

theorem Agrees.exists_read {R : σ → Cursor → Prop} {answer : Option (Answer σ α)} {a : α} {p : Cursor}
    (h : Agrees R answer (.read a p)) : ∃ s, answer = some (.read a s) ∧ R s p := by
  cases h with
  | read h => exact ⟨_, rfl, h⟩

theorem Agrees.exists_answer {R : σ → Cursor → Prop} {answer? : Option (Answer σ α)} {reply : Reply α}
    (h : Agrees R answer? reply) : ∃ answer, answer? = some answer ∧ Agrees R (some answer) reply := by
  cases h with
  | read h => exact ⟨_, rfl, .read h⟩
  | refused h => exact ⟨_, rfl, .refused h⟩

theorem Agrees.after {R : σ → Cursor → Prop} {answer : Answer σ α} {reply : Reply α}
    (h : Agrees R (some answer) reply) : R answer.after reply.after := by
  cases h with
  | read h => exact h
  | refused h => exact h

/-! ## Performing a rule -/

namespace Procedure

variable {n : Nat} {p : Cursor} {s : σ} {proc : Procedure σ α} {rule : Rule α} {next : α → Procedure σ β}
  {next' : α → Rule β}

theorem run_bind (proc : Procedure σ α) (next : α → Procedure σ β) (s : σ) :
    (proc >>= next).run s = (proc.run s).bind fun
      | .read a t => (next a).run t
      | .refused e t => some (.refused e t) := rfl

theorem run_bind_read {a : α} {t : σ} (h : proc.run s = some (.read a t)) :
    (proc >>= next).run s = (next a).run t := by
  rw [run_bind, h]
  rfl

variable {R : σ → Cursor → Prop}

theorem agrees_bind [rule.Orderly] (hp : p.InOrder) (h : Agrees R (proc.run s) (rule.run p))
    (hnext : ∀ a t q, rule.run p = .read a q → R t q → q.InOrder → Agrees R ((next a).run t) ((next' a).run q)) :
    Agrees R ((proc >>= next).run s) ((rule >>= next').run p) := by
  have hleads := Rule.leads_run rule p
  rw [run_bind, Rule.run_bind]
  generalize hproc : proc.run s = answer at h
  generalize hrule : rule.run p = reply at h
  rw [hrule] at hleads
  cases h with
  | read h => exact hnext _ _ _ hrule h (hp.leads hleads)
  | refused h => exact .refused h

theorem agrees_leaving {f : σ → σ} {g : Cursor → Cursor} {answer : Option (Answer σ α)} {reply : Reply α}
    (h : Agrees R answer reply) (hf : ∀ t q, R t q → R (f t) (g q)) :
    Agrees R (answer.map (Answer.leaving f)) (reply.leaving g) := by
  cases h with
  | read h => exact .read (hf _ _ h)
  | refused h => exact .refused (hf _ _ h)

variable (R) in
/-- Before at most so many tokens, in order, a procedure answers, and it answers what a rule does. -/
def Performs (n : Nat) (proc : Procedure σ α) (rule : Rule α) : Prop :=
  ∀ s p, R s p → p.InOrder → p.unread.length ≤ n → Agrees R (proc.run s) (rule.run p)

theorem Performs.mono {m : Nat} (h : Performs R n proc rule) (hm : m ≤ n) : Performs R m proc rule :=
  fun s p hs hp hlen => h s p hs hp (Nat.le_trans hlen hm)

theorem performs_pure (a : α) : Performs R n (pure a) (pure a) := fun _ _ hs _ _ => .read hs

theorem performs_bind [rule.Orderly] (h : Performs R n proc rule) (hnext : ∀ a, Performs R n (next a) (next' a)) :
    Performs R n (proc >>= next) (rule >>= next') := by
  intro s p hs hp hlen
  refine agrees_bind hp (h s p hs hp hlen) fun a t q hr ht hq => ?_
  exact hnext a t q ht hq (Nat.le_trans (Rule.length_le_of_read hr) hlen)

theorem performs_ite {c : Prop} [Decidable c] {proc' : Procedure σ α} {rule' : Rule α} (h : Performs R n proc rule)
    (h' : Performs R n proc' rule') : Performs R n (if c then proc else proc') (if c then rule else rule') := by
  split
  · exact h
  · exact h'

/-- Behind a rule that passes over a token there is one less. -/
theorem agrees_bind_shorter [rule.Orderly] (hp : p.InOrder) (hlen : p.unread.length ≤ n + 1)
    (h : Agrees R (proc.run s) (rule.run p)) (hshort : rule.Shortens p)
    (hnext : ∀ a, Performs R n (next a) (next' a)) :
    Agrees R ((proc >>= next).run s) ((rule >>= next').run p) := by
  refine agrees_bind hp h fun a t q hr ht hq => hnext a t q ht hq ?_
  have := hshort a q hr
  omega

theorem exists_bound_succ (hfound : p.found ≠ none) (hlen : p.unread.length ≤ n) : ∃ k, n = k + 1 := by
  have : p.unread.length ≠ 0 := mt List.length_eq_zero_iff.1 (mt Cursor.found_eq_none_iff.2 hfound)
  exact ⟨n - 1, by omega⟩

/-- The turns go down together with the bound, and a bound that is used up means the end of the source. -/
theorem performs_bounded (spare : Nat) {proc : Nat → Procedure σ α} {rule : Nat → Rule α}
    (hend : ∀ n turns s p, R s p → p.found = none → Agrees R ((proc (turns + 1)).run s) ((rule n).run p))
    (hsucc : ∀ n turns, n + spare < turns → Performs R n (proc turns) (rule n) → ∀ s p, R s p → p.InOrder →
      p.found ≠ none → p.unread.length ≤ n + 1 → Agrees R ((proc (turns + 1)).run s) ((rule (n + 1)).run p)) :
    ∀ n turns, n + spare < turns → Performs R n (proc turns) (rule n) := by
  intro n turns
  induction turns generalizing n with
  | zero => exact fun hturns => absurd hturns (Nat.not_lt_zero _)
  | succ turns ih =>
    intro hturns s p hs hp hlen
    by_cases hfound : p.found = none
    · exact hend n turns s p hs hfound
    · obtain ⟨n, rfl⟩ := exists_bound_succ hfound hlen
      exact hsucc n turns (by omega) (ih n (by omega)) s p hs hp hfound hlen

variable [Feed σ] [Mirrors R]

theorem run_peek_bind (next : Option TokenKind → Procedure σ β) (h : R s p) :
    (peek >>= next).run s = (next p.found).run s :=
  congrArg (fun found => (next found).run s) (Mirrors.found_eq h)

theorem run_complaint (h : R s p) (expected : Expectation) :
    (complaint expected).run s = some (.read (p.unexpected expected) s) := by
  have hrun : (complaint expected).run s = some (.read ⟨expected, Feed.found s, Feed.position s⟩ s) := rfl
  rw [hrun, Mirrors.found_eq h, Mirrors.position_eq h]
  rfl

theorem agrees_refuse (h : R s p) (expected : Expectation) :
    Agrees R ((refuse expected : Procedure σ α).run s) ((Grammar.refuse expected).run p) := by
  rw [refuse, run_bind_read (run_complaint h expected)]
  exact .refused h

theorem agrees_advance (h : R s p) : Agrees R (advance.run s) (Grammar.advance.run p) := by
  have hrun : advance.run s = some (.read (Feed.position s) (Feed.next s)) := rfl
  rw [hrun, Mirrors.position_eq h]
  exact .read (Mirrors.next h)

theorem performs_peek : Performs R n peek Grammar.peek := by
  intro s p hs _ _
  have hrun : peek.run s = some (.read (Feed.found s) s) := rfl
  rw [hrun, Mirrors.found_eq hs]
  exact .read hs

theorem performs_refuse (expected : Expectation) :
    Performs R n (refuse expected : Procedure σ α) (Grammar.refuse expected) :=
  fun _ _ hs _ _ => agrees_refuse hs expected

theorem performs_advance : Performs R n advance Grammar.advance := fun _ _ hs _ _ => agrees_advance hs

theorem performs_expect (kind : TokenKind) : Performs R n (expect kind) (Grammar.expect kind) :=
  performs_bind performs_peek fun _ => performs_ite performs_advance (performs_refuse _)

theorem performs_name : Performs R n name Grammar.name := by
  have hpeek : Performs R n peek Grammar.peek := performs_peek
  have hadvance : Performs R n advance Grammar.advance := performs_advance
  refine performs_bind hpeek fun found => ?_
  cases found with
  | none => exact performs_refuse .name
  | some kind =>
    cases kind with
    | name x => exact performs_bind hadvance fun _ => performs_pure x
    | _ => exact performs_refuse .name

theorem agrees_nested (h : R s p)
    (hinner : ∀ t, R t { p with depth := p.depth + 1 } →
      Agrees R (proc.run t) (rule.run { p with depth := p.depth + 1 })) :
    Agrees R ((nested proc).run s) ((Grammar.nested rule).run p) := by
  simp only [nested, Grammar.nested, Mirrors.depth_eq h]
  split
  · next hroom =>
    refine agrees_leaving (hinner _ (Mirrors.deeper h hroom)) fun t q ht => ?_
    rw [Mirrors.depth_eq ht]
    exact Mirrors.shallower ht
  · exact agrees_refuse h .shallowerNesting

theorem performs_restoringDepth (h : Performs R n proc rule) :
    Performs R n (restoringDepth proc) (Grammar.restoringDepth rule) := by
  intro s p hs hp hlen
  simp only [restoringDepth, Grammar.restoringDepth, Mirrors.depth_eq hs]
  exact agrees_leaving (h s p hs hp hlen) fun t q ht => Mirrors.restored hs ht

theorem agrees_descend (h : R s p) : Agrees R (descend.run s) (Grammar.descend.run p) := by
  simp only [descend, Grammar.descend, Mirrors.depth_eq h]
  split
  · next hroom => exact agrees_advance (Mirrors.deeper h hroom)
  · exact agrees_refuse h .shallowerNesting

/-! ### Expressions -/

theorem performs_fold (level : Level) {operand : Procedure σ Expr} {operand' : Rule Expr} [operand'.Orderly]
    {bound : Nat} (h : Performs R bound operand operand') :
    ∀ n turns, n ≤ bound → n < turns → ∀ lhs,
      Performs R n (fold level operand turns lhs) (Grammar.fold level operand' n lhs) := by
  intro n turns
  induction turns generalizing n with
  | zero => exact fun _ hturns => absurd hturns (Nat.not_lt_zero n)
  | succ turns ih =>
    intro hn hturns lhs s p hs hp hlen
    rw [fold, run_peek_bind _ hs]
    cases hop : operator? level p.found with
    | none =>
      rw [Rule.run_fold_stop hop]
      exact .read hs
    | some op =>
      have hfound : p.found ≠ none := by
        intro hnone
        rw [hnone] at hop
        cases hop
      obtain ⟨n, rfl⟩ := exists_bound_succ hfound hlen
      have := Rule.orderly_fold level operand' n
      rw [Grammar.fold, Rule.run_peek_bind, hop]
      refine agrees_bind_shorter hp hlen (agrees_descend hs) (Rule.shortens_descend hfound) fun place => ?_
      exact performs_bind (h.mono (by omega)) fun rhs => ih n (by omega) (by omega) _

theorem performs_chain (level : Level) {operand : Procedure σ Expr} {operand' : Rule Expr} [operand'.Orderly]
    {turns : Nat} (hturns : n < turns) (h : Performs R n operand operand') :
    Performs R n (chain level operand turns) (Grammar.chain level operand' n) :=
  performs_bind h fun lhs => performs_restoringDepth (performs_fold level h n turns (Nat.le_refl n) hturns lhs)

theorem performs_chains {factor : Procedure σ Expr} {factor' : Rule Expr} [factor'.Orderly] {turns : Nat}
    (hturns : n < turns) (h : Performs R n factor factor') :
    Performs R n (chains factor turns) (Grammar.chains factor' n) :=
  performs_chain .logic hturns (performs_chain .comparison hturns (performs_chain .sum hturns
    (performs_chain .term hturns h)))

theorem performs_factor : ∀ n turns, n < turns → Performs R n (factor turns) (Grammar.factor n) := by
  refine performs_bounded 0 (fun n turns s p hs hnone => ?_) fun n turns hturns ih s p hs hp hfound hlen => ?_
  · rw [Rule.run_factor_end hnone, factor, run_peek_bind _ hs, hnone]
    exact agrees_refuse hs .expression
  · rw [factor, Grammar.factor, run_peek_bind _ hs, Rule.run_peek_bind]
    cases FactorStart.of p.found with
    | literal value => exact performs_bind performs_advance (fun _ => performs_pure _) s p hs hp (Nat.le_refl _)
    | name x => exact performs_bind performs_advance (fun _ => performs_pure _) s p hs hp (Nat.le_refl _)
    | group =>
      refine agrees_nested hs fun t ht =>
        agrees_bind_shorter (hp.withDepth _) hlen (agrees_advance ht) (Rule.shortens_advance hfound) fun _ => ?_
      refine performs_bind (performs_chains hturns ih) fun inner => ?_
      exact performs_bind (performs_expect _) fun _ => performs_pure _
    | unary op =>
      refine agrees_nested hs fun t ht =>
        agrees_bind_shorter (hp.withDepth _) hlen (agrees_advance ht) (Rule.shortens_advance hfound) fun place => ?_
      exact performs_bind ih fun operand => performs_pure _
    | other => exact agrees_refuse hs .expression

variable {turns : Nat}

theorem performs_expression (hturns : n < turns) : Performs R n (expression turns) (Grammar.expression n) :=
  performs_chains hturns (performs_factor n turns hturns)

/-! ### Statements -/

theorem performs_initializer (hturns : n < turns) : Performs R n (initializer turns) (Grammar.initializer n) := by
  refine performs_bind performs_peek fun found => performs_ite ?_ (performs_pure none)
  refine performs_bind performs_advance fun _ => ?_
  exact performs_bind (performs_expression hturns) fun e => performs_pure (some e)

theorem agrees_declaration (hturns : n < turns) (type : Option DataType) (hs : R s p) (hp : p.InOrder)
    (hfound : p.found ≠ none) (hlen : p.unread.length ≤ n + 1) :
    Agrees R ((declaration turns type).run s) ((Grammar.declaration n type).run p) := by
  refine agrees_bind_shorter hp hlen (agrees_advance hs) (Rule.shortens_advance hfound) fun place => ?_
  refine performs_bind performs_name fun x => performs_bind (performs_initializer hturns) fun init => ?_
  exact performs_bind (performs_expect _) fun _ => performs_pure _

theorem agrees_assignment (hturns : n < turns) (x : String) (hs : R s p) (hp : p.InOrder) (hfound : p.found ≠ none)
    (hlen : p.unread.length ≤ n + 1) :
    Agrees R ((assignment turns x).run s) ((Grammar.assignment n x).run p) := by
  refine agrees_bind_shorter hp hlen (agrees_advance hs) (Rule.shortens_advance hfound) fun place => ?_
  refine performs_bind performs_peek fun found => performs_ite ?_ (performs_refuse .assignment)
  refine performs_bind performs_advance fun _ => performs_bind (performs_expression hturns) fun value => ?_
  exact performs_bind (performs_expect _) fun _ => performs_pure _

theorem performs_read : Performs R n read Grammar.read := by
  refine performs_bind performs_advance fun place => performs_bind (performs_expect _) fun _ => ?_
  refine performs_bind performs_name fun x => performs_bind (performs_expect _) fun _ => ?_
  exact performs_bind (performs_expect _) fun _ => performs_pure _

theorem performs_moreExpressions :
    ∀ n turns, n < turns → Performs R n (moreExpressions turns) (Grammar.moreExpressions n) := by
  refine performs_bounded 0 (fun n turns s p hs hnone => ?_) fun n turns hturns ih s p hs hp hfound hlen => ?_
  · rw [Rule.run_moreExpressions_end hnone, moreExpressions, run_peek_bind _ hs, hnone]
    exact .read hs
  · rw [moreExpressions, Grammar.moreExpressions, run_peek_bind _ hs, Rule.run_peek_bind]
    split
    · refine agrees_bind_shorter hp hlen (agrees_advance hs) (Rule.shortens_advance hfound) fun _ => ?_
      exact performs_bind (performs_expression hturns) fun e => performs_bind ih fun es => performs_pure (e :: es)
    · exact .read hs

theorem agrees_write (hturns : n < turns) (hs : R s p) (hp : p.InOrder) (hfound : p.found ≠ none)
    (hlen : p.unread.length ≤ n + 1) : Agrees R ((write turns).run s) ((Grammar.write n).run p) := by
  refine agrees_bind_shorter hp hlen (agrees_advance hs) (Rule.shortens_advance hfound) fun place => ?_
  refine performs_bind (performs_expect _) fun _ => performs_bind (performs_expression hturns) fun first => ?_
  refine performs_bind (performs_moreExpressions n turns hturns) fun more => ?_
  exact performs_bind (performs_expect _) fun _ => performs_bind (performs_expect _) fun _ => performs_pure _

theorem performs_condition (hturns : n < turns) : Performs R n (condition turns) (Grammar.condition n) := by
  refine performs_bind (performs_expect _) fun _ => performs_bind (performs_expression hturns) fun e => ?_
  exact performs_bind (performs_expect _) fun _ => performs_pure e

/-! ### Giving up a statement -/

theorem run_skip_bind (next : Unit → Procedure σ β) (s : σ) : (skip >>= next).run s = (next ()).run (Feed.next s) := rfl

theorem agrees_skip {t : Token} {rest : List Token} (h : R s p) (hu : p.unread = t :: rest) :
    Agrees R (skip.run s) (.read () { p with unread := rest }) := by
  have hnext := Mirrors.next h
  rw [hu] at hnext
  exact .read hnext

theorem agrees_synchronize (hs : R s p) (h : p.unread.length < turns) :
    Agrees R ((synchronize turns).run s) (.read () { p with unread := fromBoundary p.depth p.unread }) := by
  induction turns generalizing s p with
  | zero => exact absurd h (Nat.not_lt_zero _)
  | succ turns ih =>
    rw [synchronize, run_peek_bind _ hs]
    obtain ⟨unread, stop, depth, errors⟩ := p
    cases unread with
    | nil => exact .read hs
    | cons t rest =>
      have hskip := agrees_skip hs rfl
      simp only [Cursor.found, List.head?_cons, Option.map_some, fromBoundary]
      split
      · change Agrees R ((if Feed.depth s = 0 then skip else pure ()).run s) _
        rw [Mirrors.depth_eq hs]
        split
        · exact hskip
        · exact .read hs
      split
      · exact .read hs
      split
      · exact hskip
      split
      · exact .read hs
      · exact ih (p := ⟨rest, stop, depth, errors⟩) (Mirrors.next hs) (Nat.lt_of_succ_lt_succ h)

theorem agrees_skipGroup (opened : Nat) (hs : R s p) (h : p.unread.length < turns) :
    Agrees R ((skipGroup opened turns).run s) (.read () { p with unread := behindGroup opened p.unread }) := by
  induction turns generalizing s p opened with
  | zero => exact absurd h (Nat.not_lt_zero _)
  | succ turns ih =>
    rw [skipGroup, run_peek_bind _ hs]
    obtain ⟨unread, stop, depth, errors⟩ := p
    cases unread with
    | nil => exact .read hs
    | cons t rest =>
      have hnext : R (Feed.next s) ⟨rest, stop, depth, errors⟩ := Mirrors.next hs
      have hrest : rest.length < turns := Nat.lt_of_succ_lt_succ h
      simp only [Cursor.found, List.head?_cons, Option.map_some, behindGroup, run_skip_bind]
      split
      · exact ih _ hnext hrest
      split
      · split
        · exact .read hnext
        · exact ih _ hnext hrest
      · exact ih _ hnext hrest

/-- Where a statement is given up, to compare positions is to compare how many tokens are left. -/
theorem agrees_giveUp {q : Cursor} (hp : p.InOrder) (h : p.Leads q) (hs : R s q) (e : Unexpected)
    (hturns : q.unread.length < turns) :
    Agrees R ((giveUp p.position e turns).run s)
      (.read none { q with
        unread := if (fromBoundary q.depth q.unread).length = p.unread.length then
          (fromBoundary q.depth q.unread).tail else fromBoundary q.depth q.unread
        errors := q.errors.push e }) := by
  let r : Cursor := { q with unread := fromBoundary q.depth q.unread, errors := q.errors.push e }
  have hleads : p.Leads r := ⟨h.stop_eq, (fromBoundary_suffix _ _).trans h.unread_suffix,
    h.errors_kept.trans (by simp [r])⟩
  have hkept : R (Feed.keep e s) { q with errors := q.errors.push e } := Mirrors.keep hs e
  have hkeep : (keep e).run s = some (.read () (Feed.keep e s)) := rfl
  obtain ⟨t, hsync, ht⟩ := (agrees_synchronize hkept hturns).exists_read
  have hplace := hp.position_eq_iff hleads
  rw [giveUp, run_bind_read hkeep, run_bind_read hsync]
  change Agrees R ((if Feed.position t = p.position ∧ Feed.found t ≠ none then skip >>= fun _ => pure none
    else pure none : Procedure σ _).run t) _
  rw [Mirrors.position_eq ht, Mirrors.found_eq ht]
  by_cases hsame : (fromBoundary q.depth q.unread).length = p.unread.length
  · rw [if_pos hsame]
    by_cases hend : r.found = none
    · have hnil : fromBoundary q.depth q.unread = [] := Cursor.found_eq_none_iff.1 hend
      rw [if_neg fun hboth => hboth.2 hend, hnil, List.tail_nil, ← hnil]
      exact .read ht
    · rw [if_pos ⟨hplace.2 hsame, hend⟩]
      exact .read (Mirrors.next ht)
  · rw [if_neg hsame, if_neg fun hboth => hsame (hplace.1 hboth.1)]
    exact .read ht

theorem performs_attempt {proc : Procedure σ Statement} {rule : Rule Statement} [rule.Orderly] (hturns : n < turns)
    (h : Performs R n proc rule) : Performs R n (attempt proc turns) (gather (Grammar.attempt rule)) := by
  intro s p hs hp hlen
  have hleads := Rule.leads_run rule p
  have hanswer := h s p hs hp hlen
  have hhere : here.run s = some (.read p.position s) := by rw [← Mirrors.position_eq hs]; rfl
  rw [attempt, run_bind_read hhere]
  generalize hproc : proc.run s = answer at hanswer
  generalize hrule : rule.run p = reply at hanswer
  rw [hrule] at hleads
  simp only [gather, Grammar.attempt, hrule]
  cases hanswer with
  | @read st t q ht =>
    have hcaught : (caught proc).run s = some (.read (.ok st) t) := by simp only [caught, hproc, Option.map_some]
    rw [run_bind_read hcaught]
    exact .read ht
  | @refused e t q ht =>
    have hcaught : (caught proc).run s = some (.read (.error e) t) := by
      simp only [caught, hproc, Option.map_some]
    rw [run_bind_read hcaught]
    exact agrees_giveUp hp hleads ht e (Nat.lt_of_le_of_lt (Nat.le_trans hleads.unread_suffix.length_le hlen) hturns)

/-! ### Statements one after the other -/

theorem performs_many {ends : Option TokenKind → Bool} (hends : ends none = true) {rule : Rule Statement}
    [rule.Orderly] (hshort : ∀ p, rule.Shortens p) {step : Procedure σ (Option Statement)} {bound : Nat}
    (h : Performs R bound step (gather (Grammar.attempt rule))) :
    ∀ n turns, n ≤ bound → n < turns →
      Performs R n (many ends step turns) (gather (Grammar.many ends (Grammar.attempt rule) n)) := by
  intro n turns
  induction turns generalizing n with
  | zero => exact fun _ hturns => absurd hturns (Nat.not_lt_zero n)
  | succ turns ih =>
    intro hn hturns s p hs hp hlen
    rw [many, run_peek_bind _ hs]
    cases hend : ends p.found with
    | true =>
      rw [Rule.run_many_stop hend]
      exact .read hs
    | false =>
      have hfound := Cursor.found_ne_none hends hend
      obtain ⟨n, rfl⟩ := exists_bound_succ hfound hlen
      rw [Rule.run_many_succ hend]
      refine agrees_bind_shorter hp hlen (h s p hs hp (Nat.le_trans hlen hn)) ?_ fun first => ?_
      · intro first q hrun
        cases hrun
        exact Rule.attempt_shortens (hshort p) hfound
      · exact performs_bind (ih n (by omega) (by omega)) fun more => performs_pure _

section
variable {step : Procedure σ (Option Statement)} {step' : Cursor → Option Statement × Cursor}
  [(gather step').Orderly]

theorem performs_braced (h : Performs R n (many endsBlock step turns) (gather (Grammar.many endsBlock step' n))) :
    Performs R (n + 1) (braced step turns) (Grammar.braced step' n) := by
  intro s p hs hp hlen
  refine agrees_bind_shorter hp hlen (performs_expect _ s p hs hp (Nat.le_refl _)) (Rule.shortens_expect _ p)
    fun place => ?_
  refine performs_bind h fun statements => performs_bind (performs_expect _) fun _ => ?_
  exact performs_pure _

theorem performs_block (hturns : n + 1 < turns)
    (h : Performs R n (many endsBlock step turns) (gather (Grammar.many endsBlock step' n))) :
    Performs R (n + 1) (block step turns) (Grammar.block step' n) := by
  intro s p hs hp hlen
  change Agrees R ((if maxNesting ≤ Feed.depth s ∧ Feed.found s = some (.symbol .openBrace) then
    complaint .shallowerNesting >>= fun e => skipGroup 0 turns >>= fun _ => fail e
    else nested (braced step turns) : Procedure σ Block).run s) _
  rw [Mirrors.depth_eq hs, Mirrors.found_eq hs]
  simp only [Grammar.block]
  split
  · obtain ⟨t, hskip, ht⟩ := (agrees_skipGroup 0 hs (Nat.lt_of_le_of_lt hlen hturns)).exists_read
    rw [run_bind_read (run_complaint hs .shallowerNesting), run_bind_read hskip]
    exact .refused ht
  · exact agrees_nested hs fun t ht => performs_braced h t _ ht (hp.withDepth _) hlen

end

section
variable {inner : Procedure σ Block} {inner' : Rule Block} {again : Procedure σ Statement} {again' : Rule Statement}
  [inner'.Orderly] [again'.Orderly]

theorem performs_otherwise (h : Performs R n inner inner') (hagain : Performs R n again again') :
    Performs R n (otherwise inner again) (Grammar.otherwise inner' again') := by
  refine performs_bind performs_peek fun found => performs_ite ?_ (performs_pure none)
  refine performs_bind performs_advance fun place => performs_bind performs_peek fun found => ?_
  exact performs_ite (performs_bind hagain fun s => performs_pure _) (performs_bind h fun b => performs_pure (some b))

theorem agrees_conditional (hturns : n < turns) (h : Performs R n inner inner') (hagain : Performs R n again again')
    (hs : R s p) (hp : p.InOrder) (hfound : p.found ≠ none) (hlen : p.unread.length ≤ n + 1) :
    Agrees R ((conditional turns inner again).run s) ((Grammar.conditional n inner' again').run p) := by
  refine agrees_bind_shorter hp hlen (agrees_advance hs) (Rule.shortens_advance hfound) fun place => ?_
  refine performs_bind (performs_condition hturns) fun test => performs_bind h fun thenBlock => ?_
  exact performs_bind (performs_otherwise h hagain) fun elseBlock => performs_pure _

theorem agrees_repetition (hturns : n < turns) (h : Performs R n inner inner') (hs : R s p) (hp : p.InOrder)
    (hfound : p.found ≠ none) (hlen : p.unread.length ≤ n + 1) :
    Agrees R ((repetition turns inner).run s) ((Grammar.repetition n inner').run p) := by
  refine agrees_bind_shorter hp hlen (agrees_advance hs) (Rule.shortens_advance hfound) fun place => ?_
  exact performs_bind (performs_condition hturns) fun test => performs_bind h fun body => performs_pure _

end

theorem performs_statement :
    ∀ n turns, n + 1 < turns → Performs R n (statement turns) (Grammar.statement n) := by
  refine performs_bounded 1 (fun n turns s p hs hnone => ?_) fun n turns hturns ih s p hs hp hfound hlen => ?_
  · rw [Rule.run_statement_end hnone, statement, run_peek_bind _ hs, hnone]
    exact agrees_refuse hs .statement
  · have hless : n < turns := Nat.lt_of_succ_lt hturns
    have hattempt := performs_attempt hless ih
    have hblock := performs_block hturns
      (performs_many rfl (Rule.shortens_statement n) hattempt n turns (Nat.le_refl n) hless)
    have hinner := hblock.mono (Nat.le_succ n)
    rw [statement, Grammar.statement, run_peek_bind _ hs, Rule.run_peek_bind]
    cases StatementStart.of p.found with
    | declaration type => exact agrees_declaration hless type hs hp hfound hlen
    | assignment x => exact agrees_assignment hless x hs hp hfound hlen
    | read => exact performs_read s p hs hp (Nat.le_refl _)
    | write => exact agrees_write hless hs hp hfound hlen
    | conditional => exact agrees_conditional hless hinner ih hs hp hfound hlen
    | repetition => exact agrees_repetition hless hinner hs hp hfound hlen
    | block => exact performs_bind hblock (fun b => performs_pure _) s p hs hp hlen
    | other => exact agrees_refuse hs .statement

theorem performs_step {turns : Nat} (hturns : n + 1 < turns) :
    Performs R n (step turns) (gather (Grammar.attempt (Grammar.statement n))) :=
  performs_attempt (Nat.lt_of_succ_lt hturns) (performs_statement n turns hturns)

theorem performs_statements {ends : Option TokenKind → Bool} (hends : ends none = true) (hturns : n + 1 < turns) :
    Performs R n (statements ends turns)
      (gather (Grammar.many ends (Grammar.attempt (Grammar.statement n)) n)) :=
  performs_many hends (Rule.shortens_statement n) (performs_step hturns) n turns (Nat.le_refl n)
    (Nat.lt_of_succ_lt hturns)

end Procedure
end Portugol.Grammar
