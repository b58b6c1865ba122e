import Portugol.Proofs.Grammar.Parsing
import Portugol.Proofs.Token.Order

/-! # What the errors of a source tell

Each error is told where the token is next that it names, and nothing is read again, so errors are told in the order
of the source (`Told`). A rule that keeps to this is candid, and all rules of the grammar are. So the statements that
are given up have their errors in order, and these are merged with the lexical errors of the source. -/
namespace Portugol
namespace Grammar

/-! ## Errors on the way through a source -/

/-- The position of the first of some tokens that are still unread, or the end of the source. -/
def placeOf (stop : Position) (rest : List Token) : Position := (rest.head?.map Token.position).getD stop

/-- An error is told where certain tokens are unread. -/
def Unexpected.At (stop : Position) (rest : List Token) (e : Unexpected) : Prop :=
  e.found = rest.head?.map Token.kind ∧ e.position = placeOf stop rest

theorem Cursor.at_unexpected (p : Cursor) (expected : Expectation) :
    (p.unexpected expected).At p.stop p.unread := ⟨rfl, rfl⟩

/-- Errors that are told one after the other on the way from some tokens to others behind them. -/
inductive Told (stop : Position) : List Token → List Unexpected → List Token → Prop where
  | none {us vs} (h : vs <:+ us) : Told stop us [] vs
  | cons {us rest vs e es} (h : rest <:+ us) (he : e.At stop rest) (hes : Told stop rest es vs) :
      Told stop us (e :: es) vs

namespace Told

variable {stop : Position} {us vs ws : List Token} {es fs : List Unexpected}

theorem suffix (h : Told stop us es vs) : vs <:+ us := by
  induction h with
  | none h => exact h
  | cons h _ _ ih => exact ih.trans h

theorem earlier (h : Told stop us es vs) (hws : us <:+ ws) : Told stop ws es vs := by
  cases h with
  | none h => exact .none (h.trans hws)
  | cons h he hes => exact .cons (h.trans hws) he hes

theorem trans (h : Told stop us es vs) (h' : Told stop vs fs ws) : Told stop us (es ++ fs) ws := by
  induction h with
  | none h => exact h'.earlier h
  | cons h he _ ih => exact .cons h he (ih h')

theorem later (h : Told stop us es vs) (hws : ws <:+ vs) : Told stop us es ws := by
  simpa using h.trans (.none hws)

theorem one {e : Unexpected} (he : e.At stop us) (h : vs <:+ us) : Told stop us [e] vs :=
  .cons (List.suffix_refl _) he (.none h)

/-- Each error is told at tokens on the way. -/
theorem exists_rest (h : Told stop us es vs) : ∀ e ∈ es, ∃ rest, rest <:+ us ∧ e.At stop rest := by
  induction h with
  | none => exact List.forall_mem_nil _
  | cons h he _ ih =>
    refine List.forall_mem_cons.2 ⟨⟨_, h, he⟩, fun e hmem => ?_⟩
    obtain ⟨rest, hrest, hat⟩ := ih e hmem
    exact ⟨rest, hrest.trans h, hat⟩

end Told

/-! ## Candid rules -/

namespace Rule

variable {α β : Type}

/-- However a rule ends, the errors that it adds are told on the way. -/
class Candid (rule : Rule α) : Prop where
  tells (p : Cursor) : ∃ es, (rule.run p).reported = p.errors.toList ++ es ∧
    Told p.stop p.unread es (rule.run p).after.unread

/-- A rule that reads and adds no error. -/
theorem Candid.of_read {rule : Rule α} [h : rule.Orderly]
    (hread : ∀ p, ∃ a q, rule.run p = .read a q ∧ q.errors = p.errors) : rule.Candid where
  tells p := by
    obtain ⟨a, q, hrun, herrors⟩ := hread p
    have hp := h.leads p
    rw [hrun] at hp
    rw [hrun]
    exact ⟨[], by simp [Reply.reported, herrors], .none hp.unread_suffix⟩

instance (a : α) : Candid (pure a) := .of_read fun p => ⟨a, p, rfl, rfl⟩

instance (rule : Rule α) (next : α → Rule β) [ho : rule.Orderly] [h : rule.Candid] [h' : ∀ a, (next a).Candid] :
    (rule >>= next).Candid where
  tells p := by
    have hstop := (ho.leads p).stop_eq
    obtain ⟨es, hes, htold⟩ := h.tells p
    rw [run_bind]
    cases hr : rule.run p with
    | read a q =>
      rw [hr] at hstop hes htold
      obtain ⟨fs, hfs, htold'⟩ := (h' a).tells q
      simp only [Reply.after, Reply.reported] at hstop hes htold
      rw [hstop] at htold'
      exact ⟨es ++ fs, by rw [hfs, hes, List.append_assoc], htold.trans htold'⟩
    | refused e q =>
      rw [hr] at hes htold
      exact ⟨es, hes, htold⟩

instance (c : Prop) [Decidable c] (rule rule' : Rule α) [h : rule.Candid] [h' : rule'.Candid] :
    (if c then rule else rule').Candid := by
  split
  · exact h
  · exact h'

instance (expected : Expectation) : Candid (refuse (α := α) expected) where
  tells p := ⟨[p.unexpected expected], rfl, .one (p.at_unexpected expected) (List.suffix_refl _)⟩

instance : Candid peek := .of_read fun p => ⟨_, p, rfl, rfl⟩

instance : Candid advance := .of_read fun _ => ⟨_, _, rfl, rfl⟩

instance (kind : TokenKind) : Candid (expect kind) := by
  unfold expect
  infer_instance

instance : Candid name where
  tells p := by
    rw [name, run_peek_bind]
    split <;> exact Candid.tells p

theorem Candid.leaving {rule : Rule α} {p p' : Cursor} {f : Cursor → Cursor} (h : rule.Candid)
    (hp : p'.stop = p.stop ∧ p'.unread = p.unread ∧ p'.errors = p.errors)
    (hf : ∀ q, (f q).unread = q.unread ∧ (f q).errors = q.errors) :
    ∃ es, ((rule.run p').leaving f).reported = p.errors.toList ++ es ∧
      Told p.stop p.unread es ((rule.run p').leaving f).after.unread := by
  obtain ⟨es, hes, htold⟩ := h.tells p'
  rw [hp.1, hp.2.1] at htold
  rw [hp.2.2] at hes
  have hsame : ((rule.run p').leaving f).reported = (rule.run p').reported := by
    cases rule.run p' <;> simp [Reply.leaving, Reply.reported, hf]
  rw [hsame, Reply.after_leaving, (hf _).1]
  exact ⟨es, hes, htold⟩

instance (rule : Rule α) [h : rule.Candid] : (nested rule).Candid where
  tells p := by
    simp only [nested]
    split
    · exact h.leaving ⟨rfl, rfl, rfl⟩ fun _ => ⟨rfl, rfl⟩
    · exact Candid.tells p

/-! ## Expressions -/

instance : Candid descend where
  tells p := by
    simp only [descend]
    split
    · exact ⟨[], by simp [advance, Reply.reported], .none (List.tail_suffix _)⟩
    · exact Candid.tells p

instance (rule : Rule α) [h : rule.Candid] : (restoringDepth rule).Candid where
  tells _ := h.leaving ⟨rfl, rfl, rfl⟩ fun _ => ⟨rfl, rfl⟩

theorem candid_fold (level : Level) (operand : Rule Expr) [operand.Orderly] [operand.Candid] (bound : Nat)
    (lhs : Expr) : (fold level operand bound lhs).Candid := by
  induction bound generalizing lhs with
  | zero =>
    rw [fold]
    infer_instance
  | succ bound ih =>
    constructor
    intro p
    rw [fold, run_peek_bind]
    split <;> exact Candid.tells p

instance (level : Level) (operand : Rule Expr) [operand.Orderly] [operand.Candid] (bound : Nat) :
    (chain level operand bound).Candid := by
  have := candid_fold level operand bound
  unfold chain
  infer_instance

instance (factor : Rule Expr) [factor.Orderly] [factor.Candid] (bound : Nat) : (chains factor bound).Candid := by
  unfold chains
  infer_instance

theorem candid_factor (bound : Nat) : (factor bound).Candid := by
  induction bound with
  | zero =>
    rw [factor]
    infer_instance
  | succ bound ih =>
    constructor
    intro p
    rw [factor, run_peek_bind]
    split <;> exact Candid.tells p

instance (bound : Nat) : (factor bound).Candid := candid_factor bound

instance (bound : Nat) : (expression bound).Candid := by
  unfold expression
  infer_instance

/-! ## Statements -/

/-- What is told of a statement that is given up is what was told of it before. -/
theorem reported_attempt (rule : Rule Statement) (p : Cursor) :
    ((gather (attempt rule)).run p).reported = (rule.run p).reported := by
  simp only [gather, attempt]
  cases rule.run p with
  | read s q => rfl
  | refused e q => simp [Reply.reported]

/-- Where a statement is given up nothing is read again. -/
theorem unread_attempt (rule : Rule Statement) (p : Cursor) :
    ((gather (attempt rule)).run p).after.unread <:+ (rule.run p).after.unread := by
  simp only [gather, attempt]
  cases rule.run p with
  | read s q => exact List.suffix_refl _
  | refused e q =>
    simp only [Reply.after]
    split
    · exact (List.tail_suffix _).trans (fromBoundary_suffix _ _)
    · exact fromBoundary_suffix _ _

instance (rule : Rule Statement) [h : rule.Candid] : (gather (attempt rule)).Candid where
  tells p := by
    obtain ⟨es, hes, htold⟩ := h.tells p
    rw [reported_attempt]
    exact ⟨es, hes, htold.later (unread_attempt rule p)⟩

instance (ends : Option TokenKind → Bool) (step : Cursor → Option Statement × Cursor) [ho : (gather step).Orderly]
    [h : (gather step).Candid] (bound : Nat) : (gather (many ends step bound)).Candid := by
  induction bound with
  | zero => exact .of_read fun p => ⟨[], p, rfl, rfl⟩
  | succ bound ih =>
    constructor
    intro p
    cases hends : ends p.found with
    | true =>
      rw [run_many_stop hends]
      exact ⟨[], (List.append_nil _).symm, .none (List.suffix_refl _)⟩
    | false =>
      rw [run_many_succ hends]
      exact Candid.tells p

variable (step : Cursor → Option Statement × Cursor) [(gather step).Orderly] [(gather step).Candid]

instance (bound : Nat) : (braced step bound).Candid := by
  unfold braced
  infer_instance

instance (bound : Nat) : (block step bound).Candid where
  tells p := by
    simp only [block]
    split
    · exact ⟨_, rfl, .one (p.at_unexpected .shallowerNesting) (behindGroup_suffix 0 p.unread)⟩
    · exact Candid.tells p

instance (bound : Nat) : (initializer bound).Candid := by
  unfold initializer
  infer_instance

instance (bound : Nat) (type : Option DataType) : (declaration bound type).Candid := by
  unfold declaration
  infer_instance

instance (bound : Nat) (x : String) : (assignment bound x).Candid := by
  unfold assignment
  infer_instance

instance : Candid read := by
  unfold read
  infer_instance

theorem candid_moreExpressions (bound : Nat) : (moreExpressions bound).Candid := by
  induction bound with
  | zero =>
    unfold moreExpressions
    infer_instance
  | succ bound ih =>
    unfold moreExpressions
    infer_instance

instance (bound : Nat) : (moreExpressions bound).Candid := candid_moreExpressions bound

instance (bound : Nat) : (write bound).Candid := by
  unfold write
  infer_instance

instance (bound : Nat) : (condition bound).Candid := by
  unfold condition
  infer_instance

instance (inner : Rule Block) (again : Rule Statement) [inner.Orderly] [again.Orderly] [inner.Candid]
    [again.Candid] : (otherwise inner again).Candid := by
  unfold otherwise
  infer_instance

instance (bound : Nat) (inner : Rule Block) (again : Rule Statement) [inner.Orderly] [again.Orderly]
    [inner.Candid] [again.Candid] : (conditional bound inner again).Candid := by
  unfold conditional
  infer_instance

instance (bound : Nat) (inner : Rule Block) [inner.Orderly] [inner.Candid] : (repetition bound inner).Candid := by
  unfold repetition
  infer_instance

theorem candid_statement (bound : Nat) : (statement bound).Candid := by
  induction bound with
  | zero =>
    rw [statement]
    infer_instance
  | succ bound ih =>
    constructor
    intro p
    rw [statement, run_peek_bind]
    split <;> exact Candid.tells p

instance (bound : Nat) : (statement bound).Candid := candid_statement bound

end Rule

/-! ## The order of errors -/

section
variable {stop : Position} {us rest vs : List Token} {es : List Unexpected}

/-- Further on in a source is further down or further to the right. -/
theorem placeOf_le (hsorted : us.Pairwise fun t u => t.position < u.position) (hstop : ∀ t ∈ us, t.position < stop)
    (h : rest <:+ us) : placeOf stop us ≤ placeOf stop rest := by
  cases us with
  | nil =>
    rw [List.suffix_nil.1 h]
    exact Position.le_rfl
  | cons t us =>
    rcases List.suffix_cons_iff.1 h with rfl | h
    · exact Position.le_rfl
    · cases rest with
      | nil => exact Position.le_of_lt (hstop t List.mem_cons_self)
      | cons u rest => exact Position.le_of_lt (List.rel_of_pairwise_cons hsorted (h.mem List.mem_cons_self))

/-- Errors are told in the order of the source. -/
theorem Told.sorted (h : Told stop us es vs) (hsorted : us.Pairwise fun t u => t.position < u.position)
    (hstop : ∀ t ∈ us, t.position < stop) : es.Pairwise fun d e => d.position ≤ e.position := by
  induction h with
  | none => exact .nil
  | @cons us rest vs e es h he hes ih =>
    have hrest := hsorted.sublist h.sublist
    have hbelow : ∀ t ∈ rest, t.position < stop := fun t ht => hstop t (h.mem ht)
    refine .cons (fun e' hmem => ?_) (ih hrest hbelow)
    obtain ⟨rest', hsuffix, he'⟩ := hes.exists_rest e' hmem
    rw [he.2, he'.2]
    exact placeOf_le hrest hbelow hsuffix

end

/-- The errors of statements that were given up, on the way through the source. -/
theorem statements_told (tokens : List Token) (stop : Position) :
    Told stop tokens (statements (.start tokens stop)).2.errors.toList (statements (.start tokens stop)).2.unread := by
  have hcandid : (gather (many endsProgram (attempt (statement tokens.length)) tokens.length)).Candid :=
    inferInstance
  obtain ⟨es, hes, htold⟩ := hcandid.tells (.start tokens stop)
  rw [statements_start]
  have herrors : (many endsProgram (attempt (statement tokens.length)) tokens.length
      (.start tokens stop)).2.errors.toList = es := hes
  rw [herrors]
  exact htold

end Grammar

namespace SyntaxError

def lexical? : SyntaxError → Option LexicalError
  | .lexical e => some e
  | .unexpected _ => none

def unexpected? : SyntaxError → Option Grammar.Unexpected
  | .lexical _ => none
  | .unexpected e => some e

/-- What is found in one of two lists only is found in the merged list in the same order. -/
theorem filterMap_merge {α β : Type} {le : α → α → Bool} {f : α → Option β} {l r : List α}
    (h : l.filterMap f = [] ∨ r.filterMap f = []) :
    (l.merge r le).filterMap f = l.filterMap f ++ r.filterMap f := by
  induction l generalizing r with
  | nil => rw [List.nil_merge, List.filterMap_nil, List.nil_append]
  | cons a l ihl =>
    induction r with
    | nil => rw [List.merge_right, List.filterMap_nil, List.append_nil]
    | cons b r ihr =>
      rw [List.cons_merge_cons]
      split
      · have hl : l.filterMap f = [] ∨ (b :: r).filterMap f = [] :=
          h.imp_left fun ha => List.filterMap_eq_nil_iff.2 fun x hx =>
            List.filterMap_eq_nil_iff.1 ha x (List.mem_cons_of_mem a hx)
        rw [List.filterMap_cons, List.filterMap_cons, ihl hl]
        split <;> rfl
      · have hr : (a :: l).filterMap f = [] ∨ r.filterMap f = [] :=
          h.imp_right fun hb => List.filterMap_eq_nil_iff.2 fun x hx =>
            List.filterMap_eq_nil_iff.1 hb x (List.mem_cons_of_mem b hx)
        rw [List.filterMap_cons, ihr hr]
        cases hb : f b with
        | none => rw [List.filterMap_cons_none hb]
        | some y =>
          have hl : (a :: l).filterMap f = [] := h.resolve_right (by simp [hb])
          rw [hl, List.filterMap_cons_some hb, List.nil_append, List.nil_append]

variable (lexical : List LexicalError) (unexpected : List Grammar.Unexpected)

theorem filterMap_lexical?_inOrder : (inOrder lexical unexpected).filterMap lexical? = lexical := by
  have hnone : (unexpected.map SyntaxError.unexpected).filterMap lexical? = [] := by simp [lexical?]
  have hall : (lexical.map SyntaxError.lexical).filterMap lexical? = lexical := by
    simp [List.filterMap_map, Function.comp_def, lexical?]
  rw [inOrder, filterMap_merge (.inr hnone), hnone, hall, List.append_nil]

theorem filterMap_unexpected?_inOrder : (inOrder lexical unexpected).filterMap unexpected? = unexpected := by
  have hnone : (lexical.map SyntaxError.lexical).filterMap unexpected? = [] := by simp [unexpected?]
  have hall : (unexpected.map SyntaxError.unexpected).filterMap unexpected? = unexpected := by
    simp [List.filterMap_map, Function.comp_def, unexpected?]
  rw [inOrder, filterMap_merge (.inl hnone), hnone, hall, List.nil_append]

theorem position_trans (d e f : SyntaxError) (h : d.position.le e.position) (h' : e.position.le f.position) :
    d.position.le f.position :=
  Position.le_trans h h'

theorem position_total (d e : SyntaxError) : (d.position.le e.position || e.position.le d.position) = true := by
  simp only [Position.le, Bool.or_eq_true, Bool.and_eq_true, decide_eq_true_eq]
  omega

theorem sorted_inOrder {lexical : List LexicalError} {unexpected : List Grammar.Unexpected}
    (hl : lexical.Pairwise fun d e => d.position ≤ e.position)
    (hu : unexpected.Pairwise fun d e => d.position ≤ e.position) :
    (inOrder lexical unexpected).Pairwise fun d e => d.position ≤ e.position :=
  List.pairwise_merge position_trans position_total _ _ (List.pairwise_map.2 hl) (List.pairwise_map.2 hu)

end SyntaxError

namespace Program

theorem parse_eq_error_iff {source : String} {errors : List SyntaxError} :
    Program.parse source = .error errors ↔ errors ≠ [] ∧
      errors = SyntaxError.inOrder (tokenize source).errors
        (Grammar.statements (tokenize source).cursor).2.errors.toList := by
  rw [Program.parse, Grammar.programFrom]
  cases hall : SyntaxError.inOrder (tokenize source).errors
      (Grammar.statements (tokenize source).cursor).2.errors.toList with
  | nil =>
    constructor
    · intro h
      cases h
    · rintro ⟨hne, heq⟩
      exact absurd heq hne
  | cons e es =>
    simp only [Except.error.injEq]
    constructor
    · rintro rfl
      exact ⟨List.cons_ne_nil e es, rfl⟩
    · exact fun h => h.2.symm

end Program
end Portugol
