import Portugol.Proofs.Grammar.Statements

/-! # Nesting and progress of statements

A statement goes back to the nesting of its beginning, whether it is read or given up, and every step of reading
statements passes over a token unless the source has come to its end (`attempt_shortens`). -/
namespace Portugol.Grammar.Rule

variable {α β : Type}

/-! ## The nesting of a statement -/

instance : Balanced name where
  depth_eq p := by
    rw [name, run_peek_bind]
    split <;> exact Balanced.depth_eq p

instance (rule : Rule Statement) [h : rule.Balanced] : (gather (attempt rule)).Balanced where
  depth_eq p := by
    have hp := h.depth_eq p
    simp only [gather, attempt]
    cases hr : rule.run p <;> rw [hr] at hp <;> exact hp

instance (ends : Option TokenKind → Bool) (step : Cursor → Option Statement × Cursor) [h : (gather step).Balanced]
    (bound : Nat) : (gather (many ends step bound)).Balanced where
  depth_eq p := by
    simp only [gather, Reply.after]
    induction bound generalizing p with
    | zero => rfl
    | succ bound ih =>
      rw [many]
      split
      · rfl
      · exact (ih _).trans (h.depth_eq p)

variable (step : Cursor → Option Statement × Cursor) [(gather step).Balanced]

instance (bound : Nat) : (braced step bound).Balanced := by
  unfold braced
  infer_instance

instance (bound : Nat) : (block step bound).Balanced where
  depth_eq p := by
    simp only [block]
    split
    · rfl
    · exact Balanced.depth_eq p

instance (bound : Nat) : (initializer bound).Balanced := by
  unfold initializer
  infer_instance

instance (bound : Nat) (type : Option DataType) : (declaration bound type).Balanced := by
  unfold declaration
  infer_instance

instance (bound : Nat) (x : String) : (assignment bound x).Balanced := by
  unfold assignment
  infer_instance

instance : Balanced read := by
  unfold read
  infer_instance

theorem balanced_moreExpressions (bound : Nat) : (moreExpressions bound).Balanced := by
  induction bound with
  | zero =>
    unfold moreExpressions
    infer_instance
  | succ bound ih =>
    unfold moreExpressions
    infer_instance

instance (bound : Nat) : (moreExpressions bound).Balanced := balanced_moreExpressions bound

instance (bound : Nat) : (write bound).Balanced := by
  unfold write
  infer_instance

instance (bound : Nat) : (condition bound).Balanced := by
  unfold condition
  infer_instance

instance (inner : Rule Block) (again : Rule Statement) [inner.Balanced] [again.Balanced] :
    (otherwise inner again).Balanced := by
  unfold otherwise
  infer_instance

instance (bound : Nat) (inner : Rule Block) (again : Rule Statement) [inner.Balanced] [again.Balanced] :
    (conditional bound inner again).Balanced := by
  unfold conditional
  infer_instance

instance (bound : Nat) (inner : Rule Block) [inner.Balanced] : (repetition bound inner).Balanced := by
  unfold repetition
  infer_instance

theorem balanced_statement (bound : Nat) : (statement bound).Balanced := by
  induction bound with
  | zero =>
    rw [statement]
    infer_instance
  | succ bound ih =>
    constructor
    intro p
    rw [statement, run_peek_bind]
    split <;> exact Balanced.depth_eq p

instance (bound : Nat) : (statement bound).Balanced := balanced_statement bound

/-! ## Reading a statement passes over a token -/

/-- Where a rule succeeds it has passed over a token. -/
def Shortens (rule : Rule α) (p : Cursor) : Prop :=
  ∀ a q, rule.run p = .read a q → q.unread.length < p.unread.length

theorem length_le_of_read {rule : Rule α} [rule.Orderly] {p q : Cursor} {a : α} (h : rule.run p = .read a q) :
    q.unread.length ≤ p.unread.length := by
  have hp := leads_run rule p
  rw [h] at hp
  exact hp.unread_suffix.length_le

theorem shortens_bind {rule : Rule α} {next : α → Rule β} [∀ a, (next a).Orderly] {p : Cursor}
    (h : rule.Shortens p) : (rule >>= next).Shortens p := by
  intro b r hrun
  rw [run_bind] at hrun
  cases hr : rule.run p with
  | read a q =>
    rw [hr] at hrun
    exact Nat.lt_of_le_of_lt (length_le_of_read hrun) (h a q hr)
  | refused e q =>
    rw [hr] at hrun
    cases hrun

theorem shortens_advance {p : Cursor} (h : p.found ≠ none) : advance.Shortens p := by
  intro place q hrun
  cases hrun
  obtain ⟨t, rest, hp⟩ := List.exists_cons_of_ne_nil (mt Cursor.found_eq_none_iff.2 h)
  simp [hp]

theorem shortens_expect (kind : TokenKind) (p : Cursor) : (expect kind).Shortens p := by
  intro place q hrun
  rw [expect, run_peek_bind] at hrun
  split at hrun
  · next hfound => exact shortens_advance (by simp [hfound]) place q hrun
  · cases hrun

theorem shortens_descend {p : Cursor} (h : p.found ≠ none) : descend.Shortens p := by
  intro place q hrun
  simp only [descend] at hrun
  split at hrun
  · exact shortens_advance (p := { p with depth := p.depth + 1 }) h place q hrun
  · cases hrun

theorem shortens_nested {rule : Rule α} {p : Cursor} (h : rule.Shortens { p with depth := p.depth + 1 }) :
    (nested rule).Shortens p := by
  intro a q hrun
  simp only [nested] at hrun
  split at hrun
  · cases hr : rule.run { p with depth := p.depth + 1 } with
    | read b r =>
      rw [hr] at hrun
      cases hrun
      exact h a r hr
    | refused e r =>
      rw [hr] at hrun
      cases hrun
  · cases hrun

theorem shortens_block (step : Cursor → Option Statement × Cursor) [(gather step).Orderly] (bound : Nat)
    (p : Cursor) : (block step bound).Shortens p := by
  intro b q hrun
  simp only [block] at hrun
  split at hrun
  · cases hrun
  · exact shortens_nested (shortens_bind (shortens_expect _ _)) b q hrun

theorem shortens_statement (bound : Nat) (p : Cursor) : (statement bound).Shortens p := by
  cases bound with
  | zero => exact nofun
  | succ bound =>
    intro s q hrun
    rw [statement, run_peek_bind] at hrun
    cases hof : StatementStart.of p.found with
    | other =>
      rw [hof] at hrun
      cases hrun
    | block =>
      rw [hof] at hrun
      exact shortens_bind (shortens_block _ _ p) s q hrun
    | declaration | assignment | read | write | conditional | repetition =>
      rw [hof] at hrun
      exact shortens_bind (shortens_advance (StatementStart.found_ne hof nofun rfl)) s q hrun

/-- Every step of reading statements leaves fewer tokens, unless none is left. -/
theorem attempt_shortens {rule : Rule Statement} [rule.Orderly] {p : Cursor} (hrule : rule.Shortens p)
    (hp : p.found ≠ none) : (attempt rule p).2.unread.length < p.unread.length := by
  have hlead := leads_run rule p
  have hpos : 0 < p.unread.length := List.length_pos_iff.2 (mt Cursor.found_eq_none_iff.2 hp)
  unfold attempt
  cases hr : rule.run p with
  | read s q => exact hrule s q hr
  | refused e q =>
    rw [hr] at hlead
    have hle := ((fromBoundary_suffix q.depth q.unread).trans hlead.unread_suffix).length_le
    simp only
    split
    · next heq =>
      rw [List.length_tail]
      omega
    · omega

end Portugol.Grammar.Rule
