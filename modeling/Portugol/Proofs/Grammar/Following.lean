import Portugol.Proofs.Grammar.Abreast

/-! # The rules of the grammar side by side

All rules of the grammar follow each other, those of expressions first and then those of statements: on two ways
through the same tokens they give the same results at the positions of either way, keep the same errors, and go on from
the same boundaries (`related_statements`). -/
namespace Portugol.Grammar

variable {l r : Side} {p p' : Cursor} {α β : Type} [Placed α] [Placed β]

namespace Rule

variable {n m : Nat} {kind : TokenKind} {rule rule' : Rule α}

/-! ## Expressions -/

theorem follows_restoringDepth (h : Follows l r n m rule rule') :
    Follows l r n m (restoringDepth rule) (restoringDepth rule') := by
  intro p p' hp hlen hlen'
  simp only [restoringDepth, hp.depth_eq]
  exact (h p p' hp hlen hlen').leaving fun _ => p.depth

theorem followsAt_descend_bind {next next' : Position → Rule β} [∀ a, (next a).Orderly] [∀ a, (next a).Candid]
    [∀ a, (next' a).Orderly] [∀ a, (next' a).Candid]
    (hnext : ∀ a a', Same l r a a' → Follows l r n m (next a) (next' a')) :
    FollowsAt l r kind (n + 1) (m + 1) (descend >>= next) (descend >>= next') := by
  have hrun (p : Cursor) (next : Position → Rule β) : (descend >>= next).run p =
      if p.depth < maxNesting then (advance >>= next).run { p with depth := p.depth + 1 }
      else (refuse .shallowerNesting).run p := by
    by_cases hd : p.depth < maxNesting <;> simp [run_bind, descend, refuse, hd]
  intro p p' hp hfound hlen hlen'
  rw [hrun, hrun, hp.depth_eq]
  split
  · exact followsAt_advance_bind hnext _ _ (hp.withDepth (p.depth + 1)) hfound hlen hlen'
  · exact follows_refuse _ p p' hp hlen hlen'

theorem follows_fold (level : Level) {operand operand' : Rule Expr} [operand.Orderly] [operand.Candid]
    [operand'.Orderly] [operand'.Candid] {bound bound' : Nat} (h : Follows l r bound bound' operand operand') :
    ∀ n m, n ≤ bound → m ≤ bound' → ∀ lhs lhs', Same l r lhs lhs' →
      Follows l r n m (fold level operand n lhs) (fold level operand' m lhs') := by
  have hend {n m : Nat} {lhs lhs' : Expr} (hlhs : Same l r lhs lhs') (p p' : Cursor) (hp : Abreast l r p p')
      (hnone : p.found = none) :
      Related l r ((fold level operand n lhs).run p) ((fold level operand' m lhs').run p') := by
    rw [run_fold_stop (by rw [hnone]; rfl), run_fold_stop (by rw [hp.found_eq, hnone]; rfl)]
    exact .read hlhs hp
  intro n
  induction n with
  | zero => exact fun m _ _ lhs lhs' hlhs => follows_zero (.inl rfl) (hend hlhs)
  | succ n ih =>
    intro m hn hm lhs lhs' hlhs
    cases m with
    | zero => exact follows_zero (.inr rfl) (hend hlhs)
    | succ m =>
      refine follows_succ (hend hlhs) fun kind p p' hp hfound hlen hlen' => ?_
      have := orderly_fold level operand n
      have := orderly_fold level operand' m
      have := candid_fold level operand n
      have := candid_fold level operand' m
      rw [fold, fold, run_peek_bind, run_peek_bind, hp.found_eq]
      split
      · exact .read hlhs hp
      · next op _ =>
        refine followsAt_descend_bind (fun place place' hplace => ?_) p p' hp hfound hlen hlen'
        refine follows_bind (h.mono (by omega) (by omega)) fun rhs rhs' hrhs => ih m (by omega) (by omega) _ _ ?_
        simp only [Same, Placed.moved, Expr.moved] at hlhs hrhs hplace ⊢
        rw [hlhs, hrhs, hplace]

theorem follows_chain (level : Level) {operand operand' : Rule Expr} [operand.Orderly] [operand.Candid]
    [operand'.Orderly] [operand'.Candid] (h : Follows l r n m operand operand') :
    Follows l r n m (chain level operand n) (chain level operand' m) := by
  have := orderly_fold level operand n
  have := orderly_fold level operand' m
  have := candid_fold level operand n
  have := candid_fold level operand' m
  refine follows_bind h fun lhs lhs' hlhs => follows_restoringDepth ?_
  exact follows_fold level h n m (Nat.le_refl _) (Nat.le_refl _) lhs lhs' hlhs

theorem follows_chains {factor factor' : Rule Expr} [factor.Orderly] [factor.Candid] [factor'.Orderly]
    [factor'.Candid] (h : Follows l r n m factor factor') :
    Follows l r n m (chains factor n) (chains factor' m) :=
  follows_chain .logic (follows_chain .comparison (follows_chain .sum (follows_chain .term h)))

theorem run_factor_end {p : Cursor} (hp : p.found = none) (bound : Nat) :
    (factor bound).run p = .refused (p.unexpected .expression) p := by
  cases bound with
  | zero => rfl
  | succ bound =>
    rw [factor, run_peek_bind, hp]
    rfl

theorem follows_factor : ∀ n m, Follows l r n m (factor n) (factor m) := by
  refine follows_bounded (fun n m p p' hp hnone => ?_) fun n m kind ih p p' hp hfound hlen hlen' => ?_
  · rw [run_factor_end hnone, run_factor_end (by rw [hp.found_eq, hnone])]
    exact .refused (hp.unexpected_same _) hp
  · rw [factor, factor, run_peek_bind, run_peek_bind, hp.found_eq]
    split
    · next value _ =>
      refine followsAt_advance_bind (fun place place' hplace => follows_pure ?_) p p' hp hfound hlen hlen'
      exact congrArg (Expr.literal value) hplace
    · next x _ =>
      refine followsAt_advance_bind (fun place place' hplace => follows_pure ?_) p p' hp hfound hlen hlen'
      exact congrArg (Expr.name x) hplace
    · refine related_nested hp fun hp => followsAt_advance_bind (fun _ _ _ => ?_) _ _ hp hfound hlen hlen'
      refine follows_bind (follows_chains ih) fun inner inner' hinner => ?_
      refine follows_bind (follows_expect _) fun _ _ _ => follows_pure ?_
      exact congrArg Expr.group hinner
    · next op _ =>
      refine related_nested hp fun hp =>
        followsAt_advance_bind (fun place place' hplace => ?_) _ _ hp hfound hlen hlen'
      refine follows_bind ih fun operand operand' hoperand => follows_pure ?_
      simp only [Same, Placed.moved, Expr.moved] at hplace hoperand ⊢
      rw [hplace, hoperand]
    · exact follows_refuse _ p p' hp hlen hlen'

theorem follows_expression : Follows l r n m (expression n) (expression m) := follows_chains (follows_factor n m)

/-! ## Statements -/

theorem follows_initializer : Follows l r n m (initializer n) (initializer m) := by
  intro p p' hp hlen hlen'
  rw [initializer, initializer, run_peek_bind, run_peek_bind, hp.found_eq]
  split
  · refine Follows.related ?_ hp hlen hlen'
    refine follows_bind follows_advance fun _ _ _ => follows_bind follows_expression fun e e' he => follows_pure ?_
    exact congrArg some he
  · exact .read rfl hp

theorem followsAt_declaration (type : Option DataType) :
    FollowsAt l r kind (n + 1) (m + 1) (declaration n type) (declaration m type) := by
  refine followsAt_advance_bind fun place place' hplace => follows_bind follows_name fun x x' hx => ?_
  obtain rfl : x = x' := hx
  refine follows_bind follows_initializer fun init init' hinit => ?_
  refine follows_bind (follows_expect _) fun _ _ _ => follows_pure ?_
  simp only [Same, Placed.moved, Statement.moved] at hplace hinit ⊢
  rw [hplace, hinit]

theorem followsAt_assignment (x : String) :
    FollowsAt l r kind (n + 1) (m + 1) (assignment n x) (assignment m x) := by
  refine followsAt_advance_bind fun place place' hplace p p' hp hlen hlen' => ?_
  rw [run_peek_bind, run_peek_bind, hp.found_eq]
  split
  · refine Follows.related ?_ hp hlen hlen'
    refine follows_bind follows_advance fun _ _ _ => follows_bind follows_expression fun value value' hvalue => ?_
    refine follows_bind (follows_expect _) fun _ _ _ => follows_pure ?_
    simp only [Same, Placed.moved, Statement.moved] at hplace hvalue ⊢
    rw [hplace, hvalue]
  · exact .refused (hp.unexpected_same _) hp

theorem followsAt_read : FollowsAt l r kind (n + 1) (m + 1) read read := by
  refine followsAt_advance_bind fun place place' hplace => follows_bind (follows_expect _) fun _ _ _ => ?_
  refine follows_bind follows_name fun x x' hx => ?_
  obtain rfl : x = x' := hx
  refine follows_bind (follows_expect _) fun _ _ _ => follows_bind (follows_expect _) fun _ _ _ => follows_pure ?_
  exact congrArg (Statement.read x) hplace

theorem run_moreExpressions_end {p : Cursor} (hp : p.found = none) (bound : Nat) :
    (moreExpressions bound).run p = .read [] p := by
  cases bound with
  | zero => rfl
  | succ bound =>
    rw [moreExpressions, run_peek_bind, hp]
    rfl

theorem follows_moreExpressions : ∀ n m, Follows l r n m (moreExpressions n) (moreExpressions m) := by
  refine follows_bounded (fun n m p p' hp hnone => ?_) fun n m kind ih p p' hp hfound hlen hlen' => ?_
  · rw [run_moreExpressions_end hnone, run_moreExpressions_end (by rw [hp.found_eq, hnone])]
    exact .read rfl hp
  · rw [moreExpressions, moreExpressions, run_peek_bind, run_peek_bind, hp.found_eq]
    split
    · refine followsAt_advance_bind (fun _ _ _ => ?_) p p' hp hfound hlen hlen'
      refine follows_bind follows_expression fun e e' he => follows_bind ih fun es es' hes => follows_pure ?_
      simp only [Same, Placed.moved, List.map_cons] at he hes ⊢
      rw [he, hes]
    · exact .read rfl hp

theorem followsAt_write : FollowsAt l r kind (n + 1) (m + 1) (write n) (write m) := by
  refine followsAt_advance_bind fun place place' hplace => follows_bind (follows_expect _) fun _ _ _ => ?_
  refine follows_bind follows_expression fun e e' he => ?_
  refine follows_bind (follows_moreExpressions n m) fun es es' hes => ?_
  refine follows_bind (follows_expect _) fun _ _ _ => follows_bind (follows_expect _) fun _ _ _ => follows_pure ?_
  simp only [Same, Placed.moved, Statement.moved, List.map_cons] at hplace he hes ⊢
  rw [hplace, he, hes]

theorem follows_condition : Follows l r n m (condition n) (condition m) := by
  refine follows_bind (follows_expect _) fun _ _ _ => follows_bind follows_expression fun e e' he => ?_
  exact follows_bind (follows_expect _) fun _ _ _ => follows_pure he

/-! ## Giving up a statement -/

theorem facing_fromBoundary (depth : Nat) {us us' : List Token} (h : List.Forall₂ (Alike l r) us us') :
    Facing l r (fromBoundary depth (us ++ l.tail)) (fromBoundary depth (us' ++ r.tail)) ∨
      (fromBoundary depth (us ++ l.tail) <:+ l.tail ∧ fromBoundary depth (us' ++ r.tail) <:+ r.tail) := by
  induction h with
  | nil => exact .inr ⟨fromBoundary_suffix _ _, fromBoundary_suffix _ _⟩
  | @cons t t' us us' ht hall ih =>
    have hfacing : Facing l r (us ++ l.tail) (us' ++ r.tail) := ⟨us, us', rfl, rfl, hall⟩
    have hfacing' : Facing l r (t :: (us ++ l.tail)) (t' :: (us' ++ r.tail)) :=
      ⟨t :: us, t' :: us', rfl, rfl, .cons ht hall⟩
    simp only [List.cons_append, fromBoundary, ← ht.1]
    split
    · split
      · exact .inl hfacing
      · exact .inl hfacing'
    split
    · exact .inl hfacing'
    split
    · exact .inl hfacing
    split
    · exact .inl hfacing'
    · exact ih

theorem facing_behindGroup (opened : Nat) {us us' : List Token} (h : List.Forall₂ (Alike l r) us us') :
    Facing l r (behindGroup opened (us ++ l.tail)) (behindGroup opened (us' ++ r.tail)) ∨
      (behindGroup opened (us ++ l.tail) <:+ l.tail ∧ behindGroup opened (us' ++ r.tail) <:+ r.tail) := by
  induction h generalizing opened with
  | nil => exact .inr ⟨behindGroup_suffix _ _, behindGroup_suffix _ _⟩
  | @cons t t' us us' ht hall ih =>
    simp only [List.cons_append, behindGroup, ← ht.1]
    split
    · exact ih _
    split
    · split
      · exact .inl ⟨us, us', rfl, rfl, hall⟩
      · exact ih _
    · exact ih _

/-- Where nothing was passed over, one token is, on both sides or on neither. -/
theorem facing_further {t t' : Token} {us us' rest rest' : List Token} (hus : Facing l r us us')
    (h : Facing l r rest rest' ∨ (rest <:+ l.tail ∧ rest' <:+ r.tail)) :
    Facing l r (if rest.length = (t :: us).length then rest.tail else rest)
        (if rest'.length = (t' :: us').length then rest'.tail else rest') ∨
      ((if rest.length = (t :: us).length then rest.tail else rest) <:+ l.tail ∧
        (if rest'.length = (t' :: us').length then rest'.tail else rest') <:+ r.tail) := by
  obtain ⟨vs, vs', rfl, rfl, hvs⟩ := hus
  have hlen := hvs.length_eq
  rcases h with ⟨ws, ws', rfl, rfl, hws⟩ | ⟨hs, hs'⟩
  · have hlen' := hws.length_eq
    left
    -- On both sides as many tokens are left, so nothing was passed over on one only if nothing was on the other.
    cases hws with
    | nil =>
      rw [if_neg (by simp; omega), if_neg (by simp; omega)]
      exact ⟨[], [], rfl, rfl, .nil⟩
    | @cons w w' ws ws' hw hws =>
      simp only [List.length_cons, List.length_append, List.cons_append, List.tail_cons] at hlen' ⊢
      by_cases heq : ws.length = vs.length
      · rw [if_pos (by omega), if_pos (by omega)]
        exact ⟨ws, ws', rfl, rfl, hws⟩
      · rw [if_neg (by omega), if_neg (by omega)]
        exact ⟨w :: ws, w' :: ws', rfl, rfl, .cons hw hws⟩
  · have hle := hs.length_le
    have hle' := hs'.length_le
    rw [if_neg (by simp; omega), if_neg (by simp; omega)]
    exact .inr ⟨hs, hs'⟩

theorem beyond_attempt {s : Side} {es : List Unexpected} {rule : Rule Statement} [rule.Orderly] {p : Cursor}
    (h : s.Beyond es (rule.run p)) : s.Beyond es ((gather (attempt rule)).run p) := by
  obtain ⟨hstop, more, hmore, htold⟩ := h
  refine ⟨?_, more, (reported_attempt rule p).trans hmore, htold.later (unread_attempt rule p)⟩
  rw [(leads_run (gather (attempt rule)) p).stop_eq, ← (leads_run rule p).stop_eq, hstop]

theorem followsAt_attempt {rule rule' : Rule Statement} [rule.Orderly] [rule'.Orderly]
    (h : FollowsAt l r kind n m rule rule') :
    FollowsAt l r kind n m (gather (attempt rule)) (gather (attempt rule')) := by
  intro p p' hp hfound hlen hlen'
  have hrelated := h p p' hp hfound hlen hlen'
  generalize hr : rule.run p = reply at hrelated
  generalize hr' : rule'.run p' = reply' at hrelated
  cases hrelated with
  | read ha hq =>
    simp only [gather, attempt, hr, hr']
    exact .read (congrArg some ha) hq
  | beyond hopen hes hb hb' =>
    subst hr hr'
    exact .beyond hopen hes (beyond_attempt hb) (beyond_attempt hb')
  | @refused e e' q q' he hq =>
    simp only [gather, attempt, hr, hr']
    obtain ⟨es, es', hes, hes', hsame⟩ := hq.errors
    refine .of_read rfl ⟨hq.stop_left, hq.stop_right, hq.depth_eq, es ++ [e], es' ++ [e'], ?_, ?_, ?_⟩ ?_
    · simp [hes]
    · simp [hes']
    · exact hsame.append he.singleton
    · obtain ⟨ws, ws', hu, hu', hall⟩ := hq.facing
      rcases hp.cases_next with ⟨-, hnil, -⟩ | ⟨t, t', us, us', hp, hp', -, hus⟩
      · rw [Cursor.found_eq_none_iff.2 hnil] at hfound
        cases hfound
      · simp only [hu, hu', hq.depth_eq, hp, hp']
        exact facing_further hus (facing_fromBoundary q.depth hall)

theorem follows_many {ends : Option TokenKind → Bool} (hends : ends none = true) {rule rule' : Rule Statement}
    [rule.Orderly] [rule'.Orderly] [rule.Candid] [rule'.Candid] (hshort : ∀ p, rule.Shortens p)
    (hshort' : ∀ p, rule'.Shortens p) {bound bound' : Nat} (h : Follows l r bound bound' rule rule') :
    ∀ n m, n ≤ bound → m ≤ bound' →
      Follows l r n m (gather (many ends (attempt rule) n)) (gather (many ends (attempt rule') m)) := by
  have hend {n m : Nat} (p p' : Cursor) (hp : Abreast l r p p') (hnone : p.found = none) :
      Related l r ((gather (many ends (attempt rule) n)).run p)
        ((gather (many ends (attempt rule') m)).run p') := by
    rw [run_many_stop (by rw [hnone, hends]), run_many_stop (by rw [hp.found_eq, hnone, hends])]
    exact .read rfl hp
  intro n
  induction n with
  | zero => exact fun m _ _ => follows_zero (.inl rfl) hend
  | succ n ih =>
    intro m hn hm
    cases m with
    | zero => exact follows_zero (.inr rfl) hend
    | succ m =>
      refine follows_succ hend fun kind p p' hp hfound hlen hlen' => ?_
      cases hgo : ends (some kind) with
      | true =>
        rw [run_many_stop (by rw [hfound, hgo]), run_many_stop (by rw [hp.found_eq, hfound, hgo])]
        exact .read rfl hp
      | false =>
        rw [run_many_succ (by rw [hfound, hgo]), run_many_succ (by rw [hp.found_eq, hfound, hgo])]
        have hstep := followsAt_attempt (h.at kind) p p' hp hfound (Nat.le_trans hlen hn) (Nat.le_trans hlen' hm)
        refine related_bind hstep fun s s' q q' hr hr' hs hq => ?_
        refine Follows.related (n := n) (m := m) ?_ hq ?_ ?_
        · refine follows_bind (ih m (by omega) (by omega)) fun more more' hmore => follows_pure ?_
          cases s <;> cases s' <;> simp_all [Same, Placed.moved]
        · cases hr
          have := attempt_shortens (hshort p) (by simp [hfound])
          omega
        · cases hr'
          have := attempt_shortens (hshort' p') (by simp [hp.found_eq, hfound])
          omega

theorem follows_block {rule rule' : Rule Statement} [rule.Orderly] [rule'.Orderly] [rule.Candid] [rule'.Candid]
    (hshort : ∀ p, rule.Shortens p) (hshort' : ∀ p, rule'.Shortens p) (h : Follows l r n m rule rule') :
    Follows l r (n + 1) (m + 1) (block (attempt rule) n) (block (attempt rule') m) := by
  intro p p' hp hlen hlen'
  simp only [block, hp.depth_eq, hp.found_eq]
  split
  · obtain ⟨ws, ws', hu, hu', hall⟩ := hp.facing
    refine .of_refused (hp.unexpected_same _) ⟨hp.stop_left, hp.stop_right, rfl, hp.errors⟩ ?_
    simp only [hu, hu']
    exact facing_behindGroup 0 hall
  · refine related_nested hp fun hp => ?_
    have hbraced : Follows l r (n + 1) (m + 1) (braced (attempt rule) n) (braced (attempt rule') m) := by
      refine follows_bind_succ (follows_expect _) (shortens_expect _) (shortens_expect _)
        fun place place' hplace => ?_
      refine follows_bind (follows_many rfl hshort hshort' h n m (Nat.le_refl _) (Nat.le_refl _))
        fun ss ss' hss => ?_
      refine follows_bind (follows_expect _) fun _ _ _ => follows_pure ?_
      simp only [Same, Placed.moved, Block.moved, Statement.movedAll_eq] at hplace hss ⊢
      rw [hplace, hss]
    exact hbraced _ _ hp hlen hlen'

section
variable {inner inner' : Rule Block} {again again' : Rule Statement} [inner.Orderly] [inner.Candid]
  [inner'.Orderly] [inner'.Candid] [again.Orderly] [again.Candid] [again'.Orderly] [again'.Candid]

theorem follows_otherwise (h : Follows l r n m inner inner') (hagain : Follows l r n m again again') :
    Follows l r n m (otherwise inner again) (otherwise inner' again') := by
  intro p p' hp hlen hlen'
  rw [otherwise, otherwise, run_peek_bind, run_peek_bind, hp.found_eq]
  split
  · refine Follows.related ?_ hp hlen hlen'
    refine follows_bind follows_advance fun place place' hplace q q' hq hlen hlen' => ?_
    rw [run_peek_bind, run_peek_bind, hq.found_eq]
    split
    · refine Follows.related ?_ hq hlen hlen'
      refine follows_bind hagain fun s s' hs => follows_pure ?_
      simp only [Same, Placed.moved, Option.map_some, Block.moved, Statement.movedAll_eq, List.map_cons, List.map_nil]
        at hplace hs ⊢
      rw [hplace, hs]
    · refine Follows.related ?_ hq hlen hlen'
      exact follows_bind h fun b b' hb => follows_pure (congrArg some hb)
  · exact .read rfl hp

theorem followsAt_conditional (h : Follows l r n m inner inner') (hagain : Follows l r n m again again') :
    FollowsAt l r kind (n + 1) (m + 1) (conditional n inner again) (conditional m inner' again') := by
  refine followsAt_advance_bind fun place place' hplace => follows_bind follows_condition fun test test' htest => ?_
  refine follows_bind h fun thenBlock thenBlock' hthen => ?_
  refine follows_bind (follows_otherwise h hagain) fun elseBlock elseBlock' helse => follows_pure ?_
  simp only [Same, Placed.moved, Statement.moved, Statement.movedElse_eq] at hplace htest hthen helse ⊢
  rw [hplace, htest, hthen, helse]

theorem followsAt_repetition (h : Follows l r n m inner inner') :
    FollowsAt l r kind (n + 1) (m + 1) (repetition n inner) (repetition m inner') := by
  refine followsAt_advance_bind fun place place' hplace => follows_bind follows_condition fun test test' htest => ?_
  refine follows_bind h fun body body' hbody => follows_pure ?_
  simp only [Same, Placed.moved, Statement.moved] at hplace htest hbody ⊢
  rw [hplace, htest, hbody]

end

theorem run_statement_end {p : Cursor} (hp : p.found = none) (bound : Nat) :
    (statement bound).run p = .refused (p.unexpected .statement) p := by
  cases bound with
  | zero => rfl
  | succ bound =>
    rw [statement, run_peek_bind, hp]
    rfl

theorem follows_statement : ∀ n m, Follows l r n m (statement n) (statement m) := by
  refine follows_bounded (fun n m p p' hp hnone => ?_) fun n m kind ih p p' hp hfound hlen hlen' => ?_
  · rw [run_statement_end hnone, run_statement_end (by rw [hp.found_eq, hnone])]
    exact .refused (hp.unexpected_same _) hp
  · have hblock : Follows l r (n + 1) (m + 1) (block (attempt (statement n)) n) (block (attempt (statement m)) m) :=
      follows_block (shortens_statement n) (shortens_statement m) ih
    have hinner := hblock.mono (Nat.le_succ n) (Nat.le_succ m)
    rw [statement, statement, run_peek_bind, run_peek_bind, hp.found_eq]
    split
    · exact followsAt_declaration _ p p' hp hfound hlen hlen'
    · exact followsAt_assignment _ p p' hp hfound hlen hlen'
    · exact followsAt_read p p' hp hfound hlen hlen'
    · exact followsAt_write p p' hp hfound hlen hlen'
    · exact followsAt_conditional hinner ih p p' hp hfound hlen hlen'
    · exact followsAt_repetition hinner p p' hp hfound hlen hlen'
    · refine Follows.related ?_ hp hlen hlen'
      exact follows_bind hblock fun b b' hb => follows_pure (congrArg Statement.block hb)
    · exact .refused (hp.unexpected_same _) hp

end Rule

/-- All the rest of two sources is read alike, with whatever bounds that suffice. -/
theorem related_statements {bound bound' n m : Nat} (h : Abreast l r p p') (hlen : p.unread.length ≤ n)
    (hlen' : p'.unread.length ≤ m) (hn : n ≤ bound) (hm : m ≤ bound') :
    Related l r ((gather (many endsProgram (attempt (statement bound)) n)).run p)
      ((gather (many endsProgram (attempt (statement bound')) m)).run p') :=
  Rule.follows_many rfl (Rule.shortens_statement bound) (Rule.shortens_statement bound')
    (Rule.follows_statement bound bound') n m hn hm p p' h hlen hlen'

end Portugol.Grammar
