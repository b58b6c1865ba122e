import Portugol.Proofs.Grammar.Expressions

/-! # The rules of statements

What is proved of the rules of the grammar, for statements and blocks. A statement that was given up has left an
error behind, so where none was added every statement of a block was read (`gives_attempt`). -/
namespace Portugol
namespace Grammar

/-! ## First words -/

theorem declaredType?_eq_some_iff {k : Keyword} {type : Option DataType} :
    declaredType? k = some type ↔ k = typeKeyword type := by
  constructor
  · intro h
    cases k <;> cases h <;> rfl
  · rintro rfl
    rcases type with _ | (_ | _ | _ | _) <;> rfl

namespace StatementStart

def kind? : StatementStart → Option TokenKind
  | .declaration type => some (.keyword (typeKeyword type))
  | .assignment x => some (.name x)
  | .read => some (.keyword .leia)
  | .write => some (.keyword .escreva)
  | .conditional => some (.keyword .se)
  | .repetition => some (.keyword .enquanto)
  | .block => some (.symbol .openBrace)
  | .other => none

theorem of_kind? (s : StatementStart) : of s.kind? = s := by
  cases s with
  | declaration type => rcases type with _ | (_ | _ | _ | _) <;> rfl
  | assignment | read | write | conditional | repetition | block | other => rfl

theorem kind?_of (found : Option TokenKind) : of found = .other ∨ (of found).kind? = found := by
  unfold of
  split
  case h_7 k _ _ _ _ =>
    cases hk : declaredType? k with
    | none => exact .inl rfl
    | some type => exact .inr (by simp [kind?, declaredType?_eq_some_iff.1 hk])
  case h_8 => exact .inl rfl
  all_goals exact .inr rfl

/-- Where a statement begins there is a token that it begins with. -/
theorem exists_token {p : Cursor} {s : StatementStart} (h : of p.found = s) (hs : s ≠ .other) :
    ∃ t rest, p.unread = t :: rest ∧ s.kind? = some t.kind := by
  subst h
  apply Cursor.exists_token ((kind?_of p.found).resolve_left hs)
  intro hnone
  rw [hnone] at hs
  exact hs rfl

/-- What a statement begins with is none of what no statement begins with. -/
theorem found_ne {found found' : Option TokenKind} {s : StatementStart} (h : of found = s) (hs : s ≠ .other)
    (h' : of found' = .other) : found ≠ found' := by
  rintro rfl
  exact hs (h.symm.trans h')

end StatementStart

end Grammar

/-! ## What the grammar says of a statement -/

namespace Statement.Flattens

variable {s : Statement} {n : Nat} {ts : List Token}

/-- A statement has a first token, and it is one that statements begin with. -/
theorem exists_first (h : s.Flattens n ts) :
    ∃ t us, ts = t :: us ∧ Grammar.StatementStart.of (some t.kind) ≠ .other := by
  cases h with
  | @declaration _ type _ _ word _ _ _ hword =>
    refine ⟨word, _, rfl, ?_⟩
    rw [hword]
    have : Grammar.StatementStart.of (some (.keyword (typeKeyword type))) = .declaration type :=
      Grammar.StatementStart.of_kind? (.declaration type)
    rw [this]
    exact nofun
  | @assignment _ _ _ name _ _ hname => exact ⟨name, _, rfl, by rw [hname]; exact nofun⟩
  | @read _ word _ _ _ _ hword => exact ⟨word, _, rfl, by rw [hword]; exact nofun⟩
  | @write _ _ _ word _ _ _ _ _ hword => exact ⟨word, _, rfl, by rw [hword]; exact nofun⟩
  | @conditional _ _ _ _ _ word _ _ _ _ _ hword => exact ⟨word, _, rfl, by rw [hword]; exact nofun⟩
  | @repetition _ _ _ word _ _ _ _ hword => exact ⟨word, _, rfl, by rw [hword]; exact nofun⟩
  | block hb =>
    cases hb with
    | @mk _ _ l _ _ hl => exact ⟨l, _, rfl, by rw [hl]; exact nofun⟩

theorem isConditional {t : Token} (h : s.Flattens n (t :: ts)) (ht : t.kind = .keyword .se) :
    s.IsConditional := by
  cases h with
  | @declaration _ type _ _ _ _ _ _ hword =>
    rw [ht] at hword
    rcases type with _ | (_ | _ | _ | _) <;> cases hword
  | assignment hname => cases ht.symm.trans hname
  | read hword => cases ht.symm.trans hword
  | write hword => cases ht.symm.trans hword
  | conditional => trivial
  | repetition hword => cases ht.symm.trans hword
  | block hb =>
    cases hb with
    | mk hl => cases ht.symm.trans hl

end Statement.Flattens

namespace Grammar

/-! ## Orderly rules -/

theorem fromBoundary_suffix (depth : Nat) (tokens : List Token) : fromBoundary depth tokens <:+ tokens := by
  induction tokens with
  | nil => exact List.suffix_refl _
  | cons t rest ih =>
    have hrest : rest <:+ t :: rest := List.suffix_cons t rest
    rw [fromBoundary]
    split
    · split
      · exact hrest
      · exact List.suffix_refl _
    split
    · exact List.suffix_refl _
    split
    · exact hrest
    split
    · exact List.suffix_refl _
    · exact ih.trans hrest

theorem behindGroup_suffix (opened : Nat) (tokens : List Token) : behindGroup opened tokens <:+ tokens := by
  induction tokens generalizing opened with
  | nil => exact List.suffix_refl _
  | cons t rest ih =>
    have hrest : rest <:+ t :: rest := List.suffix_cons t rest
    rw [behindGroup]
    split
    · exact (ih _).trans hrest
    split
    · split
      · exact hrest
      · exact (ih _).trans hrest
    · exact (ih _).trans hrest

namespace Rule

variable {α : Type}

instance (rule : Rule Statement) [h : rule.Orderly] : (gather (attempt rule)).Orderly where
  leads p := by
    have hp := h.leads p
    simp only [gather, Reply.after, attempt]
    cases hr : rule.run p with
    | read s q =>
      rw [hr] at hp
      exact hp
    | refused e q =>
      rw [hr] at hp
      refine ⟨hp.stop_eq, ?_, ?_⟩
      · have hrest := (fromBoundary_suffix q.depth q.unread).trans hp.unread_suffix
        simp only
        split
        · exact (List.tail_suffix _).trans hrest
        · exact hrest
      · simp only [Array.toList_push]
        exact hp.errors_kept.trans (List.prefix_append _ _)

theorem leads_step (step : Cursor → α × Cursor) [h : (gather step).Orderly] (p : Cursor) : p.Leads (step p).2 :=
  h.leads p

instance (ends : Option TokenKind → Bool) (step : Cursor → Option Statement × Cursor) [(gather step).Orderly]
    (bound : Nat) : (gather (many ends step bound)).Orderly where
  leads p := by
    simp only [gather, Reply.after]
    induction bound generalizing p with
    | zero => exact Cursor.Leads.refl p
    | succ bound ih =>
      rw [many]
      split
      · exact Cursor.Leads.refl p
      · exact (leads_step step p).trans (ih _)

variable (step : Cursor → Option Statement × Cursor) [(gather step).Orderly]

instance (bound : Nat) : (braced step bound).Orderly := by
  unfold braced
  infer_instance

instance (bound : Nat) : (block step bound).Orderly where
  leads p := by
    simp only [block]
    split
    · exact ⟨rfl, behindGroup_suffix 0 p.unread, List.prefix_refl _⟩
    · exact Orderly.leads p

instance (bound : Nat) : (initializer bound).Orderly := by
  unfold initializer
  infer_instance

instance (bound : Nat) (type : Option DataType) : (declaration bound type).Orderly := by
  unfold declaration
  infer_instance

instance (bound : Nat) (x : String) : (assignment bound x).Orderly := by
  unfold assignment
  infer_instance

instance : Orderly read := by
  unfold read
  infer_instance

theorem orderly_moreExpressions (bound : Nat) : (moreExpressions bound).Orderly := by
  induction bound with
  | zero =>
    unfold moreExpressions
    infer_instance
  | succ bound ih =>
    unfold moreExpressions
    infer_instance

instance (bound : Nat) : (moreExpressions bound).Orderly := orderly_moreExpressions bound

instance (bound : Nat) : (write bound).Orderly := by
  unfold write
  infer_instance

instance (bound : Nat) : (condition bound).Orderly := by
  unfold condition
  infer_instance

instance (inner : Rule Block) (again : Rule Statement) [inner.Orderly] [again.Orderly] :
    (otherwise inner again).Orderly := by
  unfold otherwise
  infer_instance

instance (bound : Nat) (inner : Rule Block) (again : Rule Statement) [inner.Orderly] [again.Orderly] :
    (conditional bound inner again).Orderly := by
  unfold conditional
  infer_instance

instance (bound : Nat) (inner : Rule Block) [inner.Orderly] : (repetition bound inner).Orderly := by
  unfold repetition
  infer_instance

theorem orderly_statement (bound : Nat) : (statement bound).Orderly := by
  induction bound with
  | zero =>
    rw [statement]
    infer_instance
  | succ bound ih =>
    constructor
    intro p
    rw [statement, run_peek_bind]
    split <;> exact Orderly.leads p

instance (bound : Nat) : (statement bound).Orderly := orderly_statement bound

/-! ## What the rules read -/

theorem exists_sign {p : Cursor} (h : isAssignment p.found) : ∃ sign rest, p.unread = sign :: rest ∧
    (sign.kind = .symbol .arrow ∨ sign.kind = .symbol .becomes) := by
  simp only [isAssignment, Bool.or_eq_true, decide_eq_true_eq] at h
  rcases h with hf | hf
  · obtain ⟨t, rest, hp, ht⟩ := Cursor.found_eq_some_iff.1 hf
    exact ⟨t, rest, hp, .inl ht⟩
  · obtain ⟨t, rest, hp, ht⟩ := Cursor.found_eq_some_iff.1 hf
    exact ⟨t, rest, hp, .inr ht⟩

theorem initializer_reads (bound : Nat) : (initializer bound).Reads Statement.FlattensInit := by
  intro p init q h
  rw [initializer, gives_peek_bind] at h
  split at h
  · next hsign =>
    obtain ⟨sign, rest, hp, hkind⟩ := exists_sign hsign
    obtain ⟨place, q₁, h₁, h⟩ := gives_bind h
    obtain ⟨e, q₂, h₂, h⟩ := gives_bind h
    obtain ⟨rfl, rfl⟩ := gives_pure h
    obtain ⟨-, hfirst⟩ := gives_advance h₁ hp
    obtain ⟨n, ts, hvalue, he, rfl⟩ := expression_reads bound _ _ _ h₂
    exact ⟨e.cost, sign :: ts, by simpa using hfirst.trans hvalue, .some hkind he⟩
  · obtain ⟨rfl, rfl⟩ := gives_pure h
    exact ⟨0, [], Cursor.Passes.refl _, .none⟩

theorem declaration_reads {bound : Nat} {type : Option DataType} {p q : Cursor} {s : Statement} {word : Token}
    {rest : List Token} (hp : p.unread = word :: rest) (hword : word.kind = .keyword (typeKeyword type))
    (h : (declaration bound type).Gives p s q) : ∃ n ts, p.Passes n ts q ∧ s.Flattens n ts := by
  obtain ⟨place, q₁, h₁, h⟩ := gives_bind h
  obtain ⟨x, q₂, h₂, h⟩ := gives_bind h
  obtain ⟨init, q₃, h₃, h⟩ := gives_bind h
  obtain ⟨place', q₄, h₄, h⟩ := gives_bind h
  obtain ⟨rfl, rfl⟩ := gives_pure h
  obtain ⟨rfl, hfirst⟩ := gives_advance h₁ hp
  obtain ⟨name, hname, hsecond⟩ := gives_name h₂
  obtain ⟨n, ts, hvalue, hinit⟩ := initializer_reads bound _ _ _ h₃
  obtain ⟨semicolon, hend, -, hlast⟩ := gives_expect h₄
  refine ⟨n, word :: name :: (ts ++ [semicolon]), ?_, .declaration hword hname hinit hend⟩
  simpa using hfirst.trans (hsecond.trans (hvalue.trans hlast))

theorem assignment_reads {bound : Nat} {x : String} {p q : Cursor} {s : Statement} {name : Token}
    {rest : List Token} (hp : p.unread = name :: rest) (hname : name.kind = .name x)
    (h : (assignment bound x).Gives p s q) : ∃ n ts, p.Passes n ts q ∧ s.Flattens n ts := by
  obtain ⟨place, q₁, h₁, h⟩ := gives_bind h
  rw [gives_peek_bind] at h
  split at h
  · next hsign =>
    obtain ⟨sign, rest', hp', hkind⟩ := exists_sign hsign
    obtain ⟨place', q₂, h₂, h⟩ := gives_bind h
    obtain ⟨e, q₃, h₃, h⟩ := gives_bind h
    obtain ⟨place'', q₄, h₄, h⟩ := gives_bind h
    obtain ⟨rfl, rfl⟩ := gives_pure h
    obtain ⟨rfl, hfirst⟩ := gives_advance h₁ hp
    obtain ⟨-, hsecond⟩ := gives_advance h₂ hp'
    obtain ⟨n, ts, hvalue, he, rfl⟩ := expression_reads bound _ _ _ h₃
    obtain ⟨semicolon, hend, -, hlast⟩ := gives_expect h₄
    refine ⟨e.cost, name :: (sign :: ts ++ [semicolon]), ?_, .assignment hname (.some hkind he) hend⟩
    simpa using hfirst.trans (hsecond.trans (hvalue.trans hlast))
  · exact (not_gives_refuse h).elim

theorem read_reads {p q : Cursor} {s : Statement} {word : Token} {rest : List Token}
    (hp : p.unread = word :: rest) (hword : word.kind = .keyword .leia) (h : read.Gives p s q) :
    ∃ n ts, p.Passes n ts q ∧ s.Flattens n ts := by
  obtain ⟨place, q₁, h₁, h⟩ := gives_bind h
  obtain ⟨place₂, q₂, h₂, h⟩ := gives_bind h
  obtain ⟨x, q₃, h₃, h⟩ := gives_bind h
  obtain ⟨place₄, q₄, h₄, h⟩ := gives_bind h
  obtain ⟨place₅, q₅, h₅, h⟩ := gives_bind h
  obtain ⟨rfl, rfl⟩ := gives_pure h
  obtain ⟨rfl, hfirst⟩ := gives_advance h₁ hp
  obtain ⟨l, hl, -, hopen⟩ := gives_expect h₂
  obtain ⟨name, hname, hsecond⟩ := gives_name h₃
  obtain ⟨r, hr, -, hclose⟩ := gives_expect h₄
  obtain ⟨semicolon, hend, -, hlast⟩ := gives_expect h₅
  refine ⟨0, [word, l, name, r, semicolon], ?_, .read hword hl hname hr hend⟩
  simpa using hfirst.trans (hopen.trans (hsecond.trans (hclose.trans hlast)))

theorem moreExpressions_reads (bound : Nat) : (moreExpressions bound).Reads Statement.FlattensMore := by
  induction bound with
  | zero =>
    intro p es q h
    obtain ⟨rfl, rfl⟩ := gives_pure h
    exact ⟨0, [], Cursor.Passes.refl _, .nil⟩
  | succ bound ih =>
    intro p es q h
    rw [moreExpressions, gives_peek_bind] at h
    split at h
    · next hcomma =>
      obtain ⟨comma, rest, hp, hkind⟩ := Cursor.found_eq_some_iff.1 hcomma
      obtain ⟨place, q₁, h₁, h⟩ := gives_bind h
      obtain ⟨e, q₂, h₂, h⟩ := gives_bind h
      obtain ⟨more, q₃, h₃, h⟩ := gives_bind h
      obtain ⟨rfl, rfl⟩ := gives_pure h
      obtain ⟨-, hfirst⟩ := gives_advance h₁ hp
      obtain ⟨m, ts, hvalue, he, rfl⟩ := expression_reads bound _ _ _ h₂
      obtain ⟨n, us, hmore, hes⟩ := ih _ _ _ h₃
      refine ⟨max e.cost n, comma :: (ts ++ us), ?_, .cons hkind he hes⟩
      simpa using hfirst.trans (hvalue.trans hmore)
    · obtain ⟨rfl, rfl⟩ := gives_pure h
      exact ⟨0, [], Cursor.Passes.refl _, .nil⟩

theorem write_reads {bound : Nat} {p q : Cursor} {s : Statement} {word : Token} {rest : List Token}
    (hp : p.unread = word :: rest) (hword : word.kind = .keyword .escreva) (h : (write bound).Gives p s q) :
    ∃ n ts, p.Passes n ts q ∧ s.Flattens n ts := by
  obtain ⟨place, q₁, h₁, h⟩ := gives_bind h
  obtain ⟨place₂, q₂, h₂, h⟩ := gives_bind h
  obtain ⟨e, q₃, h₃, h⟩ := gives_bind h
  obtain ⟨more, q₄, h₄, h⟩ := gives_bind h
  obtain ⟨place₅, q₅, h₅, h⟩ := gives_bind h
  obtain ⟨place₆, q₆, h₆, h⟩ := gives_bind h
  obtain ⟨rfl, rfl⟩ := gives_pure h
  obtain ⟨rfl, hfirst⟩ := gives_advance h₁ hp
  obtain ⟨l, hl, -, hopen⟩ := gives_expect h₂
  obtain ⟨m, ts, hvalue, he, rfl⟩ := expression_reads bound _ _ _ h₃
  obtain ⟨n, us, hmore, hes⟩ := moreExpressions_reads bound _ _ _ h₄
  obtain ⟨r, hr, -, hclose⟩ := gives_expect h₅
  obtain ⟨semicolon, hend, -, hlast⟩ := gives_expect h₆
  refine ⟨max e.cost n, word :: l :: (ts ++ (us ++ [r, semicolon])), ?_, .write hword hl he hes hr hend⟩
  simpa using hfirst.trans (hopen.trans (hvalue.trans (hmore.trans (hclose.trans hlast))))

theorem condition_reads (bound : Nat) : (condition bound).Reads fun e n ts =>
    ∃ l us r, ts = l :: (us ++ [r]) ∧ n = e.cost ∧ l.kind = .symbol .openParen ∧ e.Flattens 0 us ∧
      r.kind = .symbol .closeParen := by
  intro p e q h
  obtain ⟨place, q₁, h₁, h⟩ := gives_bind h
  obtain ⟨e, q₂, h₂, h⟩ := gives_bind h
  obtain ⟨place₃, q₃, h₃, h⟩ := gives_bind h
  obtain ⟨rfl, rfl⟩ := gives_pure h
  obtain ⟨l, hl, -, hopen⟩ := gives_expect h₁
  obtain ⟨n, us, hvalue, he, rfl⟩ := expression_reads bound _ _ _ h₂
  obtain ⟨r, hr, -, hclose⟩ := gives_expect h₃
  refine ⟨e.cost, l :: (us ++ [r]), ?_, l, us, r, rfl, rfl, hl, he, hr⟩
  simpa using hopen.trans (hvalue.trans hclose)

/-- Where a step adds no error it was a statement that was read. -/
theorem gives_attempt {rule : Rule Statement} [rule.Orderly] {p : Cursor}
    (h : (attempt rule p).2.errors = p.errors) :
    ∃ s, (attempt rule p).1 = some s ∧ rule.Gives p s (attempt rule p).2 := by
  have hp := leads_run rule p
  unfold attempt at h ⊢
  cases hr : rule.run p with
  | read s q =>
    rw [hr] at h
    exact ⟨s, rfl, hr, h⟩
  | refused e q =>
    rw [hr] at h hp
    have hle := hp.errors_kept.length_le
    have hsize := congrArg Array.size h
    simp only [Array.size_push, Reply.after, Array.length_toList] at hsize hle
    omega

theorem many_reads {rule : Rule Statement} [rule.Orderly] (hrule : rule.Reads Statement.Flattens)
    (ends : Option TokenKind → Bool) (bound : Nat) :
    (gather (many ends (attempt rule) bound)).Reads Statement.FlattensAll := by
  induction bound with
  | zero =>
    intro p ss q h
    obtain ⟨rfl, rfl⟩ := gives_pure h
    exact ⟨0, [], Cursor.Passes.refl _, .nil⟩
  | succ bound ih =>
    intro p ss q h
    have hrun := h.run_eq
    simp only [gather, many] at hrun
    split at hrun
    · cases hrun
      exact ⟨0, [], Cursor.Passes.refl _, .nil⟩
    · simp only [Reply.read.injEq] at hrun
      obtain ⟨rfl, rfl⟩ := hrun
      have hfirst : (attempt rule p).2.errors = p.errors :=
        (leads_step (attempt rule) p).errors_eq (leads_step (many ends (attempt rule) bound) _) h.errors_eq
      obtain ⟨s, hs, hgives⟩ := gives_attempt hfirst
      obtain ⟨m, ts, hpass, hflat⟩ := hrule _ _ _ hgives
      obtain ⟨n, us, hmore, hall⟩ := ih _ _ _ ⟨rfl, h.errors_eq.trans hfirst.symm⟩
      rw [hs]
      exact ⟨max m n, ts ++ us, hpass.trans hmore, .cons hflat hall⟩

theorem block_reads {rule : Rule Statement} [rule.Orderly] (hrule : rule.Reads Statement.Flattens) (bound : Nat) :
    (block (attempt rule) bound).Reads Block.Flattens := by
  intro p b q h
  have hrun := h.run_eq
  simp only [block] at hrun
  split at hrun
  · cases hrun
  · obtain ⟨r, h, hnested⟩ := gives_nested ⟨hrun, h.errors_eq⟩
    obtain ⟨place, q₁, h₁, h⟩ := gives_bind h
    obtain ⟨ss, q₂, h₂, h⟩ := gives_bind h
    obtain ⟨place₃, q₃, h₃, h⟩ := gives_bind h
    obtain ⟨rfl, rfl⟩ := gives_pure h
    obtain ⟨l, hl, rfl, hopen⟩ := gives_expect h₁
    obtain ⟨n, ts, hstatements, hall⟩ := many_reads hrule endsBlock bound _ _ _ h₂
    obtain ⟨close, hr, -, hclose⟩ := gives_expect h₃
    refine ⟨n + 1, l :: (ts ++ [close]), ?_, .mk hl hall hr⟩
    simpa using hnested _ _ (hopen.trans (hstatements.trans hclose))

theorem otherwise_reads {inner : Rule Block} {again : Rule Statement} [inner.Orderly] [again.Orderly]
    (hinner : inner.Reads Block.Flattens) (hagain : again.Reads Statement.Flattens) :
    (otherwise inner again).Reads Statement.FlattensElse := by
  intro p other q h
  rw [otherwise, gives_peek_bind] at h
  split at h
  · next hsenao =>
    obtain ⟨word, rest, hp, hword⟩ := Cursor.found_eq_some_iff.1 hsenao
    obtain ⟨place, q₁, h₁, h⟩ := gives_bind h
    obtain ⟨rfl, hfirst⟩ := gives_advance h₁ hp
    rw [gives_peek_bind] at h
    split at h
    · next hse =>
      obtain ⟨s, q₂, h₂, h⟩ := gives_bind h
      obtain ⟨rfl, rfl⟩ := gives_pure h
      obtain ⟨n, ts, hpass, hs⟩ := hagain _ _ _ h₂
      obtain ⟨t, us, rfl, -⟩ := hs.exists_first
      have ht : t.kind = .keyword .se := by
        simpa [Cursor.found, hpass.unread_eq] using hse
      exact ⟨n, word :: t :: us, by simpa using hfirst.trans hpass,
        .conditional hword hs (hs.isConditional ht)⟩
    · obtain ⟨b, q₂, h₂, h⟩ := gives_bind h
      obtain ⟨rfl, rfl⟩ := gives_pure h
      obtain ⟨n, ts, hpass, hb⟩ := hinner _ _ _ h₂
      exact ⟨n, word :: ts, by simpa using hfirst.trans hpass, .block hword hb⟩
  · obtain ⟨rfl, rfl⟩ := gives_pure h
    exact ⟨0, [], Cursor.Passes.refl _, .none⟩

theorem conditional_reads {bound : Nat} {inner : Rule Block} {again : Rule Statement} [inner.Orderly]
    [again.Orderly] (hinner : inner.Reads Block.Flattens) (hagain : again.Reads Statement.Flattens)
    {p q : Cursor} {s : Statement} {word : Token} {rest : List Token} (hp : p.unread = word :: rest)
    (hword : word.kind = .keyword .se) (h : (conditional bound inner again).Gives p s q) :
    ∃ n ts, p.Passes n ts q ∧ s.Flattens n ts := by
  obtain ⟨place, q₁, h₁, h⟩ := gives_bind h
  obtain ⟨test, q₂, h₂, h⟩ := gives_bind h
  obtain ⟨thenBlock, q₃, h₃, h⟩ := gives_bind h
  obtain ⟨elseBlock, q₄, h₄, h⟩ := gives_bind h
  obtain ⟨rfl, rfl⟩ := gives_pure h
  obtain ⟨rfl, hfirst⟩ := gives_advance h₁ hp
  obtain ⟨_, _, htest, l, ts, r, rfl, rfl, hl, he, hr⟩ := condition_reads bound _ _ _ h₂
  obtain ⟨m, us, hthen, hb⟩ := hinner _ _ _ h₃
  obtain ⟨n, vs, helse, hother⟩ := otherwise_reads hinner hagain _ _ _ h₄
  refine ⟨max test.cost (max m n), word :: l :: (ts ++ r :: (us ++ vs)), ?_,
    .conditional hword hl he hr hb hother⟩
  simpa using hfirst.trans (htest.trans (hthen.trans helse))

theorem repetition_reads {bound : Nat} {inner : Rule Block} [inner.Orderly] (hinner : inner.Reads Block.Flattens)
    {p q : Cursor} {s : Statement} {word : Token} {rest : List Token} (hp : p.unread = word :: rest)
    (hword : word.kind = .keyword .enquanto) (h : (repetition bound inner).Gives p s q) :
    ∃ n ts, p.Passes n ts q ∧ s.Flattens n ts := by
  obtain ⟨place, q₁, h₁, h⟩ := gives_bind h
  obtain ⟨test, q₂, h₂, h⟩ := gives_bind h
  obtain ⟨body, q₃, h₃, h⟩ := gives_bind h
  obtain ⟨rfl, rfl⟩ := gives_pure h
  obtain ⟨rfl, hfirst⟩ := gives_advance h₁ hp
  obtain ⟨_, _, htest, l, ts, r, rfl, rfl, hl, he, hr⟩ := condition_reads bound _ _ _ h₂
  obtain ⟨n, us, hbody, hb⟩ := hinner _ _ _ h₃
  refine ⟨max test.cost n, word :: l :: (ts ++ r :: us), ?_, .repetition hword hl he hr hb⟩
  simpa using hfirst.trans (htest.trans hbody)

theorem statement_reads (bound : Nat) : (statement bound).Reads Statement.Flattens := by
  induction bound with
  | zero => exact fun p s q h => (not_gives_refuse h).elim
  | succ bound ih =>
    intro p s q h
    rw [statement, gives_peek_bind] at h
    have hinner := block_reads ih bound
    cases hf : StatementStart.of p.found with
    | other =>
      rw [hf] at h
      exact (not_gives_refuse h).elim
    | declaration type =>
      rw [hf] at h
      obtain ⟨t, rest, hp, ht⟩ := StatementStart.exists_token hf nofun
      exact declaration_reads hp (Option.some.inj ht).symm h
    | assignment x =>
      rw [hf] at h
      obtain ⟨t, rest, hp, ht⟩ := StatementStart.exists_token hf nofun
      exact assignment_reads hp (Option.some.inj ht).symm h
    | read =>
      rw [hf] at h
      obtain ⟨t, rest, hp, ht⟩ := StatementStart.exists_token hf nofun
      exact read_reads hp (Option.some.inj ht).symm h
    | write =>
      rw [hf] at h
      obtain ⟨t, rest, hp, ht⟩ := StatementStart.exists_token hf nofun
      exact write_reads hp (Option.some.inj ht).symm h
    | conditional =>
      rw [hf] at h
      obtain ⟨t, rest, hp, ht⟩ := StatementStart.exists_token hf nofun
      exact conditional_reads hinner ih hp (Option.some.inj ht).symm h
    | repetition =>
      rw [hf] at h
      obtain ⟨t, rest, hp, ht⟩ := StatementStart.exists_token hf nofun
      exact repetition_reads hinner hp (Option.some.inj ht).symm h
    | block =>
      rw [hf] at h
      obtain ⟨b, q₁, h₁, h⟩ := gives_bind h
      obtain ⟨rfl, rfl⟩ := gives_pure h
      obtain ⟨n, ts, hpass, hb⟩ := hinner _ _ _ h₁
      exact ⟨n, ts, hpass, .block hb⟩

/-! ## What the rules answer -/

theorem initializer_answers {init : Option Expr} {n bound : Nat} {ts rest : List Token} {semicolon : Token}
    (h : Statement.FlattensInit init n ts) (hlen : ts.length ≤ bound)
    (hend : semicolon.kind = .symbol .semicolon) :
    (initializer bound).Answers init n ts (semicolon :: rest) := by
  apply answers_peek_bind
  cases h with
  | none =>
    simp only [List.nil_append, List.head?_cons, Option.map_some, hend]
    exact answers_pure none _
  | @some e sign us hsign he =>
    have hassign : isAssignment (some sign.kind) = true := by
      rcases hsign with hs | hs <;> simp [isAssignment, hs]
    simp only [List.cons_append, List.head?_cons, Option.map_some, hassign]
    simp only [List.length_cons] at hlen
    apply answers_token_bind (answers_advance sign _)
    exact answers_bind_pure
      (expression_answers bound e us _ he (by omega) (stops_symbol hend rfl 0 rest)) fun e => some e

theorem moreExpressions_answers {es : List Expr} {n bound : Nat} {ts rest : List Token} {r : Token}
    (h : Statement.FlattensMore es n ts) (hlen : ts.length ≤ bound) (hr : r.kind = .symbol .closeParen) :
    (moreExpressions bound).Answers es n ts (r :: rest) := by
  induction h generalizing bound with
  | nil =>
    cases bound with
    | zero => exact answers_pure [] _
    | succ bound =>
      rw [moreExpressions]
      apply answers_peek_bind
      simp only [List.nil_append, List.head?_cons, Option.map_some, hr]
      exact answers_pure [] _
  | @cons e es n comma ts us hcomma he hes ih =>
    simp only [List.length_cons, List.length_append] at hlen
    cases bound with
    | zero => omega
    | succ bound =>
      rw [moreExpressions]
      apply answers_peek_bind
      simp only [List.cons_append, List.head?_cons, Option.map_some, hcomma]
      apply answers_token_bind (answers_advance comma _)
      have hstops : Stops 0 (us ++ r :: rest) := by
        cases hes with
        | nil => exact stops_symbol hr rfl 0 rest
        | cons hcomma' => exact stops_symbol hcomma' rfl 0 _
      exact answers_bind (expression_answers bound e ts _ he (by omega) hstops)
        (answers_bind_pure (ih (by omega)) fun es => e :: es)

theorem condition_answers {e : Expr} {bound : Nat} {l r : Token} {ts rest : List Token}
    (hl : l.kind = .symbol .openParen) (he : e.Flattens 0 ts) (hr : r.kind = .symbol .closeParen)
    (hlen : ts.length ≤ bound) : (condition bound).Answers e e.cost (l :: (ts ++ [r])) rest := by
  apply answers_token_bind (answers_expect hl _)
  apply answers_bind_plain (expression_answers bound e ts _ he hlen (stops_symbol hr rfl 0 rest))
  exact answers_token_bind (answers_expect hr rest) (answers_pure e rest)

theorem declaration_answers {x : String} {type : Option DataType} {init : Option Expr} {n bound : Nat}
    {word name semicolon : Token} {ts rest : List Token} (hname : name.kind = .name x)
    (hinit : Statement.FlattensInit init n ts) (hend : semicolon.kind = .symbol .semicolon)
    (hlen : ts.length ≤ bound) :
    (declaration bound type).Answers (.declaration x type init word.position) n
      (word :: name :: (ts ++ [semicolon])) rest := by
  apply answers_token_bind (answers_advance word _)
  apply answers_token_bind (answers_name hname _)
  apply answers_bind_plain (initializer_answers hinit hlen hend)
  exact answers_token_bind (answers_expect hend rest) (answers_pure _ rest)

theorem assignment_answers {x : String} {value : Expr} {n bound : Nat} {name semicolon : Token}
    {ts rest : List Token} (hvalue : Statement.FlattensInit (some value) n ts)
    (hend : semicolon.kind = .symbol .semicolon) (hlen : ts.length ≤ bound) :
    (assignment bound x).Answers (.assignment x value name.position) n (name :: (ts ++ [semicolon])) rest := by
  apply answers_token_bind (answers_advance name _)
  apply answers_peek_bind
  cases hvalue with
  | @some _ sign us hsign he =>
    have hassign : isAssignment (some sign.kind) = true := by
      rcases hsign with hs | hs <;> simp [isAssignment, hs]
    simp only [List.cons_append, List.head?_cons, Option.map_some, hassign]
    simp only [List.length_cons] at hlen
    apply answers_token_bind (answers_advance sign _)
    refine answers_bind_plain
      (expression_answers bound value us _ he (by omega) (stops_symbol hend rfl 0 rest)) ?_
    exact answers_token_bind (answers_expect hend rest) (answers_pure _ rest)

theorem read_answers {x : String} {word l name r semicolon : Token} {rest : List Token}
    (hl : l.kind = .symbol .openParen) (hname : name.kind = .name x) (hr : r.kind = .symbol .closeParen)
    (hend : semicolon.kind = .symbol .semicolon) :
    read.Answers (.read x word.position) 0 [word, l, name, r, semicolon] rest := by
  apply answers_token_bind (answers_advance word _)
  apply answers_token_bind (answers_expect hl _)
  apply answers_token_bind (answers_name hname _)
  apply answers_token_bind (answers_expect hr _)
  exact answers_token_bind (answers_expect hend rest) (answers_pure _ rest)

theorem write_answers {e : Expr} {es : List Expr} {n bound : Nat} {word l r semicolon : Token}
    {ts us rest : List Token} (hl : l.kind = .symbol .openParen) (he : e.Flattens 0 ts)
    (hes : Statement.FlattensMore es n us) (hr : r.kind = .symbol .closeParen)
    (hend : semicolon.kind = .symbol .semicolon) (hlen : ts.length + us.length ≤ bound) :
    (write bound).Answers (.write (e :: es) word.position) (max e.cost n)
      (word :: l :: (ts ++ (us ++ [r, semicolon]))) rest := by
  apply answers_token_bind (answers_advance word _)
  apply answers_token_bind (answers_expect hl _)
  have hstops : Stops 0 (us ++ [r, semicolon] ++ rest) := by
    cases hes with
    | nil => exact stops_symbol hr rfl 0 _
    | cons hcomma => exact stops_symbol hcomma rfl 0 _
  apply answers_bind (expression_answers bound e ts _ he (by omega) hstops)
  apply answers_bind_plain (moreExpressions_answers hes (by omega) hr)
  apply answers_token_bind (answers_expect hr _)
  exact answers_token_bind (answers_expect hend rest) (answers_pure _ rest)

/-- A step that reads a statement keeps it; one that is told that the nesting is too deep keeps that error. -/
theorem attempt_answers {rule : Rule Statement} {s : Statement} {n : Nat} {ts rest : List Token}
    (h : rule.Answers s n ts rest) : (gather (attempt rule)).Answers (some s) n ts rest := by
  intro p hp hd
  obtain ⟨hfit, hdeep⟩ := h p hp hd
  refine ⟨fun hn => ?_, fun hn => (hdeep hn).mono ?_⟩
  · simp only [gather, attempt, hfit hn]
  · simp only [gather, attempt]
    cases rule.run p with
    | read s q => exact List.prefix_refl _
    | refused e q => simp [Reply.reported]

theorem run_many_stop {ends : Option TokenKind → Bool} {step : Cursor → Option Statement × Cursor} {bound : Nat}
    {p : Cursor} (h : ends p.found = true) : (gather (many ends step bound)).run p = .read [] p := by
  cases bound with
  | zero => rfl
  | succ bound => simp [gather, many, h]

theorem run_many_succ {ends : Option TokenKind → Bool} {step : Cursor → Option Statement × Cursor} {bound : Nat}
    {p : Cursor} (h : ends p.found = false) :
    (gather (many ends step (bound + 1))).run p =
      (gather step >>= fun first => gather (many ends step bound) >>= fun more =>
        pure (first.toList ++ more)).run p := by
  simp [gather, many, run_bind, h]

theorem many_answers_nil {ends : Option TokenKind → Bool} (step : Cursor → Option Statement × Cursor)
    (bound : Nat) {rest : List Token} (h : ends (rest.head?.map Token.kind) = true) :
    (gather (many ends step bound)).Answers [] 0 [] rest := by
  intro p hp hd
  obtain rfl : p.unread = rest := hp
  exact ⟨fun _ => run_many_stop h, fun hn => absurd hn (by omega)⟩

theorem many_answers_cons {ends : Option TokenKind → Bool} {step : Cursor → Option Statement × Cursor}
    [(gather step).Orderly] {bound m n : Nat} {s : Statement} {ss : List Statement} {ts us rest : List Token}
    (hends : ends ((ts ++ us ++ rest).head?.map Token.kind) = false)
    (hs : (gather step).Answers (some s) m ts (us ++ rest))
    (hss : (gather (many ends step bound)).Answers ss n us rest) :
    (gather (many ends step (bound + 1))).Answers (s :: ss) (max m n) (ts ++ us) rest := by
  intro p hp hd
  have hfound : ends p.found = false := by rw [Cursor.found, hp, hends]
  rw [run_many_succ hfound]
  have hboth : (gather step >>= fun first => gather (many ends step bound) >>= fun more =>
      pure (first.toList ++ more)).Answers (s :: ss) (max m n) (ts ++ us) rest :=
    answers_bind hs (answers_bind_pure hss fun more => s :: more)
  exact hboth p hp hd

theorem block_answers {step : Cursor → Option Statement × Cursor} [(gather step).Orderly] {bound n : Nat}
    {ss : List Statement} {l r : Token} {ts rest : List Token} (hl : l.kind = .symbol .openBrace)
    (hss : (gather (many endsBlock step bound)).Answers ss n ts (r :: rest))
    (hr : r.kind = .symbol .closeBrace) :
    (block step bound).Answers ⟨ss, l.position⟩ (n + 1) (l :: (ts ++ [r])) rest := by
  have hbraced : (braced step bound).Answers ⟨ss, l.position⟩ n (l :: (ts ++ [r])) rest := by
    apply answers_token_bind (answers_expect hl _)
    apply answers_bind_plain hss
    exact answers_token_bind (answers_expect hr rest) (answers_pure _ rest)
  intro p hp hd
  simp only [block]
  split
  · next hdeep =>
    exact ⟨fun hn => absurd hn (by omega), fun _ => ⟨p.unexpected .shallowerNesting, [], rfl, rfl⟩⟩
  · exact answers_nested hbraced p hp hd

/-- The tokens behind a conditional do not begin with what would still belong to it. -/
def NoElse (rest : List Token) : Prop := rest.head?.map Token.kind ≠ some (.keyword .senao)

theorem noElse_of_first {t : Token} (h : StatementStart.of (some t.kind) ≠ .other) (rest : List Token) :
    NoElse (t :: rest) := by
  intro hsenao
  simp only [List.head?_cons, Option.map_some] at hsenao
  rw [hsenao] at h
  exact h rfl

theorem not_ends_of_first {t : Token} (h : StatementStart.of (some t.kind) ≠ .other) :
    endsBlock (some t.kind) = false := by
  rw [endsBlock, Bool.or_eq_false_iff]
  refine ⟨by simp, ?_⟩
  rw [decide_eq_false_iff_not]
  intro hclose
  rw [hclose] at h
  exact h rfl

/-- Where statements end no "else" follows. -/
theorem noElse_of_ends {rest : List Token} (h : endsBlock (rest.head?.map Token.kind) = true) : NoElse rest := by
  intro hsenao
  rw [hsenao] at h
  exact absurd h (by decide)

mutual

theorem statement_answers {s : Statement} {n : Nat} {ts : List Token} (h : s.Flattens n ts) (bound : Nat)
    (hlen : ts.length ≤ bound) {rest : List Token} (hrest : NoElse rest) :
    (statement bound).Answers s n ts rest := by
  obtain ⟨t, us, rfl, -⟩ := h.exists_first
  obtain ⟨bound, rfl⟩ : ∃ k, bound = k + 1 := ⟨bound - 1, by simp only [List.length_cons] at hlen; omega⟩
  rw [statement]
  apply answers_peek_bind
  simp only [List.cons_append, List.head?_cons, Option.map_some]
  simp only [List.length_cons, Nat.add_le_add_iff_right] at hlen
  match h with
  | @Statement.Flattens.declaration x type init _ word name _ semicolon hword hname hinit hend =>
    have hof : StatementStart.of (some (.keyword (typeKeyword type))) = .declaration type :=
      StatementStart.of_kind? (.declaration type)
    simp only [hword, hof]
    simp only [List.length_cons, List.length_append] at hlen
    exact declaration_answers hname hinit hend (by omega)
  | @Statement.Flattens.assignment x value _ name _ semicolon hname hvalue hend =>
    simp only [hname, StatementStart.of]
    simp only [List.length_append] at hlen
    exact assignment_answers hvalue hend (by omega)
  | .read hword hl hname hr hend =>
    simp only [hword, StatementStart.of]
    exact read_answers hl hname hr hend
  | .write hword hl he hes hr hend =>
    simp only [hword, StatementStart.of]
    simp only [List.length_cons, List.length_append] at hlen
    exact write_answers hl he hes hr hend (by omega)
  | @Statement.Flattens.conditional e b other m n word l ts r us vs hword hl he hr hthen helse =>
    simp only [hword, StatementStart.of]
    simp only [List.length_cons, List.length_append] at hlen
    have htokens : l :: (ts ++ r :: (us ++ vs)) = (l :: (ts ++ [r])) ++ (us ++ vs) := by simp
    rw [htokens]
    apply answers_token_bind (answers_advance word _)
    apply answers_bind (condition_answers hl he hr (by omega))
    apply answers_bind (block_answers_flattens hthen bound (by omega) _)
    exact answers_bind_pure (otherwise_answers helse bound (by omega) hrest)
      fun other => Statement.conditional e b other word.position
  | @Statement.Flattens.repetition e b n word l ts r us hword hl he hr hbody =>
    simp only [hword, StatementStart.of]
    simp only [List.length_cons, List.length_append] at hlen
    have htokens : l :: (ts ++ r :: us) = (l :: (ts ++ [r])) ++ us := by simp
    rw [htokens]
    apply answers_token_bind (answers_advance word _)
    apply answers_bind (condition_answers hl he hr (by omega))
    exact answers_bind_pure (block_answers_flattens hbody bound (by omega) _)
      fun body => Statement.repetition e body word.position
  | .block hb =>
    have hopen : t.kind = .symbol .openBrace := by
      cases hb with
      | mk hl => exact hl
    simp only [hopen, StatementStart.of]
    exact answers_bind_pure (block_answers_flattens hb bound (by simpa using hlen) rest) Statement.block

theorem block_answers_flattens {b : Block} {n : Nat} {ts : List Token} (h : b.Flattens n ts) (bound : Nat)
    (hlen : ts.length ≤ bound + 1) (rest : List Token) :
    (block (attempt (statement bound)) bound).Answers b n ts rest := by
  match h with
  | @Block.Flattens.mk ss n l ts r hl hall hr =>
    simp only [List.length_cons, List.length_append] at hlen
    have hends : endsBlock ((r :: rest).head?.map Token.kind) = true := by simp [endsBlock, hr]
    exact block_answers hl (many_answers hall (fun _ => id) (by omega) (by omega) hends) hr

theorem otherwise_answers {other : Option Block} {n : Nat} {ts : List Token}
    (h : Statement.FlattensElse other n ts) (bound : Nat) (hlen : ts.length ≤ bound) {rest : List Token}
    (hrest : NoElse rest) :
    (otherwise (block (attempt (statement bound)) bound) (statement bound)).Answers other n ts rest := by
  apply answers_peek_bind
  match h with
  | .none =>
    rw [if_neg (by simpa [NoElse] using hrest)]
    exact answers_pure none rest
  | @Statement.FlattensElse.block b n word ts hword hb =>
    have hopen : ∃ l us, ts = l :: us ∧ l.kind = .symbol .openBrace := by
      cases hb with
      | @mk _ _ l _ _ hl => exact ⟨l, _, rfl, hl⟩
    obtain ⟨l, us, rfl, hl⟩ := hopen
    rw [if_pos (by simp [hword])]
    apply answers_token_bind (answers_advance word _)
    apply answers_peek_bind
    rw [if_neg (by simp [hl])]
    simp only [List.length_cons] at hlen
    exact answers_bind_pure (block_answers_flattens hb bound (by simp only [List.length_cons]; omega) rest) some
  | @Statement.FlattensElse.conditional s n word ts hword hs hc =>
    have hfirst : ∃ t us, ts = t :: us ∧ t.kind = .keyword .se := by
      cases hs with
      | @conditional _ _ _ _ _ word _ _ _ _ _ hword => exact ⟨word, _, rfl, hword⟩
      | declaration | assignment | read | write | repetition | block => exact hc.elim
    obtain ⟨t, us, rfl, ht⟩ := hfirst
    rw [if_pos (by simp [hword])]
    apply answers_token_bind (answers_advance word _)
    apply answers_peek_bind
    rw [if_pos (by simp [ht])]
    simp only [List.length_cons] at hlen
    exact answers_bind_pure (statement_answers hs bound (by simp only [List.length_cons]; omega) hrest)
      fun s => some (Block.mk [s] word.position)

theorem many_answers {ss : List Statement} {n : Nat} {ts : List Token} (h : Statement.FlattensAll ss n ts)
    {ends : Option TokenKind → Bool} (hends : ∀ found, ends found = true → endsBlock found = true)
    {bound count : Nat} (hlen : ts.length ≤ bound) (hcount : ts.length ≤ count) {rest : List Token}
    (hrest : ends (rest.head?.map Token.kind) = true) :
    (gather (many ends (attempt (statement bound)) count)).Answers ss n ts rest := by
  match h with
  | .nil => exact many_answers_nil _ _ hrest
  | @Statement.FlattensAll.cons s ss m n ts us hs hss =>
    obtain ⟨t, ts, rfl, hfirst⟩ := hs.exists_first
    simp only [List.length_append, List.length_cons] at hlen hcount
    obtain ⟨count, rfl⟩ : ∃ k, count = k + 1 := ⟨count - 1, by omega⟩
    have hgoes : ends (some t.kind) = false := by
      rw [Bool.eq_false_iff]
      intro htrue
      have := hends _ htrue
      rw [not_ends_of_first hfirst] at this
      cases this
    have hnext : NoElse (us ++ rest) := by
      cases hss with
      | nil => exact noElse_of_ends (hends _ hrest)
      | @cons s' _ _ _ ts' us' hs' =>
        obtain ⟨t', ts', rfl, hfirst'⟩ := hs'.exists_first
        exact noElse_of_first hfirst' _
    refine many_answers_cons (by simpa using hgoes) (attempt_answers ?_) ?_
    · exact statement_answers hs bound (by simp only [List.length_cons]; omega) hnext
    · exact many_answers hss hends (by omega) (by omega) hrest

end

end Rule
end Grammar
end Portugol
