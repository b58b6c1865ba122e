import Portugol.Proofs.Grammar.Rules

/-! # The rules of expressions

What is proved of the rules of the grammar, for expressions. A chain is taken apart at its last operator, as the
tree is that it becomes; the rule takes it from the other end, so the statement that carries the induction is about
the rule in the middle of its work, with what it has folded so far (`run_chain_upTo`). -/
namespace Portugol.Grammar

/-! ## Leaves and signs -/

theorem literal?_eq_some_iff {kind : TokenKind} {v : Value} : literal? kind = some v ↔ v.token? = some kind := by
  constructor
  · intro h
    cases kind with
    | symbol | name => cases h
    | keyword k => cases k <;> cases h <;> rfl
    | integer | real | text => cases h; rfl
  · intro h
    cases v with
    | undefined => cases h
    | boolean b => cases b <;> cases h <;> rfl
    | integer | real | text => cases h; rfl

theorem operator?_eq_some_iff {level : Level} {found : Option TokenKind} {op : BinaryOp} :
    operator? level found = some op ↔ found = some (.symbol op.symbol) ∧ op.level = level := by
  constructor
  · intro h
    unfold operator? at h
    split at h
    · next s =>
      obtain ⟨rfl, hl⟩ := Level.operator?_eq_some_iff.1 h
      exact ⟨rfl, hl⟩
    · cases h
  · rintro ⟨rfl, hl⟩
    exact Level.operator?_eq_some_iff.2 ⟨rfl, hl⟩

theorem symbol_injective {a b : BinaryOp} (h : a.symbol = b.symbol) : a = b :=
  Option.some.inj ((BinaryOp.ofSymbol?_eq_some_iff.2 h).symm.trans (BinaryOp.ofSymbol?_eq_some_iff.2 rfl))

namespace FactorStart

def kind? : FactorStart → Option TokenKind
  | .literal v => v.token?
  | .name x => some (.name x)
  | .group => some (.symbol .openParen)
  | .unary op => some (.symbol op.symbol)
  | .other => none

theorem kind?_of (found : Option TokenKind) : of found = .other ∨ (of found).kind? = found := by
  unfold of
  split
  case h_5 kind _ _ _ _ =>
    cases hl : literal? kind with
    | none => exact .inl rfl
    | some v => exact .inr (by simp [kind?, literal?_eq_some_iff.1 hl])
  case h_6 => exact .inl rfl
  all_goals exact .inr rfl

/-- Where a factor begins there is a token that it begins with. -/
theorem exists_token {p : Cursor} {s : FactorStart} (h : of p.found = s) (hs : s ≠ .other) :
    ∃ t rest, p.unread = t :: rest ∧ s.kind? = some t.kind := by
  subst h
  apply Cursor.exists_token ((kind?_of p.found).resolve_left hs)
  intro hnone
  rw [hnone] at hs
  exact hs rfl

/-- What a factor begins with is none of what no factor begins with. -/
theorem found_ne {found found' : Option TokenKind} {s : FactorStart} (h : of found = s) (hs : s ≠ .other)
    (h' : of found' = .other) : found ≠ found' := by
  rintro rfl
  exact hs (h.symm.trans h')

theorem of_token? {v : Value} {kind : TokenKind} (h : v.token? = some kind) : of (some kind) = .literal v := by
  cases v with
  | undefined => cases h
  | boolean b => cases b <;> cases h <;> rfl
  | integer | real | text => cases h; rfl

theorem of_unary (op : UnaryOp) : of (some (.symbol op.symbol)) = .unary op := by
  cases op <;> rfl

end FactorStart

/-! ## What the grammar says of an expression -/

end Grammar

namespace Expr.Flattens

variable {τ : Nat} {e : Expr} {ts : List Token}

theorem mono {τ' : Nat} (h : e.Flattens τ ts) (hle : τ' ≤ τ) : e.Flattens τ' ts := by
  cases h with
  | literal ht => exact .literal ht
  | name ht => exact .name ht
  | group hl he hr => exact .group hl he hr
  | unary ht he => exact .unary ht he
  | binary hτ hl ht hr => exact .binary (Nat.le_trans hle hτ) hl ht hr

theorem le_tightness (h : e.Flattens τ ts) (hle : τ ≤ tightest) : τ ≤ e.tightness := by
  cases h with
  | binary hτ => exact hτ
  | literal | name | group | unary => exact hle

/-- What the grammar derives keeps the levels. -/
theorem leveled (h : e.Flattens τ ts) : e.Leveled := by
  induction h with
  | literal | name => trivial
  | group _ _ _ ih => exact ih
  | unary _ he ih => exact ⟨Nat.le_antisymm (tightness_le_tightest _) (he.le_tightness (Nat.le_refl _)), ih⟩
  | @binary _ _ op _ _ _ _ _ hl _ hr ihl ihr =>
    have hop := op.level.rank_lt_tightest
    exact ⟨hl.le_tightness (by omega), hr.le_tightness hop, ihl, ihr⟩

theorem links_lt_length {level : Level} (h : e.Flattens τ ts) : e.links level < ts.length := by
  induction h with
  | literal | name | group | unary => simp [links]
  | binary _ _ _ _ ihl _ =>
    simp only [links, List.length_append, List.length_cons]
    split <;> omega

/-- At a level stands one operand, or an operator of the level between a chain and an operand. -/
theorem operand_or_link {level : Level} (h : e.Flattens level.rank ts) :
    e.Flattens (level.rank + 1) ts ∨
      ∃ lhs op rhs ls t rs, e = .binary lhs op rhs t.position ∧ ts = ls ++ t :: rs ∧ op.level = level ∧
        lhs.Flattens level.rank ls ∧ t.kind = .symbol op.symbol ∧ rhs.Flattens (level.rank + 1) rs := by
  cases h with
  | literal ht => exact .inl (.literal ht)
  | name ht => exact .inl (.name ht)
  | group hl he hr => exact .inl (.group hl he hr)
  | unary ht he => exact .inl (.unary ht he)
  | @binary _ lhs op rhs ls t rs hτ hl ht hr =>
    rcases Nat.lt_or_eq_of_le hτ with hlt | heq
    · exact .inl (.binary hlt hl ht hr)
    · obtain rfl := Level.rank_injective heq
      exact .inr ⟨lhs, op, rhs, ls, t, rs, rfl, rfl, rfl, hl, ht, hr⟩

end Expr.Flattens

namespace Grammar

/-! ## Chains -/

namespace Rule

/-- A rule for expressions that are at least so tight, by what it reads. -/
def ReadsExprs (τ : Nat) (rule : Rule Expr) : Prop :=
  rule.Reads fun e n tokens => e.Flattens τ tokens ∧ n = e.cost

/-- Tokens at which an expression so tight has come to its end. -/
def Stops (τ : Nat) (rest : List Token) : Prop :=
  ∀ level : Level, τ ≤ level.rank → operator? level (rest.head?.map Token.kind) = none

/-- A rule for expressions that are at least so tight, by what it answers to at most so many tokens. -/
def AnswersExprs (τ bound : Nat) (rule : Rule Expr) : Prop :=
  ∀ e ts rest, e.Flattens τ ts → ts.length ≤ bound → Stops τ rest → rule.Answers e e.cost ts rest

theorem Stops.mono {τ τ' : Nat} {rest : List Token} (h : Stops τ rest) (hle : τ ≤ τ') : Stops τ' rest :=
  fun level hl => h level (Nat.le_trans hle hl)

/-- An operand ends where an operator of its level stands. -/
theorem stops_operator {op : BinaryOp} {t : Token} (ht : t.kind = .symbol op.symbol) (rest : List Token) :
    Stops (op.level.rank + 1) (t :: rest) := by
  intro level hl
  rw [Option.eq_none_iff_forall_ne_some]
  intro op' h
  obtain ⟨hf, rfl⟩ := operator?_eq_some_iff.1 h
  simp only [List.head?_cons, Option.map_some, ht, Option.some.injEq, TokenKind.symbol.injEq] at hf
  rw [symbol_injective hf] at hl
  omega

/-- An expression ends at a sign that is no operator between two operands. -/
theorem stops_symbol {t : Token} {s : Symbol} (ht : t.kind = .symbol s) (hs : BinaryOp.ofSymbol? s = none)
    (τ : Nat) (rest : List Token) : Stops τ (t :: rest) := by
  intro level _
  simp [operator?, Level.operator?, ht, hs]

instance : Orderly descend where
  leads p := by
    simp only [descend]
    split
    · exact ⟨rfl, List.tail_suffix _, List.prefix_refl _⟩
    · exact Cursor.Leads.refl p

instance {α : Type} (rule : Rule α) [h : rule.Orderly] : (restoringDepth rule).Orderly where
  leads p := by
    have hp := h.leads p
    rw [restoringDepth, Reply.after_leaving]
    exact ⟨hp.stop_eq, hp.unread_suffix, hp.errors_kept⟩

instance {α : Type} (rule : Rule α) : (restoringDepth rule).Balanced where
  depth_eq p := by
    rw [restoringDepth, Reply.after_leaving]

variable {level : Level} {operand : Rule Expr}

theorem orderly_fold (level : Level) (operand : Rule Expr) [operand.Orderly] (bound : Nat) (lhs : Expr) :
    (fold level operand bound lhs).Orderly := by
  induction bound generalizing lhs with
  | zero =>
    rw [fold]
    infer_instance
  | succ bound ih =>
    constructor
    intro p
    rw [fold, run_peek_bind]
    split
    · exact Orderly.leads p
    · exact Orderly.leads p

instance (level : Level) (operand : Rule Expr) [operand.Orderly] (bound : Nat) :
    (chain level operand bound).Orderly := by
  have := orderly_fold level operand bound
  unfold chain
  infer_instance

instance (level : Level) (operand : Rule Expr) [operand.Balanced] (bound : Nat) :
    (chain level operand bound).Balanced := by
  unfold chain
  infer_instance

/-- A chain goes back to the nesting of its beginning, since its first operand does. -/
theorem run_chain [h : operand.Balanced] (bound : Nat) (p : Cursor) :
    (chain level operand bound).run p =
      ((operand >>= fold level operand bound).run p).leaving fun q => { q with depth := p.depth } := by
  have hd := h.depth_eq p
  change (operand >>= fun lhs => restoringDepth (fold level operand bound lhs)).run p = _
  simp only [run_bind, restoringDepth]
  cases hr : operand.run p with
  | read lhs q =>
    rw [hr] at hd
    simp only [Reply.after] at hd
    simp only [hd]
  | refused e q =>
    rw [hr] at hd
    simp only [Reply.after] at hd
    simp only [Reply.leaving, ← hd]

theorem gives_restoringDepth {α : Type} {rule : Rule α} {p q : Cursor} {a : α}
    (h : (restoringDepth rule).Gives p a q) : ∃ r, rule.Gives p a r ∧ q = { r with depth := p.depth } := by
  have hrun := h.run_eq
  simp only [restoringDepth] at hrun
  cases hr : rule.run p with
  | refused e r =>
    rw [hr] at hrun
    cases hrun
  | read b r =>
    rw [hr] at hrun
    simp only [Reply.leaving, Reply.read.injEq] at hrun
    obtain ⟨rfl, rfl⟩ := hrun
    exact ⟨r, ⟨hr, h.errors_eq⟩, rfl⟩

theorem gives_descend {p q : Cursor} {place : Position} {t : Token} {rest : List Token}
    (hp : p.unread = t :: rest) (h : descend.Gives p place q) :
    place = t.position ∧ q.unread = rest ∧ q.depth = p.depth + 1 ∧ p.depth < maxNesting := by
  have hrun := h.run_eq
  simp only [descend] at hrun
  split at hrun
  · next hd =>
    simp only [advance, Reply.read.injEq] at hrun
    obtain ⟨rfl, rfl⟩ := hrun
    exact ⟨by simp [Cursor.position, hp], by simp [hp], rfl, hd⟩
  · cases hrun

/-- What is folded onto the left operand belongs to the chain, and the nesting that the chain takes is there. -/
theorem fold_gives [operand.Orderly] (hop : ReadsExprs (level.rank + 1) operand) {bound d : Nat} {lhs e : Expr}
    {p q : Cursor} {ts : List Token} (h : (fold level operand bound lhs).Gives p e q)
    (hlhs : lhs.Flattens level.rank ts) (hdepth : p.depth = d + lhs.links level)
    (hroom : d ≤ maxNesting → d + lhs.cost ≤ maxNesting) :
    ∃ us, p.unread = us ++ q.unread ∧ e.Flattens level.rank (ts ++ us) ∧
      (d ≤ maxNesting → d + e.cost ≤ maxNesting) := by
  induction bound generalizing lhs p ts with
  | zero =>
    obtain ⟨rfl, rfl⟩ := gives_pure h
    exact ⟨[], rfl, by simpa using hlhs, hroom⟩
  | succ bound ih =>
    rw [fold, gives_peek_bind] at h
    cases hf : operator? level p.found with
    | none =>
      rw [hf] at h
      obtain ⟨rfl, rfl⟩ := gives_pure h
      exact ⟨[], rfl, by simpa using hlhs, hroom⟩
    | some op =>
      rw [hf] at h
      obtain ⟨hfound, rfl⟩ := operator?_eq_some_iff.1 hf
      obtain ⟨t, rest, hp, ht⟩ := Cursor.found_eq_some_iff.1 hfound
      have := orderly_fold op.level operand bound
      obtain ⟨place, q₁, h₁, h⟩ := gives_bind h
      obtain ⟨rhs, q₂, h₂, h⟩ := gives_bind h
      obtain ⟨rfl, hu₁, hd₁, hlt⟩ := gives_descend hp h₁
      obtain ⟨n, rs, hpass, hrhs, rfl⟩ := hop _ _ _ h₂
      have hrhsRoom := hpass.room (by omega)
      have hchain : (Expr.binary lhs op rhs t.position).Flattens op.level.rank (ts ++ t :: rs) :=
        .binary (Nat.le_refl _) hlhs ht hrhs
      have hlinks : (Expr.binary lhs op rhs t.position).links op.level = lhs.links op.level + 1 :=
        Expr.links_binary
      obtain ⟨us, hus, he, heRoom⟩ := ih h hchain (by rw [hpass.depth_eq, hlinks]; omega)
        (fun hd => by have := hroom hd; rw [Expr.cost]; omega)
      refine ⟨t :: (rs ++ us), ?_, ?_, heRoom⟩
      · rw [hp, ← hu₁, hpass.unread_eq, hus]
        simp
      · simpa using he

theorem chain_reads (level : Level) {operand : Rule Expr} [operand.Orderly]
    (hop : ReadsExprs (level.rank + 1) operand) (bound : Nat) :
    ReadsExprs level.rank (chain level operand bound) := by
  intro p e q h
  have := orderly_fold level operand bound
  obtain ⟨lhs, q₁, h₁, h⟩ := gives_bind h
  obtain ⟨r, h₂, rfl⟩ := gives_restoringDepth h
  obtain ⟨n, ts, hpass, hlhs, rfl⟩ := hop _ _ _ h₁
  have hlinks : lhs.links level = 0 := Expr.links_eq_zero (hlhs.le_tightness level.rank_lt_tightest)
  obtain ⟨us, hus, he, hroom⟩ := fold_gives hop h₂ (hlhs.mono (Nat.le_succ _))
    (by rw [hlinks, hpass.depth_eq, Nat.add_zero]) hpass.room
  exact ⟨e.cost, ts ++ us, ⟨by rw [hpass.unread_eq, hus, List.append_assoc], hpass.depth_eq, hroom⟩, he, rfl⟩

theorem run_fold_stop {p : Cursor} (hp : operator? level p.found = none) (bound : Nat) (lhs : Expr) :
    (fold level operand bound lhs).run p = .read lhs p := by
  cases bound with
  | zero => rfl
  | succ bound =>
    rw [fold, run_peek_bind, hp]
    rfl

theorem run_fold_succ {op : BinaryOp} {p : Cursor} {t : Token} {rest : List Token} (hp : p.unread = t :: rest)
    (ht : t.kind = .symbol op.symbol) (bound : Nat) (lhs : Expr) :
    (fold op.level operand (bound + 1) lhs).run p =
      (descend >>= fun place => operand >>= fun rhs =>
        fold op.level operand bound (.binary lhs op rhs place)).run p := by
  have hf : operator? op.level p.found = some op :=
    operator?_eq_some_iff.2 ⟨Cursor.found_eq_some_iff.2 ⟨t, rest, hp, ht⟩, rfl⟩
  rw [fold, run_peek_bind, hf]

theorem run_descend {p : Cursor} {t : Token} {rest : List Token} (hp : p.unread = t :: rest) :
    descend.run p =
      if p.depth < maxNesting then .read t.position { p with unread := rest, depth := p.depth + 1 }
      else .refused (p.unexpected .shallowerNesting) p := by
  simp only [descend, advance, refuse]
  split <;> simp [Cursor.position, hp]

/-- One round of folding: an operator is passed over, and an operand is read one level deeper. -/
theorem run_fold_round [operand.Orderly] {op : BinaryOp} {bound : Nat}
    (hop : AnswersExprs (op.level.rank + 1) bound operand) {rhs : Expr} {t : Token} {rs rest : List Token}
    (ht : t.kind = .symbol op.symbol) (hrhs : rhs.Flattens (op.level.rank + 1) rs) (hlen : rs.length ≤ bound)
    (hrest : Stops (op.level.rank + 1) rest) {p : Cursor} (hp : p.unread = t :: (rs ++ rest)) (k : Nat)
    (lhs : Expr) :
    (p.depth + 1 + rhs.cost ≤ maxNesting →
      (fold op.level operand (k + 1) lhs).run p =
        (fold op.level operand k (.binary lhs op rhs t.position)).run
          { p with unread := rest, depth := p.depth + 1 }) ∧
    (maxNesting < p.depth + 1 + rhs.cost →
      ((fold op.level operand (k + 1) lhs).run p).TooDeep p.errors.toList) := by
  rw [run_fold_succ hp ht, run_bind, run_descend hp]
  by_cases hd : p.depth < maxNesting
  · obtain ⟨hfit, hdeep⟩ := hop rhs rs rest hrhs hlen hrest
      { p with unread := rs ++ rest, depth := p.depth + 1 } rfl hd
    rw [if_pos hd]
    refine ⟨fun hn => ?_, fun hn => ?_⟩
    · simp only [run_bind]
      rw [hfit hn]
    · have := orderly_fold op.level operand k
      exact tooDeep_bind (hdeep hn)
  · rw [if_neg hd]
    exact ⟨fun hn => absurd hn (by omega), fun _ => ⟨p.unexpected .shallowerNesting, [], rfl, rfl⟩⟩

/-- What is answered to a whole chain, in the middle of the work: its operands and operators are read and folded,
one level deeper for each operator, and what stands behind them is still to be folded. -/
theorem run_chain_upTo {level : Level} {operand : Rule Expr} [operand.Orderly] {bound : Nat}
    (hop : AnswersExprs (level.rank + 1) bound operand)
    (e : Expr) {ts rest : List Token} (he : e.Flattens level.rank ts) (hlen : ts.length ≤ bound)
    (hrest : Stops (level.rank + 1) rest) {p : Cursor} (hp : p.unread = ts ++ rest) (hd : p.depth ≤ maxNesting) :
    (p.depth + e.cost ≤ maxNesting →
      (operand >>= fold level operand bound).run p =
        (fold level operand (bound - e.links level) e).run
          { p with unread := rest, depth := p.depth + e.links level }) ∧
    (maxNesting < p.depth + e.cost → ((operand >>= fold level operand bound).run p).TooDeep p.errors.toList) := by
  rcases he.operand_or_link with hoperand | ⟨lhs, op, rhs, ls, t, rs, rfl, rfl, rfl, hlhs, ht, hrhs⟩
  · have hlinks : e.links level = 0 := Expr.links_eq_zero (hoperand.le_tightness level.rank_lt_tightest)
    obtain ⟨hfit, hdeep⟩ := hop e ts rest hoperand hlen hrest p hp hd
    refine ⟨fun hn => ?_, fun hn => ?_⟩
    · rw [run_bind, hfit hn, hlinks]
      rfl
    · have := orderly_fold level operand bound
      exact tooDeep_bind (hdeep hn)
  · rw [List.length_append, List.length_cons] at hlen
    have hlinks : lhs.links op.level < ls.length := hlhs.links_lt_length
    obtain ⟨hfit, hdeep⟩ := run_chain_upTo hop lhs hlhs (by omega) (stops_operator ht (rs ++ rest)) (p := p)
      (by rw [hp]; simp) hd
    rw [Expr.cost, Expr.links_binary]
    by_cases hl : p.depth + lhs.cost ≤ maxNesting
    · obtain ⟨k, hk⟩ : ∃ k, bound = lhs.links op.level + (k + 1) := ⟨bound - lhs.links op.level - 1, by omega⟩
      have hbefore : bound - lhs.links op.level = k + 1 := by omega
      have hbehind : bound - (lhs.links op.level + 1) = k := by omega
      obtain ⟨hfit', hdeep'⟩ := run_fold_round hop ht hrhs (by omega) hrest
        (p := { p with unread := t :: (rs ++ rest), depth := p.depth + lhs.links op.level }) rfl k lhs
      rw [hfit hl, hbefore, hbehind]
      exact ⟨fun hn => hfit' (by simp only; omega), fun hn => hdeep' (by simp only; omega)⟩
    · exact ⟨fun hn => absurd hn (by omega), fun _ => hdeep (by omega)⟩
termination_by e

theorem chain_answers (level : Level) {operand : Rule Expr} [operand.Orderly] [operand.Balanced] {bound : Nat}
    (hop : AnswersExprs (level.rank + 1) bound operand) :
    AnswersExprs level.rank bound (chain level operand bound) := by
  intro e ts rest he hlen hrest p hp hd
  obtain ⟨hfit, hdeep⟩ := run_chain_upTo hop e he hlen (hrest.mono (Nat.le_succ _)) hp hd
  rw [run_chain]
  refine ⟨fun hn => ?_, fun hn => (hdeep hn).leaving fun _ => rfl⟩
  rw [hfit hn, run_fold_stop (hrest level (Nat.le_refl _))]
  rfl

/-! ## Factors and expressions -/

theorem chains_reads {factor : Rule Expr} [factor.Orderly] (h : ReadsExprs Expr.tightest factor) (bound : Nat) :
    ReadsExprs 0 (chains factor bound) :=
  chain_reads .logic (chain_reads .comparison (chain_reads .sum (chain_reads .term h bound) bound) bound) bound

theorem chains_answers {factor : Rule Expr} [factor.Orderly] [factor.Balanced] {bound : Nat}
    (h : AnswersExprs Expr.tightest bound factor) : AnswersExprs 0 bound (chains factor bound) :=
  chain_answers .logic (chain_answers .comparison (chain_answers .sum (chain_answers .term h)))

instance (factor : Rule Expr) [factor.Orderly] (bound : Nat) : (chains factor bound).Orderly := by
  unfold chains
  infer_instance

instance (factor : Rule Expr) [factor.Balanced] (bound : Nat) : (chains factor bound).Balanced := by
  unfold chains
  infer_instance

theorem orderly_factor (bound : Nat) : (factor bound).Orderly := by
  induction bound with
  | zero =>
    rw [factor]
    infer_instance
  | succ bound ih =>
    constructor
    intro p
    rw [factor, run_peek_bind]
    split <;> exact Orderly.leads p

theorem balanced_factor (bound : Nat) : (factor bound).Balanced := by
  induction bound with
  | zero =>
    rw [factor]
    infer_instance
  | succ bound ih =>
    constructor
    intro p
    rw [factor, run_peek_bind]
    split <;> exact Balanced.depth_eq p

instance (bound : Nat) : (factor bound).Orderly := orderly_factor bound

instance (bound : Nat) : (factor bound).Balanced := balanced_factor bound

theorem factor_reads (bound : Nat) : ReadsExprs Expr.tightest (factor bound) := by
  induction bound with
  | zero => exact fun p e q h => (not_gives_refuse h).elim
  | succ bound ih =>
    intro p e q h
    rw [factor, gives_peek_bind] at h
    cases hf : FactorStart.of p.found with
    | other =>
      rw [hf] at h
      exact (not_gives_refuse h).elim
    | literal v =>
      rw [hf] at h
      obtain ⟨t, rest, hp, ht⟩ := FactorStart.exists_token hf nofun
      obtain ⟨place, q₁, h₁, h⟩ := gives_bind h
      obtain ⟨rfl, rfl⟩ := gives_pure h
      obtain ⟨rfl, hpass⟩ := gives_advance h₁ hp
      exact ⟨0, [t], hpass, .literal ht, rfl⟩
    | name x =>
      rw [hf] at h
      obtain ⟨t, rest, hp, ht⟩ := FactorStart.exists_token hf nofun
      obtain ⟨place, q₁, h₁, h⟩ := gives_bind h
      obtain ⟨rfl, rfl⟩ := gives_pure h
      obtain ⟨rfl, hpass⟩ := gives_advance h₁ hp
      exact ⟨0, [t], hpass, .name (Option.some.inj ht).symm, rfl⟩
    | group =>
      rw [hf] at h
      obtain ⟨l, rest, hp, hl⟩ := FactorStart.exists_token hf nofun
      obtain ⟨r, h, hnested⟩ := gives_nested h
      obtain ⟨place, q₁, h₁, h⟩ := gives_bind h
      obtain ⟨inner, q₂, h₂, h⟩ := gives_bind h
      obtain ⟨place', q₃, h₃, h⟩ := gives_bind h
      obtain ⟨rfl, rfl⟩ := gives_pure h
      obtain ⟨-, hopen⟩ := gives_advance h₁ hp
      obtain ⟨n, ts, hinner, he, rfl⟩ := chains_reads ih bound _ _ _ h₂
      obtain ⟨close, hr, -, hclose⟩ := gives_expect h₃
      refine ⟨inner.cost + 1, l :: (ts ++ [close]), ?_, .group (Option.some.inj hl).symm he hr, rfl⟩
      simpa using hnested _ _ (hopen.trans (hinner.trans hclose))
    | unary op =>
      rw [hf] at h
      obtain ⟨t, rest, hp, ht⟩ := FactorStart.exists_token hf nofun
      obtain ⟨r, h, hnested⟩ := gives_nested h
      obtain ⟨place, q₁, h₁, h⟩ := gives_bind h
      obtain ⟨operand, q₂, h₂, h⟩ := gives_bind h
      obtain ⟨rfl, rfl⟩ := gives_pure h
      obtain ⟨rfl, hsign⟩ := gives_advance h₁ hp
      obtain ⟨n, ts, hoperand, he, rfl⟩ := ih _ _ _ h₂
      refine ⟨operand.cost + 1, t :: ts, ?_, .unary (Option.some.inj ht).symm he, rfl⟩
      simpa using hnested _ _ (hsign.trans hoperand)

theorem factor_answers (bound : Nat) : AnswersExprs Expr.tightest bound (factor bound) := by
  induction bound with
  | zero =>
    intro e ts rest he hlen
    have : e.links .logic < ts.length := he.links_lt_length
    omega
  | succ bound ih =>
    intro e ts rest he hlen hrest
    rw [factor]
    apply answers_peek_bind
    cases he with
    | @literal _ v t ht =>
      simp only [List.cons_append, List.head?_cons, Option.map_some, FactorStart.of_token? ht]
      exact answers_token_bind (answers_advance t rest) (answers_pure _ rest)
    | @name _ x t ht =>
      simp only [List.cons_append, List.head?_cons, Option.map_some, ht, FactorStart.of]
      exact answers_token_bind (answers_advance t rest) (answers_pure _ rest)
    | @group _ inner l ts r hl he hr =>
      simp only [List.cons_append, List.head?_cons, Option.map_some, hl, FactorStart.of]
      simp only [List.length_cons, List.length_append] at hlen
      refine answers_nested (answers_token_bind (answers_advance l _) ?_)
      apply answers_bind_plain (chains_answers ih inner ts _ he (by omega) (stops_symbol hr rfl 0 rest))
      exact answers_token_bind (answers_expect hr rest) (answers_pure _ rest)
    | @unary _ op inner t ts ht he =>
      simp only [List.cons_append, List.head?_cons, Option.map_some, ht, FactorStart.of_unary]
      simp only [List.length_cons] at hlen
      refine answers_nested (answers_token_bind (answers_advance t _) ?_)
      exact answers_bind_pure (ih inner ts rest he (by omega) hrest) fun e => Expr.unary op e t.position
    | @binary _ lhs op _ _ _ _ hτ =>
      have := op.level.rank_lt_tightest
      omega

instance (bound : Nat) : (expression bound).Orderly := by
  unfold expression
  infer_instance

instance (bound : Nat) : (expression bound).Balanced := by
  unfold expression
  infer_instance

theorem expression_reads (bound : Nat) : ReadsExprs 0 (expression bound) :=
  chains_reads (factor_reads bound) bound

theorem expression_answers (bound : Nat) : AnswersExprs 0 bound (expression bound) :=
  chains_answers (factor_answers bound)

end Rule
end Grammar
end Portugol
