import Portugol.Proofs.Grammar.Errors

/-! # What can still be continued

Where a rule tells its first error, all that it has passed over was in order: the tokens can be continued to what the
rule reads (`Rule.Viable`). This is what no longer holds with the token at which the error is told. Each rule is
asked for no more than that it shows one continuation at each of its steps, and it always has one, since each part
that is still missing can be written in some way. -/
namespace Portugol.Grammar

/-- Tokens that can be continued to a word of a language. -/
def Begins (language : List Token → Prop) (ts : List Token) : Prop := ∃ us, language (ts ++ us)

namespace Rule

variable {α β : Type} {rule : Rule α} {next : α → Rule β} {p : Cursor} {K K' : List Token → Prop}

/-- If a rule tells an error, then what it has passed over up to the first one has a property. -/
def Viable (K : List Token → Prop) (rule : Rule α) (p : Cursor) : Prop :=
  ∀ e more, (rule.run p).reported = p.errors.toList ++ e :: more →
    ∃ ts rest, p.unread = ts ++ rest ∧ e.At p.stop rest ∧ K ts

theorem Viable.mono_of_unread (h : rule.Viable K p) (hK : ∀ ts rest, p.unread = ts ++ rest → K ts → K' ts) :
    rule.Viable K' p := by
  intro e more he
  obtain ⟨ts, rest, hp, hat, hts⟩ := h e more he
  exact ⟨ts, rest, hp, hat, hK ts rest hp hts⟩

theorem Viable.mono (h : rule.Viable K p) (hK : ∀ ts, K ts → K' ts) : rule.Viable K' p :=
  h.mono_of_unread fun ts _ _ => hK ts

theorem viable_of_gives {a : α} {q : Cursor} (h : rule.Gives p a q) : rule.Viable K p := by
  intro e more he
  rw [h.run_eq, Reply.reported, h.errors_eq] at he
  exact absurd he.symm (by simp)

theorem viable_pure (a : α) (p : Cursor) : (pure a : Rule α).Viable K p := viable_of_gives ⟨rfl, rfl⟩

theorem viable_refuse (expected : Expectation) (h : K []) : (refuse expected : Rule α).Viable K p := by
  intro e more he
  obtain ⟨rfl, -⟩ : p.unexpected expected = e ∧ [] = more := by
    simpa [refuse, Reply.reported] using he
  exact ⟨[], p.unread, rfl, p.at_unexpected expected, h⟩

theorem viable_peek_bind {next : Option TokenKind → Rule β} (h : (next p.found).Viable K p) :
    (peek >>= next).Viable K p := h

theorem viable_bind [rule.Orderly] [∀ a, (next a).Orderly] (h : rule.Viable K p)
    (hnext : ∀ a q, rule.Gives p a q → ∃ ts, p.unread = ts ++ q.unread ∧
      (next a).Viable (fun us => K (ts ++ us)) q) : (rule >>= next).Viable K p := by
  intro e more he
  rw [run_bind] at he
  cases hr : rule.run p with
  | refused e' q =>
    rw [hr] at he
    exact h e more (hr ▸ he)
  | read a q =>
    rw [hr] at he
    have hlead := leads_run rule p
    rw [hr] at hlead
    obtain ⟨es, hes⟩ := hlead.errors_kept
    simp only [Reply.after] at hes
    -- The first error was kept by the first rule, or it is the first of the second one.
    cases es with
    | nil =>
      have herrors : q.errors = p.errors := Array.toList_inj.1 (by simpa using hes.symm)
      obtain ⟨ts, hp, hviable⟩ := hnext a q ⟨hr, herrors⟩
      obtain ⟨us, rest, hq, hat, hK⟩ := hviable e more (by rw [herrors]; exact he)
      have hstop : q.stop = p.stop := hlead.stop_eq
      exact ⟨ts ++ us, rest, by rw [hp, hq, List.append_assoc], hstop ▸ hat, hK⟩
    | cons e' es =>
      obtain ⟨more', hmore⟩ := (leads_run (next a) q).errors_kept.trans (Reply.errors_kept_reported _)
      obtain rfl : e' = e := by
        simp only at he
        rw [← hmore, ← hes, List.append_assoc, List.cons_append] at he
        exact (List.cons.inj (List.append_cancel_left he)).1
      exact h e' es (by rw [hr]; exact hes.symm)

/-- Behind what a rule has read. -/
theorem viable_reads_bind {result : α → Nat → List Token → Prop} [rule.Orderly] [∀ a, (next a).Orderly]
    (hreads : rule.Reads result) (h : rule.Viable K p)
    (hnext : ∀ a n ts q, result a n ts → (next a).Viable (fun us => K (ts ++ us)) q) :
    (rule >>= next).Viable K p := by
  refine viable_bind h fun a q hgives => ?_
  obtain ⟨n, ts, hpass, ha⟩ := hreads p a q hgives
  exact ⟨ts, hpass.unread_eq, hnext a n ts q ha⟩

theorem viable_advance_bind {next : Position → Rule β} [∀ a, (next a).Orderly] {t : Token} {rest : List Token}
    (hp : p.unread = t :: rest)
    (hnext : ∀ q, q.unread = rest → (next t.position).Viable (fun us => K (t :: us)) q) :
    (advance >>= next).Viable K p := by
  refine viable_bind (viable_of_gives ⟨rfl, rfl⟩) fun place q hgives => ?_
  obtain ⟨rfl, hpass⟩ := gives_advance hgives hp
  have hunread := hpass.unread_eq
  exact ⟨[t], hunread, hnext q (by simpa [hp] using hunread.symm)⟩

theorem viable_expect_bind {kind : TokenKind} {next : Position → Rule β} [∀ a, (next a).Orderly] (h : K [])
    (hnext : ∀ t q, t.kind = kind → (next t.position).Viable (fun us => K (t :: us)) q) :
    (expect kind >>= next).Viable K p := by
  refine viable_bind ?_ fun place q hgives => ?_
  · apply viable_peek_bind
    split
    · exact viable_of_gives ⟨rfl, rfl⟩
    · exact viable_refuse _ h
  · obtain ⟨t, ht, rfl, hpass⟩ := gives_expect hgives
    exact ⟨[t], hpass.unread_eq, hnext t q ht⟩

theorem viable_name_bind {next : String → Rule β} [∀ x, (next x).Orderly] (h : K [])
    (hnext : ∀ x t q, t.kind = .name x → (next x).Viable (fun us => K (t :: us)) q) :
    (name >>= next).Viable K p := by
  refine viable_bind ?_ fun x q hgives => ?_
  · apply viable_peek_bind
    split
    · exact viable_of_gives ⟨rfl, rfl⟩
    · exact viable_refuse _ h
  · obtain ⟨t, ht, hpass⟩ := gives_name hgives
    exact ⟨[t], hpass.unread_eq, hnext x t q ht⟩

theorem Viable.leaving {d : Nat} (h : rule.Viable K { p with depth := d }) (g : Nat → Nat) {e : Unexpected}
    {more : List Unexpected}
    (he : ((rule.run { p with depth := d }).leaving fun q => { q with depth := g q.depth }).reported =
      p.errors.toList ++ e :: more) : ∃ ts rest, p.unread = ts ++ rest ∧ e.At p.stop rest ∧ K ts := by
  refine h e more ?_
  rw [← he]
  cases rule.run { p with depth := d } <;> rfl

theorem viable_nested (h : K []) (hrule : rule.Viable K { p with depth := p.depth + 1 }) :
    (nested rule).Viable K p := by
  intro e more he
  simp only [nested] at he
  split at he
  · exact hrule.leaving (fun d => d - 1) he
  · exact viable_refuse _ h e more he

theorem viable_restoringDepth (h : rule.Viable K p) : (restoringDepth rule).Viable K p :=
  fun _ _ he => h.leaving (fun _ => p.depth) he

/-! ## Expressions -/

def tokenOf (kind : TokenKind) : Token := ⟨kind, "", .start⟩

def Expressions (τ : Nat) (ts : List Token) : Prop := ∃ e : Expr, e.Flattens τ ts

theorem begins_expressions_nil (τ : Nat) : Begins (Expressions τ) [] :=
  ⟨[tokenOf (.integer 0)], _, .literal (v := .integer 0) rfl⟩

/-- A rule for expressions that are at least so tight, by what it passes over. -/
def ViableExprs (τ : Nat) (rule : Rule Expr) : Prop := ∀ p, rule.Viable (Begins (Expressions τ)) p

theorem viable_descend (h : K []) : descend.Viable K p := by
  intro e more he
  simp only [descend] at he
  split at he
  · exact absurd he.symm (by simp [advance, Reply.reported])
  · exact viable_refuse _ h e more he

theorem viable_fold {level : Level} {operand : Rule Expr} [operand.Orderly]
    (hreads : ReadsExprs (level.rank + 1) operand) (h : ViableExprs (level.rank + 1) operand) (bound : Nat)
    {lhs : Expr} {ts : List Token} (hlhs : lhs.Flattens level.rank ts) (p : Cursor) :
    (fold level operand bound lhs).Viable (fun us => Begins (Expressions level.rank) (ts ++ us)) p := by
  induction bound generalizing lhs ts p with
  | zero => exact viable_pure lhs p
  | succ bound ih =>
    apply viable_peek_bind
    split
    · exact viable_pure lhs p
    · next op hop =>
      obtain ⟨hfound, rfl⟩ := operator?_eq_some_iff.1 hop
      obtain ⟨t, rest, hp, ht⟩ := Cursor.found_eq_some_iff.1 hfound
      have := orderly_fold op.level operand bound
      refine viable_bind (viable_descend ⟨[], lhs, by simpa using hlhs⟩) fun place q hgives => ?_
      obtain ⟨rfl, hq, -, -⟩ := gives_descend hp hgives
      refine ⟨[t], by rw [hp, hq]; rfl, ?_⟩
      refine viable_reads_bind hreads ((h q).mono ?_) fun rhs n rs r hrhs => ?_
      · rintro us ⟨vs, rhs, hrhs⟩
        exact ⟨vs, _, by simpa using Expr.Flattens.binary (Nat.le_refl _) hlhs ht hrhs⟩
      · have hchain : (Expr.binary lhs op rhs t.position).Flattens op.level.rank (ts ++ t :: rs) :=
          .binary (Nat.le_refl _) hlhs ht hrhs.1
        exact (ih hchain r).mono fun us hus => by simpa using hus

theorem viable_chain (level : Level) {operand : Rule Expr} [operand.Orderly]
    (hreads : ReadsExprs (level.rank + 1) operand) (h : ViableExprs (level.rank + 1) operand) (bound : Nat) :
    ViableExprs level.rank (chain level operand bound) := by
  intro p
  have := orderly_fold level operand bound
  refine viable_reads_bind hreads ((h p).mono ?_) fun lhs n ts q hlhs => ?_
  · rintro ts ⟨us, e, he⟩
    exact ⟨us, e, he.mono (Nat.le_succ _)⟩
  · exact viable_restoringDepth (viable_fold hreads h bound (hlhs.1.mono (Nat.le_succ _)) q)

theorem viable_chains {factor : Rule Expr} [factor.Orderly] (hreads : ReadsExprs Expr.tightest factor)
    (h : ViableExprs Expr.tightest factor) (bound : Nat) : ViableExprs 0 (chains factor bound) := by
  have hterms := viable_chain .term hreads h bound
  have hreadsTerms := chain_reads .term hreads bound
  have hsums := viable_chain .sum hreadsTerms hterms bound
  have hreadsSums := chain_reads .sum hreadsTerms bound
  have hcomparisons := viable_chain .comparison hreadsSums hsums bound
  have hreadsComparisons := chain_reads .comparison hreadsSums bound
  exact viable_chain .logic hreadsComparisons hcomparisons bound

theorem viable_factor (bound : Nat) : ViableExprs Expr.tightest (factor bound) := by
  induction bound with
  | zero => exact fun p => viable_refuse _ (begins_expressions_nil _)
  | succ bound ih =>
    intro p
    apply viable_peek_bind
    cases hof : FactorStart.of p.found with
    | literal v =>
      obtain ⟨t, rest, hp, ht⟩ := FactorStart.exists_token hof nofun
      exact viable_advance_bind hp fun q _ => viable_pure _ q
    | name x =>
      obtain ⟨t, rest, hp, ht⟩ := FactorStart.exists_token hof nofun
      exact viable_advance_bind hp fun q _ => viable_pure _ q
    | group =>
      obtain ⟨l, rest, hp, hl⟩ := FactorStart.exists_token hof nofun
      have hl := (Option.some.inj hl).symm
      refine viable_nested (begins_expressions_nil _) (viable_advance_bind hp fun q _ => ?_)
      have hinner := chains_reads (factor_reads bound) bound
      refine viable_reads_bind hinner ((viable_chains (factor_reads bound) ih bound q).mono ?_)
        fun inner n ts q hts => ?_
      · rintro ts ⟨us, e, he⟩
        exact ⟨us ++ [tokenOf (.symbol .closeParen)], _, by simpa using Expr.Flattens.group hl he rfl⟩
      · refine viable_expect_bind ?_ fun r q hr => viable_pure _ q
        exact ⟨[tokenOf (.symbol .closeParen)], _, by simpa using Expr.Flattens.group hl hts.1 rfl⟩
    | unary op =>
      obtain ⟨t, rest, hp, ht⟩ := FactorStart.exists_token hof nofun
      have ht := (Option.some.inj ht).symm
      refine viable_nested (begins_expressions_nil _) (viable_advance_bind hp fun q _ => ?_)
      refine viable_reads_bind (factor_reads bound) ((ih q).mono ?_) fun operand n ts q hts => viable_pure _ q
      rintro ts ⟨us, e, he⟩
      exact ⟨us, _, by simpa using Expr.Flattens.unary ht he⟩
    | other => exact viable_refuse _ (begins_expressions_nil _)

theorem viable_expression (bound : Nat) : ViableExprs 0 (expression bound) :=
  viable_chains (factor_reads bound) (viable_factor bound) bound

/-! ## Statements -/

def Initializers (ts : List Token) : Prop := ∃ init n, Statement.FlattensInit init n ts

def ExpressionLists (ts : List Token) : Prop := ∃ es n, Statement.FlattensMore es n ts

def Conditions (ts : List Token) : Prop :=
  ∃ (e : Expr) (l : Token) (us : List Token) (r : Token), ts = l :: (us ++ [r]) ∧ l.kind = .symbol .openParen ∧
    e.Flattens 0 us ∧ r.kind = .symbol .closeParen

def Statements (ts : List Token) : Prop := ∃ (s : Statement) (n : Nat), s.Flattens n ts

def Blocks (ts : List Token) : Prop := ∃ (b : Block) (n : Nat), b.Flattens n ts

def Alternatives (ts : List Token) : Prop := ∃ other n, Statement.FlattensElse other n ts

def StatementLists (ts : List Token) : Prop := ∃ ss n, Statement.FlattensAll ss n ts

theorem viable_initializer (bound : Nat) (p : Cursor) : (initializer bound).Viable (Begins Initializers) p := by
  apply viable_peek_bind
  split
  · next hsign =>
    obtain ⟨sign, rest, hp, hkind⟩ := exists_sign hsign
    refine viable_advance_bind hp fun q _ => ?_
    refine viable_reads_bind (expression_reads bound) ((viable_expression bound q).mono ?_)
      fun e n ts q hts => viable_pure _ q
    rintro ts ⟨us, e, he⟩
    exact ⟨us, _, _, .some hkind he⟩
  · exact viable_pure none p

theorem viable_declaration {bound : Nat} {type : Option DataType} {word : Token} {rest : List Token}
    (hp : p.unread = word :: rest) (hword : word.kind = .keyword (typeKeyword type)) :
    (declaration bound type).Viable (Begins Statements) p := by
  have hdone {x : String} {name : Token} (hname : name.kind = .name x) {init : Option Expr} {n : Nat}
      {ts : List Token} (hinit : Statement.FlattensInit init n ts) :
      Statements (word :: name :: (ts ++ [tokenOf (.symbol .semicolon)])) :=
    ⟨_, _, .declaration hword hname hinit rfl⟩
  refine viable_advance_bind hp fun q _ => viable_name_bind ?_ fun x name q hname => ?_
  · exact ⟨[tokenOf (.name ""), tokenOf (.symbol .semicolon)], hdone rfl .none⟩
  refine viable_reads_bind (initializer_reads bound) ((viable_initializer bound q).mono ?_) fun init n ts q hinit => ?_
  · rintro ts ⟨us, init, n, hinit⟩
    exact ⟨us ++ [tokenOf (.symbol .semicolon)], by simpa using hdone hname hinit⟩
  refine viable_expect_bind ?_ fun semicolon q _ => viable_pure _ q
  exact ⟨[tokenOf (.symbol .semicolon)], by simpa using hdone hname hinit⟩

theorem viable_assignment {bound : Nat} {x : String} {name : Token} {rest : List Token}
    (hp : p.unread = name :: rest) (hname : name.kind = .name x) :
    (assignment bound x).Viable (Begins Statements) p := by
  have hdone {sign : Token} (hsign : sign.kind = .symbol .arrow ∨ sign.kind = .symbol .becomes) {e : Expr}
      {ts : List Token} (he : e.Flattens 0 ts) :
      Statements (name :: sign :: (ts ++ [tokenOf (.symbol .semicolon)])) :=
    ⟨_, _, .assignment hname (.some hsign he) rfl⟩
  refine viable_advance_bind hp fun q _ => viable_peek_bind ?_
  split
  · next hsign =>
    obtain ⟨sign, rest, hq, hkind⟩ := exists_sign hsign
    refine viable_advance_bind hq fun q _ => ?_
    refine viable_reads_bind (expression_reads bound) ((viable_expression bound q).mono ?_) fun e n ts q hts => ?_
    · rintro ts ⟨us, e, he⟩
      exact ⟨us ++ [tokenOf (.symbol .semicolon)], by simpa using hdone hkind he⟩
    refine viable_expect_bind ?_ fun semicolon q _ => viable_pure _ q
    exact ⟨[tokenOf (.symbol .semicolon)], by simpa using hdone hkind hts.1⟩
  · obtain ⟨us, e, he⟩ := begins_expressions_nil 0
    exact viable_refuse _ ⟨tokenOf (.symbol .arrow) :: (us ++ [tokenOf (.symbol .semicolon)]),
      by simpa using hdone (.inl rfl) he⟩

theorem viable_read {word : Token} {rest : List Token} (hp : p.unread = word :: rest)
    (hword : word.kind = .keyword .leia) : read.Viable (Begins Statements) p := by
  refine viable_advance_bind hp fun q _ => ?_
  refine viable_expect_bind ?_ fun l q hl => viable_name_bind ?_ fun x name q hname => ?_
  · exact ⟨[tokenOf (.symbol .openParen), tokenOf (.name ""), tokenOf (.symbol .closeParen),
      tokenOf (.symbol .semicolon)], _, _, .read hword rfl rfl rfl rfl⟩
  · exact ⟨[tokenOf (.name ""), tokenOf (.symbol .closeParen), tokenOf (.symbol .semicolon)], _, _,
      .read hword hl rfl rfl rfl⟩
  refine viable_expect_bind ?_ fun r q hr => viable_expect_bind ?_ fun semicolon q _ => viable_pure _ q
  · exact ⟨[tokenOf (.symbol .closeParen), tokenOf (.symbol .semicolon)], _, _, .read hword hl hname rfl rfl⟩
  · exact ⟨[tokenOf (.symbol .semicolon)], _, _, .read hword hl hname hr rfl⟩

theorem viable_moreExpressions (bound : Nat) (p : Cursor) :
    (moreExpressions bound).Viable (Begins ExpressionLists) p := by
  induction bound generalizing p with
  | zero => exact viable_pure [] p
  | succ bound ih =>
    apply viable_peek_bind
    split
    · next hfound =>
      obtain ⟨comma, rest, hp, hcomma⟩ := Cursor.found_eq_some_iff.1 hfound
      refine viable_advance_bind hp fun q _ => ?_
      refine viable_reads_bind (expression_reads bound) ((viable_expression bound q).mono ?_) fun e n ts q hts => ?_
      · rintro ts ⟨us, e, he⟩
        exact ⟨us, _, _, by simpa using Statement.FlattensMore.cons hcomma he .nil⟩
      refine viable_reads_bind (moreExpressions_reads bound) ((ih q).mono ?_) fun es m us q hes => viable_pure _ q
      rintro us ⟨vs, es, m, hes⟩
      exact ⟨vs, _, _, by simpa using Statement.FlattensMore.cons hcomma hts.1 hes⟩
    · exact viable_pure [] p

theorem viable_write {bound : Nat} {word : Token} {rest : List Token} (hp : p.unread = word :: rest)
    (hword : word.kind = .keyword .escreva) : (write bound).Viable (Begins Statements) p := by
  have hdone {l : Token} (hl : l.kind = .symbol .openParen) {e : Expr} {ts : List Token} (he : e.Flattens 0 ts)
      {es : List Expr} {n : Nat} {us : List Token} (hes : Statement.FlattensMore es n us) {r : Token}
      (hr : r.kind = .symbol .closeParen) :
      Statements (word :: l :: (ts ++ (us ++ [r, tokenOf (.symbol .semicolon)]))) :=
    ⟨_, _, .write hword hl he hes hr rfl⟩
  have hclose : (tokenOf (.symbol .closeParen)).kind = .symbol .closeParen := rfl
  refine viable_advance_bind hp fun q _ => viable_expect_bind ?_ fun l q hl => ?_
  · obtain ⟨us, e, he⟩ := begins_expressions_nil 0
    exact ⟨_, hdone (l := tokenOf (.symbol .openParen)) rfl he .nil hclose⟩
  refine viable_reads_bind (expression_reads bound) ((viable_expression bound q).mono ?_) fun e n ts q hts => ?_
  · rintro ts ⟨us, e, he⟩
    exact ⟨us ++ [tokenOf (.symbol .closeParen), tokenOf (.symbol .semicolon)],
      by simpa using hdone hl he .nil hclose⟩
  refine viable_reads_bind (moreExpressions_reads bound) ((viable_moreExpressions bound q).mono ?_)
    fun es m us q hes => ?_
  · rintro us ⟨vs, es, m, hes⟩
    exact ⟨vs ++ [tokenOf (.symbol .closeParen), tokenOf (.symbol .semicolon)],
      by simpa using hdone hl hts.1 hes hclose⟩
  refine viable_expect_bind ?_ fun r q hr => viable_expect_bind ?_ fun semicolon q _ => viable_pure _ q
  · exact ⟨[tokenOf (.symbol .closeParen), tokenOf (.symbol .semicolon)],
      by simpa using hdone hl hts.1 hes hclose⟩
  · exact ⟨[tokenOf (.symbol .semicolon)], by simpa using hdone hl hts.1 hes hr⟩

theorem begins_conditions_nil : Begins Conditions [] := by
  obtain ⟨us, e, he⟩ := begins_expressions_nil 0
  exact ⟨_, e, tokenOf (.symbol .openParen), us, tokenOf (.symbol .closeParen), rfl, rfl, he, rfl⟩

theorem viable_condition (bound : Nat) (p : Cursor) : (condition bound).Viable (Begins Conditions) p := by
  refine viable_expect_bind begins_conditions_nil fun l q hl => ?_
  refine viable_reads_bind (expression_reads bound) ((viable_expression bound q).mono ?_) fun e n ts q hts => ?_
  · rintro ts ⟨us, e, he⟩
    exact ⟨us ++ [tokenOf (.symbol .closeParen)], e, l, ts ++ us, tokenOf (.symbol .closeParen), by simp, hl, he, rfl⟩
  refine viable_expect_bind ?_ fun r q _ => viable_pure _ q
  exact ⟨[tokenOf (.symbol .closeParen)], e, l, ts, tokenOf (.symbol .closeParen), by simp, hl, hts.1, rfl⟩

theorem conditions_of_reads {e : Expr} {n : Nat} {ts : List Token}
    (h : ∃ l us r, ts = l :: (us ++ [r]) ∧ n = e.cost ∧ l.kind = .symbol .openParen ∧ e.Flattens 0 us ∧
      r.kind = .symbol .closeParen) : Conditions ts := by
  obtain ⟨l, us, r, hts, -, hl, he, hr⟩ := h
  exact ⟨e, l, us, r, hts, hl, he, hr⟩

theorem blocks_empty : Blocks [tokenOf (.symbol .openBrace), tokenOf (.symbol .closeBrace)] :=
  ⟨_, _, .mk (l := tokenOf (.symbol .openBrace)) (r := tokenOf (.symbol .closeBrace)) rfl .nil rfl⟩

theorem exists_conditional : ∃ (s : Statement) (n : Nat) (ts : List Token), s.Flattens n ts ∧ s.IsConditional := by
  obtain ⟨_, e, l, us, r, -, hl, he, hr⟩ := begins_conditions_nil
  obtain ⟨b, m, hb⟩ := blocks_empty
  have hword : (tokenOf (.keyword .se)).kind = .keyword .se := rfl
  exact ⟨_, _, _, .conditional hword hl he hr hb .none, trivial⟩

/-! ## Statements one after the other -/

theorem viable_attempt {rule : Rule Statement} (h : rule.Viable K p) : (gather (attempt rule)).Viable K p :=
  fun e more he => h e more ((reported_attempt rule p).symm.trans he)

section
variable {rule : Rule Statement} [rule.Orderly] (hreads : rule.Reads Statement.Flattens)
  (h : ∀ p, rule.Viable (Begins Statements) p)
include hreads h

theorem viable_many (ends : Option TokenKind → Bool) (bound : Nat) (p : Cursor) :
    (gather (many ends (attempt rule) bound)).Viable (Begins StatementLists) p := by
  induction bound generalizing p with
  | zero => exact viable_of_gives ⟨rfl, rfl⟩
  | succ bound ih =>
    cases hends : ends p.found with
    | true => exact viable_of_gives ⟨run_many_stop hends, rfl⟩
    | false =>
      intro e more he
      rw [run_many_succ hends] at he
      refine viable_bind (viable_attempt ((h p).mono ?_)) (fun first q hgives => ?_) e more he
      · rintro ts ⟨us, s, n, hs⟩
        exact ⟨us, [s], _, by simpa using Statement.FlattensAll.cons hs .nil⟩
      have hrun := hgives.run_eq
      simp only [gather, Reply.read.injEq] at hrun
      obtain ⟨-, rfl⟩ := hrun
      obtain ⟨s, -, hs⟩ := gives_attempt hgives.errors_eq
      obtain ⟨n, ts, hpass, hflat⟩ := hreads p s _ hs
      refine ⟨ts, hpass.unread_eq, viable_bind ((ih _).mono ?_) fun ss q hgives => ?_⟩
      · rintro us ⟨vs, ss, m, hss⟩
        exact ⟨vs, _, _, by simpa using Statement.FlattensAll.cons hflat hss⟩
      · obtain ⟨m, us, hpass', -⟩ := many_reads hreads ends bound _ _ _ hgives
        exact ⟨us, hpass'.unread_eq, viable_pure _ q⟩

theorem viable_block (bound : Nat) (p : Cursor) : (block (attempt rule) bound).Viable (Begins Blocks) p := by
  have hnil : Begins Blocks [] := ⟨_, blocks_empty⟩
  intro e more he
  simp only [block] at he
  split at he
  · exact viable_refuse (α := Block) .shallowerNesting hnil e more he
  refine viable_nested hnil (viable_expect_bind hnil fun l q hl => ?_) e more he
  refine viable_reads_bind (many_reads hreads endsBlock bound) ((viable_many hreads h endsBlock bound q).mono ?_)
    fun ss n ts q hall => ?_
  · rintro ts ⟨us, ss, n, hall⟩
    exact ⟨us ++ [tokenOf (.symbol .closeBrace)], _, _, by simpa using Block.Flattens.mk hl hall rfl⟩
  · refine viable_expect_bind ?_ fun r q _ => viable_pure _ q
    exact ⟨[tokenOf (.symbol .closeBrace)], _, _, by simpa using Block.Flattens.mk hl hall rfl⟩

end

/-! ## Statements with blocks -/

section
variable {bound : Nat} {inner : Rule Block} [inner.Orderly] (hinner : inner.Reads Block.Flattens)
  (hblock : ∀ p, inner.Viable (Begins Blocks) p)
include hinner hblock

theorem viable_repetition {word : Token} {rest : List Token} (hp : p.unread = word :: rest)
    (hword : word.kind = .keyword .enquanto) : (repetition bound inner).Viable (Begins Statements) p := by
  have hdone {ts us : List Token} (hts : Conditions ts) (hus : Blocks us) : Statements (word :: (ts ++ us)) := by
    obtain ⟨e, l, ts, r, rfl, hl, he, hr⟩ := hts
    obtain ⟨b, n, hb⟩ := hus
    exact ⟨_, _, by simpa using Statement.Flattens.repetition hword hl he hr hb⟩
  refine viable_advance_bind hp fun q _ => ?_
  refine viable_reads_bind (condition_reads bound) ((viable_condition bound q).mono ?_) fun e n ts q hts => ?_
  · rintro ts ⟨us, hts⟩
    exact ⟨us ++ _, by simpa using hdone hts blocks_empty⟩
  have hts := conditions_of_reads hts
  refine viable_reads_bind hinner ((hblock q).mono ?_) fun b m us q _ => viable_pure _ q
  rintro us ⟨vs, hb⟩
  exact ⟨vs, by simpa using hdone hts hb⟩

variable {again : Rule Statement} [again.Orderly] (hagain : again.Reads Statement.Flattens)
  (hstatement : ∀ p, again.Viable (Begins Statements) p)
include hagain hstatement

theorem viable_otherwise (p : Cursor) : (otherwise inner again).Viable (Begins Alternatives) p := by
  apply viable_peek_bind
  split
  · next hsenao =>
    obtain ⟨word, rest, hp, hword⟩ := Cursor.found_eq_some_iff.1 hsenao
    refine viable_advance_bind hp fun q hq => viable_peek_bind ?_
    split
    · next hse =>
      refine viable_reads_bind hagain ((hstatement q).mono_of_unread ?_) fun s n ts r _ => viable_pure _ r
      rintro ts rest' hunread ⟨us, s, n, hs⟩
      -- The first token tells that the statement is a conditional; before it any conditional will do.
      cases ts with
      | nil =>
        obtain ⟨s, n, ts, hs, hc⟩ := exists_conditional
        exact ⟨ts, _, _, .conditional hword hs hc⟩
      | cons t ts =>
        have ht : t.kind = .keyword .se := by simpa [Cursor.found, hunread] using hse
        exact ⟨us, _, _, .conditional hword hs (hs.isConditional ht)⟩
    · refine viable_reads_bind hinner ((hblock q).mono ?_) fun b n ts r _ => viable_pure _ r
      rintro ts ⟨us, b, n, hb⟩
      exact ⟨us, _, _, .block hword hb⟩
  · exact viable_pure none p

theorem viable_conditional {word : Token} {rest : List Token} (hp : p.unread = word :: rest)
    (hword : word.kind = .keyword .se) : (conditional bound inner again).Viable (Begins Statements) p := by
  have hdone {ts us vs : List Token} (hts : Conditions ts) (hus : Blocks us) (hvs : Alternatives vs) :
      Statements (word :: (ts ++ (us ++ vs))) := by
    obtain ⟨e, l, ts, r, rfl, hl, he, hr⟩ := hts
    obtain ⟨b, m, hb⟩ := hus
    obtain ⟨other, n, hother⟩ := hvs
    exact ⟨_, _, by simpa using Statement.Flattens.conditional hword hl he hr hb hother⟩
  have hnone : Alternatives [] := ⟨none, 0, .none⟩
  refine viable_advance_bind hp fun q _ => ?_
  refine viable_reads_bind (condition_reads bound) ((viable_condition bound q).mono ?_) fun e n ts q hts => ?_
  · rintro ts ⟨us, hts⟩
    exact ⟨us ++ _, by simpa using hdone hts blocks_empty hnone⟩
  have hts := conditions_of_reads hts
  refine viable_reads_bind hinner ((hblock q).mono ?_) fun b m us q hb => ?_
  · rintro us ⟨vs, hb⟩
    exact ⟨vs, by simpa using hdone hts hb hnone⟩
  have helse := viable_otherwise hinner hblock hagain hstatement q
  refine viable_reads_bind (otherwise_reads hinner hagain) (helse.mono ?_) fun other k vs q _ => viable_pure _ q
  rintro vs ⟨ws, hother⟩
  exact ⟨ws, by simpa using hdone hts ⟨b, m, hb⟩ hother⟩

end

theorem begins_statements_nil : Begins Statements [] := by
  obtain ⟨b, n, hb⟩ := blocks_empty
  exact ⟨_, _, _, .block hb⟩

theorem viable_statement (bound : Nat) (p : Cursor) : (statement bound).Viable (Begins Statements) p := by
  induction bound generalizing p with
  | zero => exact viable_refuse _ begins_statements_nil
  | succ bound ih =>
    have hreads := statement_reads bound
    have hinner := block_reads hreads bound
    have hblock := viable_block hreads ih bound
    apply viable_peek_bind
    cases hof : StatementStart.of p.found with
    | declaration type =>
      obtain ⟨t, rest, hp, ht⟩ := StatementStart.exists_token hof nofun
      exact viable_declaration hp (Option.some.inj ht).symm
    | assignment x =>
      obtain ⟨t, rest, hp, ht⟩ := StatementStart.exists_token hof nofun
      exact viable_assignment hp (Option.some.inj ht).symm
    | read =>
      obtain ⟨t, rest, hp, ht⟩ := StatementStart.exists_token hof nofun
      exact viable_read hp (Option.some.inj ht).symm
    | write =>
      obtain ⟨t, rest, hp, ht⟩ := StatementStart.exists_token hof nofun
      exact viable_write hp (Option.some.inj ht).symm
    | conditional =>
      obtain ⟨t, rest, hp, ht⟩ := StatementStart.exists_token hof nofun
      exact viable_conditional hinner hblock hreads ih hp (Option.some.inj ht).symm
    | repetition =>
      obtain ⟨t, rest, hp, ht⟩ := StatementStart.exists_token hof nofun
      exact viable_repetition hinner hblock hp (Option.some.inj ht).symm
    | block =>
      refine viable_reads_bind hinner ((hblock p).mono ?_) fun b n ts q _ => viable_pure _ q
      rintro ts ⟨us, b, n, hb⟩
      exact ⟨us, _, _, .block hb⟩
    | other => exact viable_refuse _ begins_statements_nil

end Rule
end Portugol.Grammar
