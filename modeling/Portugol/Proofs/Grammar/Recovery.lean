import Portugol.Proofs.Grammar.Boundaries

/-! # One error for one broken statement

A statement that cannot be read is given up at its semicolon. No rule within a statement passes over a semicolon unless
it ends the statement (`Rule.Spares`), so whatever is wrong before it, reading goes on right behind it (`Halts`). So
what stands between two sources and costs an error alone costs the same error between them, and it hides nothing of
what is below it (`Program.parse_broken_between`). -/
namespace Portugol
namespace Grammar

/-- Whether a sign parts statements. -/
def Parts (kind : TokenKind) : Prop :=
  kind = .symbol .semicolon ∨ kind = .symbol .openBrace ∨ kind = .symbol .closeBrace

namespace Rule

variable {α β : Type} {rule : Rule α} {next : α → Rule β} {p : Cursor}

/-! ## Rules that pass over no semicolon -/

/-- However a rule ends, it has passed over no semicolon and has kept no error. -/
def Spares (rule : Rule α) (p : Cursor) : Prop :=
  ∃ ts, p.unread = ts ++ (rule.run p).after.unread ∧ (∀ t ∈ ts, t.kind ≠ .symbol .semicolon) ∧
    (rule.run p).after.errors = p.errors

theorem spares_pure (a : α) (p : Cursor) : (pure a : Rule α).Spares p := ⟨[], rfl, List.forall_mem_nil _, rfl⟩

theorem spares_refuse (expected : Expectation) (p : Cursor) : (refuse expected : Rule α).Spares p :=
  ⟨[], rfl, List.forall_mem_nil _, rfl⟩

theorem spares_bind (h : rule.Spares p) (h' : ∀ a q, (next a).Spares q) : (rule >>= next).Spares p := by
  obtain ⟨ts, hts, hspared, herrors⟩ := h
  rw [Spares, run_bind]
  cases hr : rule.run p with
  | refused e q =>
    rw [hr] at hts herrors
    exact ⟨ts, hts, hspared, herrors⟩
  | read a q =>
    rw [hr] at hts herrors
    obtain ⟨us, hus, hspared', herrors'⟩ := h' a q
    simp only [Reply.after] at hts herrors
    refine ⟨ts ++ us, ?_, List.forall_mem_append.2 ⟨hspared, hspared'⟩, herrors'.trans herrors⟩
    rw [hts, List.append_assoc, ← hus]

theorem spares_peek_bind {next : Option TokenKind → Rule β} (h : (next p.found).Spares p) :
    (peek >>= next).Spares p := h

theorem spares_advance (h : p.found ≠ some (.symbol .semicolon)) : advance.Spares p := by
  cases hp : p.unread with
  | nil => exact ⟨[], by simp [advance, Reply.after, hp], List.forall_mem_nil _, rfl⟩
  | cons t rest =>
    refine ⟨[t], by simp [advance, Reply.after, hp], ?_, rfl⟩
    rw [List.forall_mem_singleton]
    intro ht
    exact h (Cursor.found_eq_some_iff.2 ⟨t, rest, hp, ht⟩)

theorem spares_expect {s : Symbol} (h : s ≠ .semicolon) (p : Cursor) : (expect (.symbol s)).Spares p := by
  apply spares_peek_bind
  split
  · next hfound => exact spares_advance (by simpa [hfound] using h)
  · exact spares_refuse _ p

theorem spares_name (p : Cursor) : name.Spares p := by
  apply spares_peek_bind
  split
  · next x hfound => exact spares_bind (spares_advance (by simp [hfound])) fun _ q => spares_pure x q
  · exact spares_refuse _ p

theorem spares_leaving {g : Nat → Nat} {d : Nat} (h : rule.Spares { p with depth := d }) :
    ∃ ts, p.unread = ts ++
        ((rule.run { p with depth := d }).leaving fun q => { q with depth := g q.depth }).after.unread ∧
      (∀ t ∈ ts, t.kind ≠ .symbol .semicolon) ∧
      ((rule.run { p with depth := d }).leaving fun q => { q with depth := g q.depth }).after.errors = p.errors := by
  rw [Reply.after_leaving]
  exact h

theorem spares_nested (h : rule.Spares { p with depth := p.depth + 1 }) : (nested rule).Spares p := by
  rw [Spares, nested]
  simp only
  split
  · exact spares_leaving (g := fun d => d - 1) h
  · exact spares_refuse _ p

theorem spares_restoringDepth (h : ∀ p, rule.Spares p) (p : Cursor) : (restoringDepth rule).Spares p :=
  spares_leaving (g := fun _ => p.depth) (h p)

theorem spares_descend (h : p.found ≠ some (.symbol .semicolon)) : descend.Spares p := by
  rw [Spares, descend]
  simp only
  split
  · exact spares_advance (p := { p with depth := p.depth + 1 }) h
  · exact spares_refuse _ p

theorem operator?_semicolon (level : Level) : operator? level (some (.symbol .semicolon)) = none := by
  cases level <;> rfl

theorem spares_fold (level : Level) {operand : Rule Expr} (h : ∀ p, operand.Spares p) (bound : Nat) (lhs : Expr)
    (p : Cursor) : (fold level operand bound lhs).Spares p := by
  induction bound generalizing lhs p with
  | zero => exact spares_pure lhs p
  | succ bound ih =>
    apply spares_peek_bind
    split
    · exact spares_pure lhs p
    · next op hop =>
      refine spares_bind (spares_descend ?_) fun place q => spares_bind (h q) fun rhs => ih _
      intro hfound
      rw [hfound, operator?_semicolon] at hop
      cases hop

theorem spares_chain (level : Level) {operand : Rule Expr} (h : ∀ p, operand.Spares p) (bound : Nat) (p : Cursor) :
    (chain level operand bound).Spares p :=
  spares_bind (h p) fun lhs => spares_restoringDepth (spares_fold level h bound lhs)

theorem spares_chains {factor : Rule Expr} (h : ∀ p, factor.Spares p) (bound : Nat) (p : Cursor) :
    (chains factor bound).Spares p :=
  spares_chain .logic (spares_chain .comparison (spares_chain .sum (spares_chain .term h bound) bound) bound) bound p

theorem spares_factor (bound : Nat) (p : Cursor) : (factor bound).Spares p := by
  induction bound generalizing p with
  | zero => exact spares_refuse _ p
  | succ bound ih =>
    apply spares_peek_bind
    have hfirst {start : FactorStart} (hof : FactorStart.of p.found = start) (hne : start ≠ .other) :
        p.found ≠ some (.symbol .semicolon) := FactorStart.found_ne hof hne rfl
    cases hof : FactorStart.of p.found with
    | literal value => exact spares_bind (spares_advance (hfirst hof nofun)) fun _ => spares_pure _
    | name x => exact spares_bind (spares_advance (hfirst hof nofun)) fun _ => spares_pure _
    | group =>
      refine spares_nested (spares_bind (spares_advance (hfirst hof nofun)) fun _ => ?_)
      exact fun q => spares_bind (spares_chains ih bound q) fun inner q =>
        spares_bind (spares_expect (by decide) q) fun _ => spares_pure _
    | unary op =>
      refine spares_nested (spares_bind (spares_advance (hfirst hof nofun)) fun place q => ?_)
      exact spares_bind (ih q) fun operand => spares_pure _
    | other => exact spares_refuse _ p

theorem spares_expression (bound : Nat) (p : Cursor) : (expression bound).Spares p :=
  spares_chains (spares_factor bound) bound p

theorem spares_sign (h : isAssignment p.found) : advance.Spares p := by
  refine spares_advance fun hfound => ?_
  rw [hfound] at h
  cases h

theorem spares_initializer (bound : Nat) (p : Cursor) : (initializer bound).Spares p := by
  apply spares_peek_bind
  split
  · next hsign =>
    exact spares_bind (spares_sign hsign) fun _ q => spares_bind (spares_expression bound q) fun e => spares_pure _
  · exact spares_pure none p

theorem spares_moreExpressions (bound : Nat) (p : Cursor) : (moreExpressions bound).Spares p := by
  induction bound generalizing p with
  | zero => exact spares_pure [] p
  | succ bound ih =>
    apply spares_peek_bind
    split
    · next hcomma =>
      refine spares_bind (spares_advance (by simp [hcomma])) fun _ q => ?_
      exact spares_bind (spares_expression _ q) fun e q => spares_bind (ih q) fun es => spares_pure _
    · exact spares_pure [] p

theorem spares_condition (bound : Nat) (p : Cursor) : (condition bound).Spares p :=
  spares_bind (spares_expect (by decide) p) fun _ q => spares_bind (spares_expression bound q) fun e q =>
    spares_bind (spares_expect (by decide) q) fun _ => spares_pure e

/-! ## Statements before a semicolon -/

/-- Before some tokens, a semicolon and others, an answer is given behind the semicolon, or it is an error at one of
the tokens or at the semicolon; no error is kept. -/
def Halts (us : List Token) (semicolon : Token) (rest : List Token) (known : Array Unexpected) (reply : Reply α) :
    Prop :=
  reply.after.errors = known ∧ match reply with
    | .read _ q => q.unread = rest
    | .refused _ q => ∃ vs, vs <:+ us ∧ q.unread = vs ++ semicolon :: rest

variable {us rest : List Token} {semicolon : Token}

theorem Halts.mono {vs : List Token} {known : Array Unexpected} {reply : Reply α}
    (h : Halts vs semicolon rest known reply) (hvs : vs <:+ us) : Halts us semicolon rest known reply := by
  cases reply with
  | read a q => exact h
  | refused e q =>
    obtain ⟨herrors, ws, hws, hq⟩ := h
    exact ⟨herrors, ws, hws.trans hvs, hq⟩

/-- What spares semicolons stops before the first one. -/
theorem Spares.unread_eq (hs : rule.Spares p) (hp : p.unread = us ++ semicolon :: rest)
    (hend : semicolon.kind = .symbol .semicolon) :
    ∃ vs, vs <:+ us ∧ (rule.run p).after.unread = vs ++ semicolon :: rest := by
  obtain ⟨ts, hts, hspared, -⟩ := hs
  rw [hp] at hts
  rcases List.append_eq_append_iff.1 hts with ⟨vs, rfl, hvs⟩ | ⟨vs, rfl, hvs⟩
  · cases vs with
    | nil => exact ⟨[], List.nil_suffix, by simpa using hvs.symm⟩
    | cons t vs =>
      rw [List.cons_append, List.cons.injEq] at hvs
      exact absurd (hvs.1 ▸ hend) (hspared t (by simp))
  · exact ⟨vs, List.suffix_append _ _, hvs⟩

theorem halts_bind (hs : rule.Spares p) (hp : p.unread = us ++ semicolon :: rest)
    (hend : semicolon.kind = .symbol .semicolon)
    (h : ∀ a q vs, vs <:+ us → q.unread = vs ++ semicolon :: rest →
      Halts vs semicolon rest q.errors ((next a).run q)) :
    Halts us semicolon rest p.errors ((rule >>= next).run p) := by
  obtain ⟨vs, hvs, hunread⟩ := hs.unread_eq hp hend
  obtain ⟨-, -, -, herrors⟩ := hs
  rw [run_bind]
  cases hr : rule.run p with
  | refused e q =>
    rw [hr] at hunread herrors
    exact ⟨herrors, vs, hvs, hunread⟩
  | read a q =>
    rw [hr] at hunread herrors
    rw [← herrors]
    exact (h a q vs hvs hunread).mono hvs

/-- The semicolon is the next token, or none is reached. -/
theorem halts_end (hp : p.unread = us ++ semicolon :: rest) (hend : semicolon.kind = .symbol .semicolon)
    (hus : ∀ t ∈ us, ¬ Parts t.kind) (b : β) :
    Halts us semicolon rest p.errors ((expect (.symbol .semicolon) >>= fun _ => pure b).run p) := by
  cases us with
  | nil =>
    have hfound : p.found = some (.symbol .semicolon) := Cursor.found_eq_some_iff.2 ⟨semicolon, rest, hp, hend⟩
    have hrun : (expect (.symbol .semicolon) >>= fun _ => pure b).run p =
        .read b { p with unread := p.unread.tail } := by
      rw [run_bind, expect, run_peek_bind, if_pos hfound]
      rfl
    rw [hrun]
    exact ⟨rfl, by simp [hp]⟩
  | cons t us =>
    have hfound : p.found ≠ some (.symbol .semicolon) := by
      simpa [Cursor.found, hp] using fun ht => hus t List.mem_cons_self (.inl ht)
    have hrun : (expect (.symbol .semicolon) >>= fun _ => pure b).run p =
        .refused (p.unexpected (.token (.symbol .semicolon))) p := by
      rw [run_bind, expect, run_peek_bind, if_neg hfound]
      rfl
    rw [hrun]
    exact ⟨rfl, t :: us, List.suffix_refl _, hp⟩

theorem found_ne_openBrace (hp : p.unread = us ++ semicolon :: rest) (hend : semicolon.kind = .symbol .semicolon)
    (hus : ∀ t ∈ us, ¬ Parts t.kind) : p.found ≠ some (.symbol .openBrace) := by
  cases us with
  | nil => simp [Cursor.found, hp, hend]
  | cons t us => simpa [Cursor.found, hp] using fun ht => hus t List.mem_cons_self (.inr (.inl ht))

/-- Where no brace is opened no block begins. -/
theorem run_block_refused (step : Cursor → Option Statement × Cursor) (bound : Nat)
    (hp : p.found ≠ some (.symbol .openBrace)) : ∃ e, (block step bound).run p = .refused e p := by
  have hbraced (q : Cursor) (hq : q.found = p.found) :
      (braced step bound).run q = .refused (q.unexpected (.token (.symbol .openBrace))) q := by
    rw [braced, run_bind, expect, run_peek_bind, if_neg (by rwa [hq])]
    rfl
  simp only [block, if_neg (fun h : _ ∧ _ => hp h.2), nested]
  split
  · exact ⟨_, by rw [hbraced { p with depth := p.depth + 1 } rfl]; rfl⟩
  · exact ⟨_, rfl⟩

theorem halts_block_bind {step : Cursor → Option Statement × Cursor} {bound : Nat} {next : Block → Rule β}
    (hp : p.unread = us ++ semicolon :: rest) (hend : semicolon.kind = .symbol .semicolon)
    (hus : ∀ t ∈ us, ¬ Parts t.kind) : Halts us semicolon rest p.errors ((block step bound >>= next).run p) := by
  obtain ⟨e, he⟩ := run_block_refused step bound (found_ne_openBrace hp hend hus)
  rw [run_bind, he]
  exact ⟨rfl, us, List.suffix_refl _, hp⟩

/-- Behind the first token of a statement. -/
theorem halts_advance_bind {next : Position → Rule β} (hp : p.unread = us ++ semicolon :: rest)
    (hend : semicolon.kind = .symbol .semicolon) (hfound : p.found ≠ some (.symbol .semicolon))
    (h : ∀ place q, q.unread = us.tail ++ semicolon :: rest →
      Halts us.tail semicolon rest q.errors ((next place).run q)) :
    Halts us.tail semicolon rest p.errors ((advance >>= next).run p) := by
  cases us with
  | nil => exact absurd (Cursor.found_eq_some_iff.2 ⟨semicolon, rest, hp, hend⟩) hfound
  | cons t us => exact h p.position { p with unread := p.unread.tail } (by simp [hp])

/-- A statement that begins before a semicolon ends with it, or fails before it and then only at tokens behind the
first one, unless no statement begins there. -/
theorem halts_statement (bound : Nat) (hp : p.unread = us ++ semicolon :: rest)
    (hend : semicolon.kind = .symbol .semicolon) (hus : ∀ t ∈ us, ¬ Parts t.kind) :
    Halts us.tail semicolon rest p.errors ((statement (bound + 1)).run p) ∨
      (StatementStart.of p.found = .other ∧
        (statement (bound + 1)).run p = .refused (p.unexpected .statement) p) := by
  have hfirst {start : StatementStart} (hof : StatementStart.of p.found = start) (hne : start ≠ .other) :
      p.found ≠ some (.symbol .semicolon) := StatementStart.found_ne hof hne rfl
  have hplain {vs : List Token} (hvs : vs <:+ us.tail) : ∀ t ∈ vs, ¬ Parts t.kind :=
    fun t ht => hus t (List.mem_of_mem_tail (hvs.mem ht))
  rw [statement, run_peek_bind]
  cases hof : StatementStart.of p.found with
  | other => exact .inr ⟨rfl, rfl⟩
  | declaration type =>
    refine .inl (halts_advance_bind hp hend (hfirst hof nofun) fun place q hq => ?_)
    refine halts_bind (spares_name q) hq hend fun x q vs hvs hq => ?_
    refine halts_bind (spares_initializer bound q) hq hend fun init q ws hws hq => ?_
    exact halts_end hq hend (hplain (hws.trans hvs)) _
  | assignment x =>
    refine .inl (halts_advance_bind hp hend (hfirst hof nofun) fun place q hq => ?_)
    rw [run_peek_bind]
    split
    · next hsign =>
      refine halts_bind (spares_sign hsign) hq hend fun _ q vs hvs hq => ?_
      refine halts_bind (spares_expression bound q) hq hend fun value q ws hws hq => ?_
      exact halts_end hq hend (hplain (hws.trans hvs)) _
    · exact ⟨rfl, us.tail, List.suffix_refl _, hq⟩
  | read =>
    refine .inl (halts_advance_bind hp hend (hfirst hof nofun) fun place q hq => ?_)
    refine halts_bind (spares_expect (by decide) q) hq hend fun _ q vs hvs hq => ?_
    refine halts_bind (spares_name q) hq hend fun x q ws hws hq => ?_
    refine halts_bind (spares_expect (by decide) q) hq hend fun _ q xs hxs hq => ?_
    exact halts_end hq hend (hplain (hxs.trans (hws.trans hvs))) _
  | write =>
    refine .inl (halts_advance_bind hp hend (hfirst hof nofun) fun place q hq => ?_)
    refine halts_bind (spares_expect (by decide) q) hq hend fun _ q vs hvs hq => ?_
    refine halts_bind (spares_expression bound q) hq hend fun e q ws hws hq => ?_
    refine halts_bind (spares_moreExpressions bound q) hq hend fun es q xs hxs hq => ?_
    refine halts_bind (spares_expect (by decide) q) hq hend fun _ q ys hys hq => ?_
    exact halts_end hq hend (hplain (hys.trans (hxs.trans (hws.trans hvs)))) _
  | conditional =>
    refine .inl (halts_advance_bind hp hend (hfirst hof nofun) fun place q hq => ?_)
    refine halts_bind (spares_condition bound q) hq hend fun test q vs hvs hq => ?_
    exact halts_block_bind hq hend (hplain hvs)
  | repetition =>
    refine .inl (halts_advance_bind hp hend (hfirst hof nofun) fun place q hq => ?_)
    refine halts_bind (spares_condition bound q) hq hend fun test q vs hvs hq => ?_
    exact halts_block_bind hq hend (hplain hvs)
  | block =>
    -- No brace is opened before the semicolon.
    have hopen := (StatementStart.kind?_of p.found).resolve_left (by simp [hof])
    rw [hof] at hopen
    exact absurd hopen.symm (found_ne_openBrace hp hend hus)

theorem fromBoundary_semicolon (depth : Nat) (hend : semicolon.kind = .symbol .semicolon) {vs : List Token}
    (hvs : ∀ t ∈ vs, ¬ Parts t.kind ∧ t.kind.startsStatement = false) (rest : List Token) :
    fromBoundary depth (vs ++ semicolon :: rest) = rest := by
  induction vs with
  | nil => simp [fromBoundary, hend]
  | cons t vs ih =>
    obtain ⟨⟨hparts, hstarts⟩, hvs⟩ := List.forall_mem_cons.1 hvs
    rw [List.cons_append, fromBoundary, if_neg fun h => hparts (.inr (.inr h)),
      if_neg fun h => hparts (.inr (.inl h)), if_neg fun h => hparts (.inl h), if_neg (by simp [hstarts])]
    exact ih hvs

theorem startsStatement_eq_false {kind : TokenKind} (h : StatementStart.of (some kind) = .other) :
    kind.startsStatement = false := by
  cases kind with
  | keyword k => cases k <;> first | rfl | cases h
  | symbol | name | integer | real | text => rfl

end Rule

/-! ## Tokens that are one statement at most -/

/-- Tokens up to a semicolon, none of which but the first can begin a statement and none of which is a brace; or a
closing brace alone. -/
inductive Fragment : List Token → Prop where
  | semicolon {us semicolon} (hend : semicolon.kind = .symbol .semicolon) (hus : ∀ t ∈ us, ¬ Parts t.kind)
      (hstarts : ∀ t ∈ us.tail, t.kind.startsStatement = false) : Fragment (us ++ [semicolon])
  | closeBrace {close} (hclose : close.kind = .symbol .closeBrace) : Fragment [close]

namespace Fragment

variable {ts rest : List Token} {p : Cursor} (bound : Nat)

theorem moved (h : Fragment ts) (f : Position → Position) : Fragment (ts.map (Token.moved f)) := by
  cases h with
  | @semicolon us _ hend hus hstarts =>
    rw [List.map_append]
    refine .semicolon hend (List.forall_mem_map.2 hus) ?_
    rw [← List.map_tail]
    exact List.forall_mem_map.2 hstarts
  | closeBrace hclose => exact .closeBrace hclose

/-- A statement that begins outside of every block either takes all of a fragment, or it is given up within it and
reading goes on behind it. -/
theorem run_statement (h : Fragment ts) (hp : p.unread = ts ++ rest) (hdepth : p.depth = 0) :
    ((statement (bound + 1)).run p).after.errors = p.errors ∧
      match (statement (bound + 1)).run p with
      | .read _ q => q.unread = rest
      | .refused _ q => rest.length < q.unread.length ∧ fromBoundary q.depth q.unread = rest := by
  cases h with
  | @semicolon us semicolon hend hus hstarts =>
    have hp' : p.unread = us ++ semicolon :: rest := by simpa using hp
    rcases Rule.halts_statement bound hp' hend hus with hhalts | ⟨hother, hrun⟩
    · obtain ⟨herrors, hunread⟩ := hhalts
      refine ⟨herrors, ?_⟩
      cases hrun : (statement (bound + 1)).run p with
      | read s q =>
        rw [hrun] at hunread
        exact hunread
      | refused e q =>
        rw [hrun] at hunread
        obtain ⟨vs, hvs, hq⟩ := hunread
        simp only [hq]
        refine ⟨by simp; omega, Rule.fromBoundary_semicolon _ hend (fun t ht => ?_) rest⟩
        exact ⟨hus t (List.mem_of_mem_tail (hvs.mem ht)), hstarts t (hvs.mem ht)⟩
    · rw [hrun]
      refine ⟨rfl, by simp [hp']; omega, ?_⟩
      rw [hp']
      refine Rule.fromBoundary_semicolon _ hend (fun t ht => ⟨hus t ht, ?_⟩) rest
      cases us with
      | nil => cases ht
      | cons u us =>
        rcases List.mem_cons.1 ht with rfl | ht
        · exact Rule.startsStatement_eq_false (by simpa [Cursor.found, hp'] using hother)
        · exact hstarts t ht
  | @closeBrace close hclose =>
    have hrun : (statement (bound + 1)).run p = .refused (p.unexpected .statement) p := by
      have hfound : p.found = some (.symbol .closeBrace) := by simp [Cursor.found, hp, hclose]
      rw [statement, Rule.run_peek_bind, hfound]
      rfl
    rw [hrun]
    exact ⟨rfl, by simp [hp], by simp [hp, hdepth, fromBoundary, hclose]⟩

/-- A fragment that is given up costs one error. -/
theorem attempt_refused (h : Fragment ts) (hp : p.unread = ts ++ rest) (hdepth : p.depth = 0) {e : Unexpected}
    {q : Cursor} (hrun : (statement (bound + 1)).run p = .refused e q) :
    attempt (statement (bound + 1)) p = (none, ⟨rest, p.stop, 0, p.errors.push e⟩) := by
  have hfragment := h.run_statement bound hp hdepth
  have hleads := Rule.leads_run (statement (bound + 1)) p
  have hbalanced : ((statement (bound + 1)).run p).after.depth = p.depth := Rule.Balanced.depth_eq p
  rw [hrun] at hfragment hleads hbalanced
  obtain ⟨herrors, hlen, hboundary⟩ := hfragment
  have hle := hleads.unread_suffix.length_le
  simp only [Reply.after] at herrors hle hbalanced
  have hstop : q.stop = p.stop := hleads.stop_eq
  simp only [attempt, hrun, hboundary]
  rw [if_neg (by omega), hstop, hbalanced, hdepth, herrors]

theorem ne_nil (h : Fragment ts) : ts ≠ [] := by
  cases h <;> simp

/-- Behind a fragment that was given up the other statements are read as ever. -/
theorem many_refused (h : Fragment ts) (hp : p.unread = ts ++ rest) (hdepth : p.depth = 0) {e : Unexpected}
    {q : Cursor} (hrun : (statement (bound + 1)).run p = .refused e q) (count : Nat) :
    many endsProgram (attempt (statement (bound + 1))) (count + 1) p =
      many endsProgram (attempt (statement (bound + 1))) count ⟨rest, p.stop, 0, p.errors.push e⟩ := by
  have hgoes : endsProgram p.found = false := by
    obtain ⟨t, us, rfl⟩ := List.exists_cons_of_ne_nil h.ne_nil
    simp [endsProgram, Cursor.found, hp]
  rw [many, hgoes, if_neg (by simp), h.attempt_refused bound hp hdepth hrun]
  rfl

/-- A fragment that is no program tells one error, and tells it within the fragment. -/
theorem statements_alone (h : Fragment ts) (stop : Position)
    (hfails : (statements (.start ts stop)).2.errors ≠ #[]) :
    ∃ e q, (statement ts.length).run (.start ts stop) = .refused e q ∧ q.unread ≠ [] ∧
      (statements (.start ts stop)).2.errors = #[e] := by
  obtain ⟨bound, hbound⟩ : ∃ k, ts.length = k + 1 := Nat.exists_eq_add_one.2 (List.length_pos_iff.2 h.ne_nil)
  have hstart : (Cursor.start ts stop).unread = ts ++ [] := (List.append_nil ts).symm
  have hfragment := h.run_statement bound hstart rfl
  have hend (count : Nat) (q : Cursor) (hq : q.unread = []) :
      many endsProgram (attempt (statement (bound + 1))) count q = ([], q) := by
    have hfound : q.found = none := Cursor.found_eq_none_iff.2 hq
    cases count with
    | zero => rfl
    | succ count => rw [many, hfound]; rfl
  rw [statements_start, hbound] at hfails ⊢
  cases hrun : (statement (bound + 1)).run (.start ts stop) with
  | read s q =>
    rw [hrun] at hfragment
    obtain ⟨herrors, hunread⟩ := hfragment
    refine absurd ?_ hfails
    have hgoes : endsProgram (Cursor.start ts stop).found = false := by
      obtain ⟨t, us, rfl⟩ := List.exists_cons_of_ne_nil h.ne_nil
      simp [endsProgram, Cursor.found, Cursor.start]
    rw [many, hgoes, if_neg (by simp)]
    simp only [attempt, hrun, hend bound q hunread]
    exact herrors
  | refused e q =>
    rw [h.many_refused bound hstart rfl hrun, hend _ _ rfl]
    rw [hrun] at hfragment
    exact ⟨e, q, rfl, List.length_pos_iff.1 (by simpa using hfragment.2.1), rfl⟩

/-- What is behind a fragment does not change how it is given up. -/
theorem refused_between (h : Fragment ts) {stop : Position} {e : Unexpected} {q : Cursor}
    (hrun : (statement ts.length).run (.start ts stop) = .refused e q) (hq : q.unread ≠ [])
    (f : Position → Position) {p : Cursor} (hp : p.unread = ts.map (Token.moved f) ++ rest) (hdepth : p.depth = 0)
    (hlen : p.unread.length ≤ bound) : ∃ q', (statement bound).run p = .refused (e.moved f) q' := by
  have hstart : Abreast ⟨f, [], stop, []⟩ ⟨id, rest, p.stop, p.errors.toList⟩ (.start ts stop) p :=
    abreast_shifted (shifted_moved f ts) hp hdepth fun hnil => absurd hnil h.ne_nil
  have hrelated := Rule.follows_statement ts.length bound _ _ hstart (Nat.le_refl _) hlen
  rw [hrun] at hrelated
  generalize (statement bound).run p = reply at hrelated
  cases hrelated with
  | @refused _ e' _ q' he => exact ⟨q', by rw [show e.moved f = e' from he]⟩
  | beyond hopen hes hb hb' =>
    -- Tokens of the fragment are left, so what is behind it was not come to.
    obtain ⟨-, more, -, htold⟩ := hb
    exact absurd (List.suffix_nil.1 htold.suffix) hq

end Fragment

/-- Between statements that are read and the tokens of another source, a fragment costs the error that it costs alone,
and the errors of the other source come after it. -/
theorem statements_between {ss : List Statement} {n : Nat} {as ts : List Token}
    (hss : Statement.FlattensAll ss n as) (hn : n ≤ maxNesting) (hts : Fragment ts) (helse : Rule.NoElse ts)
    {stop : Position} (hfails : (statements (.start ts stop)).2.errors ≠ #[]) (f g : Position → Position)
    (bs : List Token) (stop' : Position) : ∃ e, (statements (.start ts stop)).2.errors = #[e] ∧
      (statements (.start (as ++ (ts.map (Token.moved f) ++ bs.map (Token.moved g))) (g stop'))).2.errors.toList =
        e.moved f :: (statements (.start bs stop')).2.errors.toList.map (Unexpected.moved g) := by
  obtain ⟨e, q, hrun, hq, hone⟩ := hts.statements_alone stop hfails
  refine ⟨e, hone, ?_⟩
  have hlen := hss.length_le
  have hpos := List.length_pos_iff.2 hts.ne_nil
  have hrest : Rule.NoElse (ts.map (Token.moved f) ++ bs.map (Token.moved g)) := by
    obtain ⟨t, us, rfl⟩ := List.exists_cons_of_ne_nil hts.ne_nil
    exact helse
  obtain ⟨bound, hbound⟩ : ∃ k, (as ++ (ts.map (Token.moved f) ++ bs.map (Token.moved g))).length = k + 1 :=
    Nat.exists_eq_add_one.2 (by simp; omega)
  have hsize := hbound
  simp only [List.length_append, List.length_map] at hsize
  obtain ⟨count, hcount⟩ : ∃ k, bound + 1 - ss.length = k + 1 := Nat.exists_eq_add_one.2 (by omega)
  obtain ⟨q', hrun'⟩ := hts.refused_between (bound + 1) hrun hq f
    (p := ⟨ts.map (Token.moved f) ++ bs.map (Token.moved g), g stop', 0, #[]⟩) rfl rfl (by simp; omega)
  rw [statements_start, hbound, many_append hss (by omega) (by omega) rfl (by simpa [Cursor.start] using hn) hrest]
  simp only [Cursor.start, hcount]
  rw [(hts.moved f).many_refused bound rfl rfl hrun']
  exact (statements_shifted (shifted_moved g bs) stop' #[e.moved f] (by omega) (by omega)).2

end Grammar

/-! ## Sources -/

/-- A text that is scanned without an error but is no program when a semicolon is put below it: it has no semicolon and
no brace, and neither a token behind the first that can only begin a statement nor an "else" for the first. -/
structure Program.Broken (text : String) : Prop where
  errors_eq : (tokenize text).errors = []
  plain : ∀ t ∈ (tokenize text).tokens, ¬ Grammar.Parts t.kind
  starts : ∀ t ∈ (tokenize text).tokens.tail, t.kind.startsStatement = false
  noElse : (tokenize text).tokens.head?.map Token.kind ≠ some (.keyword .senao)
  fails : ∀ program, Program.parse (text ++ "\n;") ≠ .ok program

/-- The errors of a source; a program has none. -/
def Program.complaints (source : String) : List SyntaxError :=
  match Program.parse source with
  | .ok _ => []
  | .error errors => errors

namespace Program

theorem complaints_eq (source : String) :
    complaints source =
      SyntaxError.inOrder (tokenize source).errors (Grammar.statements (tokenize source).cursor).2.errors.toList := by
  rw [complaints, parse, Grammar.programFrom]
  cases SyntaxError.inOrder (tokenize source).errors (Grammar.statements (tokenize source).cursor).2.errors.toList with
  | nil => rfl
  | cons e errors => rfl

theorem tokenize_semicolon : tokenize ";" = ⟨[⟨.symbol .semicolon, ";", ⟨1, 1⟩⟩], [], ⟨1, 2⟩⟩ := by
  decide +kernel

theorem tokenize_closeBrace : tokenize "\x7d" = ⟨[⟨.symbol .closeBrace, "\x7d", ⟨1, 1⟩⟩], [], ⟨1, 2⟩⟩ := by
  decide +kernel

/-- What is told of a source whose statements were given up. -/
theorem errors_ne_of_fails {source : String} (hlexical : (tokenize source).errors = [])
    (h : ∀ program, Program.parse source ≠ .ok program) :
    (Grammar.statements (tokenize source).cursor).2.errors ≠ #[] :=
  fun herrors => h ⟨_⟩ (Grammar.programFrom_eq_ok_iff.2 ⟨hlexical, herrors, rfl⟩)

/-- The tokens of a broken text, with the semicolon below it. -/
theorem Broken.tokenize_eq {text : String} (h : Broken text) :
    tokenize (text ++ "\n;") =
      ⟨(tokenize text).tokens ++ [⟨.symbol .semicolon, ";", Position.lower (height text) ⟨1, 1⟩⟩], [],
        Position.lower (height text) ⟨1, 2⟩⟩ := by
  have hbelow := tokenize_below (Tokens.ends_of_errors_eq_nil h.errors_eq) ";"
  rw [tokenize_semicolon, h.errors_eq, String.append_assoc] at hbelow
  exact hbelow

/-- What stands alone between two sources: one statement at most, that cannot be read. -/
theorem exists_fragment {text : String} (h : text = "\x7d" ∨ ∃ g, Broken g ∧ text = g ++ "\n;") :
    Grammar.Fragment (tokenize text).tokens ∧ Grammar.Rule.NoElse (tokenize text).tokens ∧
      (tokenize text).errors = [] ∧ (Grammar.statements (tokenize text).cursor).2.errors ≠ #[] := by
  rcases h with rfl | ⟨g, hg, rfl⟩
  · rw [tokenize_closeBrace]
    refine ⟨.closeBrace rfl, ?_, rfl, ?_⟩
    · simp [Grammar.Rule.NoElse]
    · exact nofun
  · have hlexical : (tokenize (g ++ "\n;")).errors = [] := by rw [hg.tokenize_eq]
    refine ⟨?_, ?_, hlexical, errors_ne_of_fails hlexical hg.fails⟩
    · rw [hg.tokenize_eq]
      exact .semicolon rfl hg.plain hg.starts
    · rw [hg.tokenize_eq]
      have helse := hg.noElse
      cases htokens : (tokenize g).tokens with
      | nil => simp [Grammar.Rule.NoElse]
      | cons t rest =>
        rw [htokens] at helse
        exact helse

/-- An error of a source that was moved below another one comes before what is told below them both. -/
theorem told_before {a text b : String} {e : Grammar.Unexpected}
    (he : e ∈ (Grammar.statements (tokenize text).cursor).2.errors.toList) :
    ∀ d ∈ (tokenize b).errors.map (LexicalError.moved (.lower (height (a ++ "\n" ++ text)))),
      (e.moved (.lower (height a))).position < d.position := by
  have htold := Grammar.statements_told (tokenize text).tokens (tokenize text).stop
  obtain ⟨rest, hrest, -, hposition⟩ := htold.exists_rest e he
  have hle : e.position ≤ (tokenize text).stop := by
    rw [hposition]
    exact Grammar.placeOf_le ((sorted_tokens text).sublist hrest.sublist)
      (fun t ht => token_lt_stop (hrest.mem ht)) List.nil_suffix
  intro d hd
  obtain ⟨d, hmem, rfl⟩ := List.mem_map.1 hd
  have hstart := start_le_error hmem
  have hstop := line_stop text
  have hheight := height_below a text
  rw [Position.le_def] at hle hstart
  simp only [Position.start] at hstart
  refine .inl ?_
  simp only [Grammar.Unexpected.moved, LexicalError.moved, Position.lower]
  omega

/-- A broken statement, or a closing brace that closes nothing, between a program and another source: there is the one
error that it has alone and then those that the source below it has alone, each so many lines further down as it is. -/
theorem parse_broken_between {a text : String} {program : Program} (ha : Program.parse a = .ok program)
    (htext : text = "\x7d" ∨ ∃ g, Broken g ∧ text = g ++ "\n;") (b : String) :
    ∃ e, Program.parse text = .error [e] ∧ Program.parse (a ++ "\n" ++ text ++ "\n" ++ b) =
      .error (e.moved (.lower (height a)) ::
        (complaints b).map (SyntaxError.moved (.lower (height (a ++ "\n" ++ text))))) := by
  obtain ⟨hlexical, n, hn, hall⟩ := Grammar.flattens_of_programFrom ha
  obtain ⟨hfragment, helse, htext', hfails⟩ := exists_fragment htext
  obtain ⟨e, hone, hboth⟩ := Grammar.statements_between hall hn hfragment helse hfails
    (.lower (height a)) (.lower (height (a ++ "\n" ++ text))) (tokenize b).tokens (tokenize b).stop
  have htokens := tokenize_below (Tokens.ends_of_errors_eq_nil hlexical) text
  have hends : (tokenize (a ++ "\n" ++ text)).errors = [] := by rw [htokens, hlexical, htext']; rfl
  have htokens' := tokenize_below (Tokens.ends_of_errors_eq_nil hends) b
  refine ⟨.unexpected e, parse_eq_error_iff.2 ⟨nofun, ?_⟩, parse_eq_error_iff.2 ⟨nofun, ?_⟩⟩
  · rw [htext', Tokens.cursor, hone]
    simp [SyntaxError.inOrder]
  · have hcursor : (tokenize (a ++ "\n" ++ text ++ "\n" ++ b)).cursor = .start ((tokenize a).tokens ++
        ((tokenize text).tokens.map (Token.moved (.lower (height a))) ++
          (tokenize b).tokens.map (Token.moved (.lower (height (a ++ "\n" ++ text))))))
        ((tokenize b).stop.lower (height (a ++ "\n" ++ text))) := by
      rw [Tokens.cursor, htokens', htokens, List.append_assoc]
    have he : e ∈ (Grammar.statements (tokenize text).cursor).2.errors.toList := by
      rw [Tokens.cursor, hone]
      exact List.mem_singleton.2 rfl
    rw [hcursor, hboth, htokens', hends, List.nil_append, SyntaxError.inOrder_cons (told_before he),
      SyntaxError.inOrder_lower, complaints_eq]
    rfl

theorem complaints_second : SyntaxError.inOrder (tokenize "x 3;").errors
    (Grammar.statements (tokenize "x 3;").cursor).2.errors.toList =
      [.unexpected ⟨.assignment, some (.integer 3), ⟨1, 3⟩⟩] := by
  have hlexical : (tokenize "x 3;").errors = [] := by decide +kernel
  rw [hlexical, SyntaxError.inOrder_nil]
  decide +kernel

theorem complaints_broken : SyntaxError.inOrder (tokenize "x 2\n;").errors
    (Grammar.statements (tokenize "x 2\n;").cursor).2.errors.toList =
      [.unexpected ⟨.assignment, some (.integer 2), ⟨1, 3⟩⟩] := by
  have hlexical : (tokenize "x 2\n;").errors = [] := by decide +kernel
  rw [hlexical, SyntaxError.inOrder_nil]
  decide +kernel

theorem tokenize_broken : tokenize "x 2" =
    ⟨[⟨.name "x", "x", ⟨1, 1⟩⟩, ⟨.integer 2, "2", ⟨1, 3⟩⟩], [], ⟨1, 4⟩⟩ := by
  decide +kernel

/-- An assignment without a sign hides nothing of another one below it. -/
theorem parse_broken_between_missing_sign :
    Program.parse "var x = 1;" = .ok ⟨[.declaration "x" none (some (.literal (.integer 1) ⟨1, 9⟩)) ⟨1, 1⟩]⟩ ∧
    Broken "x 2" ∧
    Program.parse ("var x = 1;" ++ "\n" ++ "x 2\n;" ++ "\n" ++ "x 3;") =
      .error [.unexpected ⟨.assignment, some (.integer 2), ⟨2, 3⟩⟩,
        .unexpected ⟨.assignment, some (.integer 3), ⟨4, 3⟩⟩] := by
  have hfails := parse_eq_error_iff.2 ⟨List.cons_ne_nil _ _, complaints_broken.symm⟩
  have hbroken : Broken "x 2" := by
    refine ⟨by rw [tokenize_broken], ?_, ?_, ?_, ?_⟩
    · rw [tokenize_broken]
      simp [Grammar.Parts]
    · rw [tokenize_broken]
      decide
    · rw [tokenize_broken]
      decide
    · intro program hok
      cases hok.symm.trans hfails
  obtain ⟨e, he, hboth⟩ := parse_broken_between parse_line (.inr ⟨_, hbroken, rfl⟩) "x 3;"
  cases he.symm.trans hfails
  refine ⟨parse_line, hbroken, ?_⟩
  rw [complaints_eq, complaints_second] at hboth
  exact hboth

end Program
end Portugol
