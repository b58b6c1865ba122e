import Portugol.Proofs.Grammar.Flattening

/-! # What can be said of a rule

Four things are said of the rules of the grammar, of the parts of a rule first and then of what is put together
from them.

* A rule is orderly (`Rule.Orderly`): it only passes over tokens and only adds errors, whatever it answers.
* A rule is balanced (`Rule.Balanced`): it goes back to the nesting of its beginning, whatever it answers.
* A rule reads certain results (`Rule.Reads`): if it succeeds and adds no error, then the tokens that it passed
  over are those of its result, and the nesting that they take was there.
* A rule answers certain tokens (`Rule.Answers`): where they come next it gives their result and stops behind
  them; but if the nesting that they take is not there, then the first error that it tells is that one. -/
namespace Portugol.Grammar

namespace Cursor

/-- Nothing is read again and no error is forgotten. -/
structure Leads (p q : Cursor) : Prop where
  stop_eq : q.stop = p.stop
  unread_suffix : q.unread <:+ p.unread
  errors_kept : p.errors.toList <+: q.errors.toList

theorem Leads.refl (p : Cursor) : p.Leads p := ⟨rfl, List.suffix_refl _, List.prefix_refl _⟩

theorem Leads.trans {p q r : Cursor} (h : p.Leads q) (h' : q.Leads r) : p.Leads r :=
  ⟨h'.stop_eq.trans h.stop_eq, h'.unread_suffix.trans h.unread_suffix, h.errors_kept.trans h'.errors_kept⟩

/-- Between cursors with the same errors none were added. -/
theorem Leads.errors_eq {p q r : Cursor} (h : p.Leads q) (h' : q.Leads r) (heq : r.errors = p.errors) :
    q.errors = p.errors := by
  have hle := h'.errors_kept.length_le
  rw [heq] at hle
  exact Array.toList_inj.1 (h.errors_kept.eq_of_length_le hle).symm

/-- The tokens lie between two cursors, and the nesting that they take is there. -/
structure Passes (p : Cursor) (n : Nat) (tokens : List Token) (q : Cursor) : Prop where
  unread_eq : p.unread = tokens ++ q.unread
  depth_eq : q.depth = p.depth
  room : p.depth ≤ maxNesting → p.depth + n ≤ maxNesting

theorem Passes.refl (p : Cursor) : p.Passes 0 [] p := ⟨rfl, rfl, id⟩

theorem Passes.trans {p q r : Cursor} {m n : Nat} {ts us : List Token} (h : p.Passes m ts q)
    (h' : q.Passes n us r) : p.Passes (max m n) (ts ++ us) r where
  unread_eq := by rw [h.unread_eq, h'.unread_eq, List.append_assoc]
  depth_eq := h'.depth_eq.trans h.depth_eq
  room hp := by
    have hm := h.room hp
    have hn := h'.room (h.depth_eq ▸ hp)
    rw [h.depth_eq] at hn
    omega

theorem found_eq_some_iff {p : Cursor} {kind : TokenKind} :
    p.found = some kind ↔ ∃ t rest, p.unread = t :: rest ∧ t.kind = kind := by
  cases h : p.unread <;> simp [found, h]

theorem found_eq_none_iff {p : Cursor} : p.found = none ↔ p.unread = [] := by
  cases h : p.unread <;> simp [found, h]

/-- What is next is what a token stands for, unless nothing is. -/
theorem exists_token {p : Cursor} {kind? : Option TokenKind} (h : kind? = p.found) (hsome : p.found ≠ none) :
    ∃ t rest, p.unread = t :: rest ∧ kind? = some t.kind := by
  obtain ⟨kind, hkind⟩ := Option.ne_none_iff_exists'.1 hsome
  obtain ⟨t, rest, hp, ht⟩ := found_eq_some_iff.1 hkind
  exact ⟨t, rest, hp, by rw [h, hkind, ht]⟩

end Cursor

namespace Reply

variable {α β : Type}

/-- All errors that a reply tells: those that its cursor has gathered, and then its own. -/
def reported : Reply α → List Unexpected
  | .read _ q => q.errors.toList
  | .refused e q => q.errors.toList ++ [e]

/-- The first error that is told beyond the known ones is that the nesting is too deep. -/
def TooDeep (known : List Unexpected) (reply : Reply α) : Prop :=
  ∃ e more, reply.reported = known ++ e :: more ∧ e.expected = .shallowerNesting

theorem errors_kept_reported (reply : Reply α) : reply.after.errors.toList <+: reply.reported := by
  cases reply with
  | read => exact List.prefix_refl _
  | refused e q => exact List.prefix_append _ _

/-- What is told beyond the first error does not matter. -/
theorem TooDeep.mono {known : List Unexpected} {reply : Reply α} {reply' : Reply β} (h : reply.TooDeep known)
    (hle : reply.reported <+: reply'.reported) : reply'.TooDeep known := by
  obtain ⟨e, more, heq, he⟩ := h
  obtain ⟨rest, hrest⟩ := hle
  exact ⟨e, more ++ rest, by rw [← hrest, heq, List.append_assoc, List.cons_append], he⟩

@[simp] theorem after_leaving (f : Cursor → Cursor) (reply : Reply α) :
    (reply.leaving f).after = f reply.after := by
  cases reply <;> rfl

theorem TooDeep.leaving {known : List Unexpected} {reply : Reply α} (h : reply.TooDeep known)
    {f : Cursor → Cursor} (hf : ∀ q, (f q).errors = q.errors) : (reply.leaving f).TooDeep known := by
  have hsame : (reply.leaving f).reported = reply.reported := by
    cases reply <;> simp [Reply.leaving, reported, hf]
  exact h.mono (hsame ▸ List.prefix_refl _)

end Reply

namespace Rule

variable {α β : Type}

/-- However a rule ends, it has only passed over tokens and only added errors. -/
class Orderly (rule : Rule α) : Prop where
  leads (p : Cursor) : p.Leads (rule.run p).after

/-- However a rule ends, the nesting is that of its beginning. -/
class Balanced (rule : Rule α) : Prop where
  depth_eq (p : Cursor) : (rule.run p).after.depth = p.depth

/-- A rule succeeds and adds no error. -/
structure Gives (rule : Rule α) (p : Cursor) (a : α) (q : Cursor) : Prop where
  run_eq : rule.run p = .read a q
  errors_eq : q.errors = p.errors

/-- Where a rule succeeds and adds no error, the tokens it passes over are as they should be for its result. -/
def Reads (rule : Rule α) (result : α → Nat → List Token → Prop) : Prop :=
  ∀ p a q, rule.Gives p a q → ∃ n tokens, p.Passes n tokens q ∧ result a n tokens

/-- Before certain tokens and then others, a rule gives a result and leaves the others; but if the nesting is
not there, the first error that it adds is that one. -/
def Answers (rule : Rule α) (a : α) (n : Nat) (tokens rest : List Token) : Prop :=
  ∀ p : Cursor, p.unread = tokens ++ rest → p.depth ≤ maxNesting →
    (p.depth + n ≤ maxNesting → rule.run p = .read a { p with unread := rest }) ∧
    (maxNesting < p.depth + n → (rule.run p).TooDeep p.errors.toList)

/-- What `Orderly` says, for a rule that is named. -/
theorem leads_run (rule : Rule α) [h : rule.Orderly] (p : Cursor) : p.Leads (rule.run p).after := h.leads p

theorem run_peek_bind (next : Option TokenKind → Rule β) (p : Cursor) :
    (peek >>= next).run p = (next p.found).run p := rfl

/-! ## Orderly rules -/

instance (a : α) : Orderly (pure a) := ⟨Cursor.Leads.refl⟩

instance (rule : Rule α) (next : α → Rule β) [h : rule.Orderly] [h' : ∀ a, (next a).Orderly] :
    (rule >>= next).Orderly where
  leads p := by
    have hp := h.leads p
    rw [run_bind]
    cases hr : rule.run p with
    | read a q =>
      rw [hr] at hp
      exact hp.trans ((h' a).leads q)
    | refused e q =>
      rw [hr] at hp
      exact hp

instance (c : Prop) [Decidable c] (rule rule' : Rule α) [h : rule.Orderly] [h' : rule'.Orderly] :
    (if c then rule else rule').Orderly := by
  split
  · exact h
  · exact h'

instance (expected : Expectation) : Orderly (refuse (α := α) expected) := ⟨Cursor.Leads.refl⟩

instance : Orderly peek := ⟨Cursor.Leads.refl⟩

instance : Orderly advance := ⟨fun _ => ⟨rfl, List.tail_suffix _, List.prefix_refl _⟩⟩

instance (kind : TokenKind) : Orderly (expect kind) := by
  unfold expect
  infer_instance

instance : Orderly name where
  leads p := by
    rw [name, run_peek_bind]
    split
    · exact Orderly.leads p
    · exact Orderly.leads p

instance (rule : Rule α) [h : rule.Orderly] : (nested rule).Orderly where
  leads p := by
    simp only [nested]
    split
    · have hp := h.leads { p with depth := p.depth + 1 }
      rw [Reply.after_leaving]
      exact ⟨hp.stop_eq, hp.unread_suffix, hp.errors_kept⟩
    · exact Orderly.leads p

/-! ## Balanced rules -/

instance (a : α) : Balanced (pure a) := ⟨fun _ => rfl⟩

instance (rule : Rule α) (next : α → Rule β) [h : rule.Balanced] [h' : ∀ a, (next a).Balanced] :
    (rule >>= next).Balanced where
  depth_eq p := by
    have hp := h.depth_eq p
    rw [run_bind]
    cases hr : rule.run p with
    | read a q =>
      rw [hr] at hp
      exact ((h' a).depth_eq q).trans hp
    | refused e q =>
      rw [hr] at hp
      exact hp

instance (c : Prop) [Decidable c] (rule rule' : Rule α) [h : rule.Balanced] [h' : rule'.Balanced] :
    (if c then rule else rule').Balanced := by
  split
  · exact h
  · exact h'

instance (expected : Expectation) : Balanced (refuse (α := α) expected) := ⟨fun _ => rfl⟩

instance : Balanced peek := ⟨fun _ => rfl⟩

instance : Balanced advance := ⟨fun _ => rfl⟩

instance (kind : TokenKind) : Balanced (expect kind) := by
  unfold expect
  infer_instance

instance (rule : Rule α) [h : rule.Balanced] : (nested rule).Balanced where
  depth_eq p := by
    simp only [nested]
    split
    · rw [Reply.after_leaving, h.depth_eq]
      rfl
    · exact Balanced.depth_eq p

/-! ## Succeeding without an error -/

theorem gives_pure {a b : α} {p q : Cursor} (h : (pure a : Rule α).Gives p b q) : b = a ∧ q = p := by
  have := h.run_eq
  simp only [run_pure, Reply.read.injEq] at this
  exact ⟨this.1.symm, this.2.symm⟩

theorem not_gives_refuse {expected : Expectation} {p q : Cursor} {a : α}
    (h : (refuse expected : Rule α).Gives p a q) : False :=
  nomatch h.run_eq

theorem gives_bind {rule : Rule α} {next : α → Rule β} [rule.Orderly] [∀ a, (next a).Orderly] {p r : Cursor}
    {b : β} (h : (rule >>= next).Gives p b r) : ∃ a q, rule.Gives p a q ∧ (next a).Gives q b r := by
  have hrun := h.run_eq
  rw [run_bind] at hrun
  cases hr : rule.run p with
  | refused e q =>
    rw [hr] at hrun
    cases hrun
  | read a q =>
    rw [hr] at hrun
    have hp : p.Leads q := by simpa [hr, Reply.after] using leads_run rule p
    have hq : q.Leads r := by simpa [hrun, Reply.after] using leads_run (next a) q
    have heq := hp.errors_eq hq h.errors_eq
    exact ⟨a, q, ⟨hr, heq⟩, hrun, h.errors_eq.trans heq.symm⟩

theorem gives_peek_bind {next : Option TokenKind → Rule β} {p q : Cursor} {b : β} :
    (peek >>= next).Gives p b q ↔ (next p.found).Gives p b q := by
  constructor
  · exact fun h => ⟨h.run_eq, h.errors_eq⟩
  · exact fun h => ⟨h.run_eq, h.errors_eq⟩

theorem gives_advance {p q : Cursor} {place : Position} {t : Token} {rest : List Token}
    (h : advance.Gives p place q) (hp : p.unread = t :: rest) : place = t.position ∧ p.Passes 0 [t] q := by
  have := h.run_eq
  simp only [advance, Reply.read.injEq] at this
  obtain ⟨rfl, rfl⟩ := this
  exact ⟨by simp [Cursor.position, hp], by simp [hp], rfl, id⟩

theorem gives_expect {kind : TokenKind} {p q : Cursor} {place : Position} (h : (expect kind).Gives p place q) :
    ∃ t, t.kind = kind ∧ place = t.position ∧ p.Passes 0 [t] q := by
  rw [expect, gives_peek_bind] at h
  split at h
  · next hf =>
    obtain ⟨t, rest, hp, ht⟩ := Cursor.found_eq_some_iff.1 hf
    obtain ⟨hplace, hq⟩ := gives_advance h hp
    exact ⟨t, ht, hplace, hq⟩
  · exact (not_gives_refuse h).elim

theorem gives_name {p q : Cursor} {x : String} (h : name.Gives p x q) :
    ∃ t, t.kind = .name x ∧ p.Passes 0 [t] q := by
  rw [name, gives_peek_bind] at h
  split at h
  · next y hf =>
    obtain ⟨t, rest, hp, ht⟩ := Cursor.found_eq_some_iff.1 hf
    obtain ⟨place, r, hr, h⟩ := gives_bind h
    obtain ⟨rfl, rfl⟩ := gives_pure h
    exact ⟨t, ht, (gives_advance hr hp).2⟩
  · exact (not_gives_refuse h).elim

/-- What is read one level deeper takes one level more. -/
theorem gives_nested {rule : Rule α} {p q : Cursor} {a : α} (h : (nested rule).Gives p a q) :
    ∃ r, rule.Gives { p with depth := p.depth + 1 } a r ∧
      ∀ n tokens, Cursor.Passes { p with depth := p.depth + 1 } n tokens r → p.Passes (n + 1) tokens q := by
  have hrun := h.run_eq
  simp only [nested] at hrun
  split at hrun
  · next hd =>
    cases hr : rule.run { p with depth := p.depth + 1 } with
    | refused e r =>
      rw [hr] at hrun
      cases hrun
    | read b r =>
      rw [hr] at hrun
      simp only [Reply.leaving, Reply.read.injEq] at hrun
      obtain ⟨rfl, rfl⟩ := hrun
      refine ⟨r, ⟨hr, h.errors_eq⟩, fun n tokens hpass => ⟨hpass.unread_eq, ?_, fun _ => ?_⟩⟩
      · simp [hpass.depth_eq]
      · have := hpass.room hd
        simp only at this
        omega
  · cases hrun

/-! ## Answering tokens -/

theorem answers_pure (a : α) (rest : List Token) : (pure a : Rule α).Answers a 0 [] rest := by
  intro p hp hd
  obtain rfl : p.unread = rest := hp
  exact ⟨fun _ => rfl, fun h => absurd h (by omega)⟩

theorem answers_peek_bind {next : Option TokenKind → Rule β} {b : β} {n : Nat} {tokens rest : List Token}
    (h : (next ((tokens ++ rest).head?.map Token.kind)).Answers b n tokens rest) :
    (peek >>= next).Answers b n tokens rest := by
  intro p hp hd
  have hf : p.found = (tokens ++ rest).head?.map Token.kind := by rw [Cursor.found, hp]
  rw [run_peek_bind, hf]
  exact h p hp hd

/-- An error that is kept on the way stays the first: what comes after it can only add to it. -/
theorem tooDeep_bind {rule : Rule α} {next : α → Rule β} [h' : ∀ a, (next a).Orderly] {p : Cursor}
    {known : List Unexpected} (h : (rule.run p).TooDeep known) : ((rule >>= next).run p).TooDeep known := by
  rw [run_bind]
  cases hr : rule.run p with
  | read a q =>
    rw [hr] at h
    exact h.mono (((h' a).leads q).errors_kept.trans (Reply.errors_kept_reported _))
  | refused e q =>
    rw [hr] at h
    exact h

theorem answers_bind {rule : Rule α} {next : α → Rule β} [∀ a, (next a).Orderly] {a : α} {b : β} {m n : Nat}
    {ts us rest : List Token} (h : rule.Answers a m ts (us ++ rest)) (h' : (next a).Answers b n us rest) :
    (rule >>= next).Answers b (max m n) (ts ++ us) rest := by
  intro p hp hd
  obtain ⟨hfit, hdeep⟩ := h p (by rw [hp, List.append_assoc]) hd
  by_cases hm : p.depth + m ≤ maxNesting
  · have hrun : (rule >>= next).run p = (next a).run { p with unread := us ++ rest } := by
      rw [run_bind, hfit hm]
    obtain ⟨hfit', hdeep'⟩ := h' { p with unread := us ++ rest } rfl hd
    rw [hrun]
    exact ⟨fun hn => hfit' (by simp only; omega), fun hn => hdeep' (by simp only; omega)⟩
  · exact ⟨fun hn => absurd hn (by omega), fun _ => tooDeep_bind (hdeep (by omega))⟩

/-- Behind a single token that takes no nesting. -/
theorem answers_token_bind {rule : Rule α} {next : α → Rule β} [∀ a, (next a).Orderly] {a : α} {b : β} {n : Nat}
    {t : Token} {us rest : List Token} (h : rule.Answers a 0 [t] (us ++ rest))
    (h' : (next a).Answers b n us rest) : (rule >>= next).Answers b n (t :: us) rest := by
  simpa using answers_bind h h'

/-- Before tokens that take no nesting. -/
theorem answers_bind_plain {rule : Rule α} {next : α → Rule β} [∀ a, (next a).Orderly] {a : α} {b : β} {n : Nat}
    {ts us rest : List Token} (h : rule.Answers a n ts (us ++ rest)) (h' : (next a).Answers b 0 us rest) :
    (rule >>= next).Answers b n (ts ++ us) rest := by
  simpa using answers_bind h h'

theorem answers_bind_pure {rule : Rule α} {a : α} {n : Nat} {ts rest : List Token} (h : rule.Answers a n ts rest)
    (f : α → β) : (rule >>= fun a => pure (f a)).Answers (f a) n ts rest := by
  have hboth : (rule >>= fun a => pure (f a)).Answers (f a) (max n 0) (ts ++ []) rest :=
    answers_bind h (answers_pure (f a) rest)
  simpa using hboth

theorem answers_advance (t : Token) (rest : List Token) : advance.Answers t.position 0 [t] rest := by
  intro p hp hd
  refine ⟨fun _ => ?_, fun h => absurd h (by omega)⟩
  simp [advance, Cursor.position, hp]

theorem answers_expect {kind : TokenKind} {t : Token} (ht : t.kind = kind) (rest : List Token) :
    (expect kind).Answers t.position 0 [t] rest := by
  apply answers_peek_bind
  rw [if_pos (by simp [ht])]
  exact answers_advance t rest

theorem answers_name {x : String} {t : Token} (ht : t.kind = .name x) (rest : List Token) :
    name.Answers x 0 [t] rest := by
  apply answers_peek_bind
  simp only [List.cons_append, List.head?_cons, Option.map_some, ht]
  exact answers_token_bind (answers_advance t rest) (answers_pure x rest)

theorem answers_nested {rule : Rule α} {a : α} {n : Nat} {tokens rest : List Token}
    (h : rule.Answers a n tokens rest) : (nested rule).Answers a (n + 1) tokens rest := by
  intro p hp hd
  simp only [nested]
  split
  · next hlt =>
    obtain ⟨hfit, hdeep⟩ := h { p with depth := p.depth + 1 } hp hlt
    refine ⟨fun hn => ?_, fun hn => ?_⟩
    · rw [hfit (by simp only; omega)]
      rfl
    · exact (hdeep (by simp only; omega)).leaving fun _ => rfl
  · refine ⟨fun hn => absurd hn (by omega), fun _ => ?_⟩
    exact ⟨p.unexpected .shallowerNesting, [], rfl, rfl⟩

end Rule
end Portugol.Grammar
