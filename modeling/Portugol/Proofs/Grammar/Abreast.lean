import Mathlib.Data.List.Forall2
import Portugol.Proofs.Grammar.Errors
import Portugol.Proofs.Grammar.Progress
import Portugol.Proofs.Syntax.Places

/-! # Two ways side by side

Rules see what tokens stand for and how many there are, but not where they are. So two ways through tokens that stand
for the same, at the same nesting, stay side by side (`Abreast`): the rules answer alike, and what they answer differs
in the positions only (`Related`). Rules that keep to this follow each other (`Follows`); they may have different
bounds, as long as these suffice.

Behind the tokens that are compared there may be others, and these may differ. Then the errors are alike up to where
the two ways come to these others, and from there on nothing is said of the errors but that they are told there
(`Related.beyond`). -/
namespace Portugol.Grammar

def Unexpected.moved (f : Position → Position) (e : Unexpected) : Unexpected := { e with position := f e.position }

instance : Placed Unexpected := ⟨Unexpected.moved⟩

/-- One of two ways: how its positions are seen when they are compared, which tokens stand behind those that are
compared, where the source ends, and which errors were known before. -/
structure Side where
  view : Position → Position
  tail : List Token
  stop : Position
  known : List Unexpected

section
variable (l r : Side)

/-- Nothing stands behind the tokens that are compared. -/
def Closed : Prop := l.tail = [] ∧ r.tail = [] ∧ l.view l.stop = r.view r.stop

/-- The same for who sees positions as the two sides do. -/
def Same {α : Type} [Placed α] (a a' : α) : Prop := Placed.moved l.view a = Placed.moved r.view a'

/-- Tokens that stand for the same at the same place. -/
def Alike (t t' : Token) : Prop := t.kind = t'.kind ∧ Same l r t.position t'.position

/-- The tokens that are compared are not yet passed over, but for some of them. -/
def Facing (us us' : List Token) : Prop :=
  ∃ ws ws', us = ws ++ l.tail ∧ us' = ws' ++ r.tail ∧ List.Forall₂ (Alike l r) ws ws'

/-- At the same nesting, with errors that were told alike. -/
structure Paired (p p' : Cursor) : Prop where
  stop_left : p.stop = l.stop
  stop_right : p'.stop = r.stop
  depth_eq : p'.depth = p.depth
  errors : ∃ es es', p.errors.toList = l.known ++ es ∧ p'.errors.toList = r.known ++ es' ∧ Same l r es es'

/-- Before the same tokens, of which some are left unless nothing stands behind them. -/
structure Abreast (p p' : Cursor) : Prop extends Paired l r p p' where
  facing : Facing l r p.unread p'.unread
  closed : p.unread = l.tail → Closed l r

end

/-- A way has passed over the tokens that are compared, after these errors; others were told only behind them. -/
def Side.Beyond {α : Type} (s : Side) (es : List Unexpected) (reply : Reply α) : Prop :=
  reply.after.stop = s.stop ∧
    ∃ more, reply.reported = s.known ++ (es ++ more) ∧ Told s.stop s.tail more reply.after.unread

/-- Answers alike, up to where the tokens that are compared are passed over. -/
inductive Related (l r : Side) {α : Type} [Placed α] : Reply α → Reply α → Prop where
  | read {a a' q q'} (ha : Same l r a a') (hq : Abreast l r q q') : Related l r (.read a q) (.read a' q')
  | refused {e e' q q'} (he : Same l r e e') (hq : Abreast l r q q') : Related l r (.refused e q) (.refused e' q')
  | beyond {reply reply' es es'} (hopen : ¬ Closed l r) (hes : Same l r es es') (h : l.Beyond es reply)
      (h' : r.Beyond es' reply') : Related l r reply reply'

variable {l r : Side} {p p' q q' : Cursor}

theorem Same.append {es es' fs fs' : List Unexpected} (h : Same l r es es') (h' : Same l r fs fs') :
    Same l r (es ++ fs) (es' ++ fs') := by
  simp only [Same, Placed.moved, List.map_append] at h h' ⊢
  rw [h, h']

theorem Same.singleton {e e' : Unexpected} (h : Same l r e e') : Same l r [e] [e'] := by
  simpa [Same, Placed.moved] using h

/-! ## What is seen from two cursors -/

theorem Facing.of_suffixes (hclosed : Closed l r) {us us' : List Token} (h : us <:+ l.tail) (h' : us' <:+ r.tail) :
    Facing l r us us' := by
  rw [hclosed.1, List.suffix_nil] at h
  rw [hclosed.2.1, List.suffix_nil] at h'
  exact ⟨[], [], by rw [h, hclosed.1]; rfl, by rw [h', hclosed.2.1]; rfl, .nil⟩

namespace Abreast

theorem withDepth (h : Abreast l r p p') (d : Nat) :
    Abreast l r { p with depth := d } { p' with depth := d } :=
  ⟨⟨h.stop_left, h.stop_right, rfl, h.errors⟩, h.facing, h.closed⟩

/-- Either the same token is next on both sides, or both are at the end. -/
theorem cases_next (h : Abreast l r p p') :
    (Closed l r ∧ p.unread = [] ∧ p'.unread = []) ∨
      ∃ t t' us us', p.unread = t :: us ∧ p'.unread = t' :: us' ∧ Alike l r t t' ∧ Facing l r us us' := by
  obtain ⟨ws, ws', hus, hus', hall⟩ := h.facing
  cases hall with
  | nil =>
    have hclosed := h.closed hus
    exact .inl ⟨hclosed, by rw [hus, hclosed.1]; rfl, by rw [hus', hclosed.2.1]; rfl⟩
  | @cons t t' ws ws' ht hall => exact .inr ⟨t, t', _, _, hus, hus', ht, ws, ws', rfl, rfl, hall⟩

theorem found_eq (h : Abreast l r p p') : p'.found = p.found := by
  rcases h.cases_next with ⟨-, hp, hp'⟩ | ⟨t, t', us, us', hp, hp', ht, -⟩
  · simp [Cursor.found, hp, hp']
  · simp [Cursor.found, hp, hp', ht.1]

theorem position_same (h : Abreast l r p p') : Same l r p.position p'.position := by
  rcases h.cases_next with ⟨hclosed, hp, hp'⟩ | ⟨t, t', us, us', hp, hp', ht, -⟩
  · rw [Cursor.position, Cursor.position, hp, hp', h.stop_left, h.stop_right]
    exact hclosed.2.2
  · rw [Cursor.position, Cursor.position, hp, hp']
    exact ht.2

theorem unexpected_same (h : Abreast l r p p') (expected : Expectation) :
    Same l r (p.unexpected expected) (p'.unexpected expected) := by
  have hposition : l.view p.position = r.view p'.position := h.position_same
  simp only [Same, Placed.moved, Unexpected.moved, Cursor.unexpected, h.found_eq, hposition]

theorem unread_eq_nil (h : Abreast l r p p') (hp : p'.unread = []) : p.unread = [] := by
  rw [← Cursor.found_eq_none_iff] at hp ⊢
  rw [← h.found_eq, hp]

end Abreast

/-- Side by side, or behind all that is compared. -/
theorem Paired.abreast_or (hpaired : Paired l r q q')
    (h : Facing l r q.unread q'.unread ∨ (q.unread <:+ l.tail ∧ q'.unread <:+ r.tail)) :
    Abreast l r q q' ∨ (¬ Closed l r ∧ q.unread <:+ l.tail ∧ q'.unread <:+ r.tail) := by
  by_cases hclosed : Closed l r
  · have hfacing : Facing l r q.unread q'.unread := h.elim id fun hs => .of_suffixes hclosed hs.1 hs.2
    exact .inl ⟨hpaired, hfacing, fun _ => hclosed⟩
  · rcases h with hfacing | hsuffixes
    -- Where other tokens stand behind, the two ways part as soon as none is left that is compared.
    · by_cases hend : q.unread = l.tail
      · obtain ⟨ws, ws', hus, hus', hall⟩ := hfacing
        have hws : ws = [] := by
          rw [hus] at hend
          exact List.append_left_eq_self.1 hend
        subst hws
        cases hall
        exact .inr ⟨hclosed, hend ▸ List.suffix_refl _, hus' ▸ List.suffix_refl _⟩
      · exact .inl ⟨hpaired, hfacing, fun h => absurd h hend⟩
    · exact .inr ⟨hclosed, hsuffixes⟩

/-- Nothing is told behind the tokens that are compared. -/
theorem Side.Beyond.of_reported {s : Side} {es : List Unexpected} {α : Type} {reply : Reply α}
    (hstop : reply.after.stop = s.stop) (hreported : reply.reported = s.known ++ es)
    (hs : reply.after.unread <:+ s.tail) : s.Beyond es reply :=
  ⟨hstop, [], by rw [hreported, List.append_nil], .none hs⟩

namespace Related

variable {α : Type} [Placed α]

theorem of_read {a a' : α} (ha : Same l r a a') (hpaired : Paired l r q q')
    (h : Facing l r q.unread q'.unread ∨ (q.unread <:+ l.tail ∧ q'.unread <:+ r.tail)) :
    Related l r (.read a q) (.read a' q') := by
  rcases hpaired.abreast_or h with hq | ⟨hopen, hs, hs'⟩
  · exact .read ha hq
  · obtain ⟨es, es', hes, hes', hsame⟩ := hpaired.errors
    exact .beyond hopen hsame (.of_reported hpaired.stop_left hes hs) (.of_reported hpaired.stop_right hes' hs')

theorem of_refused {e e' : Unexpected} (he : Same l r e e') (hpaired : Paired l r q q')
    (h : Facing l r q.unread q'.unread ∨ (q.unread <:+ l.tail ∧ q'.unread <:+ r.tail)) :
    Related (α := α) l r (.refused e q) (.refused e' q') := by
  rcases hpaired.abreast_or h with hq | ⟨hopen, hs, hs'⟩
  · exact .refused he hq
  · obtain ⟨es, es', hes, hes', hsame⟩ := hpaired.errors
    refine .beyond hopen (hsame.append he.singleton) (.of_reported hpaired.stop_left ?_ hs)
      (.of_reported hpaired.stop_right ?_ hs')
    · simp [Reply.reported, hes]
    · simp [Reply.reported, hes']

end Related

/-! ## Rules that follow each other -/

namespace Side.Beyond

variable {s : Side} {es : List Unexpected} {α β : Type}

/-- Behind the tokens that are compared nothing leads back. -/
theorem bind {rule : Rule α} {next : α → Rule β} [ho : ∀ a, (next a).Orderly]
    [h' : ∀ a, (next a).Candid] (h : s.Beyond es (rule.run p)) : s.Beyond es ((rule >>= next).run p) := by
  rw [Rule.run_bind]
  cases hr : rule.run p with
  | refused e q =>
    rw [hr] at h
    exact h
  | read a q =>
    rw [hr] at h
    obtain ⟨hstop, more, hmore, htold⟩ := h
    obtain ⟨fs, hfs, htold'⟩ := (h' a).tells q
    simp only [Reply.after, Reply.reported] at hstop hmore htold
    rw [hstop] at htold'
    refine ⟨((ho a).leads q).stop_eq.trans hstop, more ++ fs, ?_, htold.trans htold'⟩
    rw [hfs, hmore]
    simp only [List.append_assoc]

theorem leaving {reply : Reply α} (h : s.Beyond es reply) (g : Nat → Nat) :
    s.Beyond es (reply.leaving fun q => { q with depth := g q.depth }) := by
  cases reply <;> exact h

end Side.Beyond

variable {α β : Type} [Placed α] [Placed β]

theorem Related.leaving {reply reply' : Reply α} (h : Related l r reply reply') (g : Nat → Nat) :
    Related l r (reply.leaving fun q => { q with depth := g q.depth })
      (reply'.leaving fun q => { q with depth := g q.depth }) := by
  cases h with
  | read ha hq =>
    simp only [Reply.leaving, hq.depth_eq]
    exact .read ha (hq.withDepth _)
  | refused he hq =>
    simp only [Reply.leaving, hq.depth_eq]
    exact .refused he (hq.withDepth _)
  | beyond hopen hes h h' => exact .beyond hopen hes (h.leaving g) (h'.leaving g)

namespace Rule

/-- From cursors side by side, before so many tokens at most, two rules answer alike. -/
def Follows (l r : Side) (n m : Nat) (rule rule' : Rule α) : Prop :=
  ∀ p p', Abreast l r p p' → p.unread.length ≤ n → p'.unread.length ≤ m → Related l r (rule.run p) (rule'.run p')

/-- The same where a certain token is next. -/
def FollowsAt (l r : Side) (kind : TokenKind) (n m : Nat) (rule rule' : Rule α) : Prop :=
  ∀ p p', Abreast l r p p' → p.found = some kind → p.unread.length ≤ n → p'.unread.length ≤ m →
    Related l r (rule.run p) (rule'.run p')

variable {n m : Nat} {kind : TokenKind} {rule rule' : Rule α} {next next' : α → Rule β}

theorem Follows.mono {n' m' : Nat} (h : Follows l r n m rule rule') (hn : n' ≤ n) (hm : m' ≤ m) :
    Follows l r n' m' rule rule' :=
  fun p p' hp hlen hlen' => h p p' hp (Nat.le_trans hlen hn) (Nat.le_trans hlen' hm)

theorem Follows.related (h : Follows l r n m rule rule') (hp : Abreast l r p p') (hlen : p.unread.length ≤ n)
    (hlen' : p'.unread.length ≤ m) : Related l r (rule.run p) (rule'.run p') :=
  h p p' hp hlen hlen'

theorem Follows.at (h : Follows l r n m rule rule') (kind : TokenKind) : FollowsAt l r kind n m rule rule' :=
  fun p p' hp _ hlen hlen' => h p p' hp hlen hlen'

/-- At the end of the source, where no bound is needed, and before any token. -/
theorem follows_succ (hend : ∀ p p', Abreast l r p p' → p.found = none → Related l r (rule.run p) (rule'.run p'))
    (hsome : ∀ kind, FollowsAt l r kind n m rule rule') : Follows l r n m rule rule' := by
  intro p p' hp hlen hlen'
  cases hfound : p.found with
  | none => exact hend p p' hp hfound
  | some kind => exact hsome kind p p' hp hfound hlen hlen'

/-- A bound of zero suffices at the end of the source only. -/
theorem follows_zero (hzero : n = 0 ∨ m = 0)
    (hend : ∀ p p', Abreast l r p p' → p.found = none → Related l r (rule.run p) (rule'.run p')) :
    Follows l r n m rule rule' := by
  intro p p' hp hlen hlen'
  apply hend p p' hp
  rw [Cursor.found_eq_none_iff]
  rcases hzero with rfl | rfl
  · exact List.length_eq_zero_iff.1 (Nat.le_zero.1 hlen)
  · exact hp.unread_eq_nil (List.length_eq_zero_iff.1 (Nat.le_zero.1 hlen'))

/-- Rules with a bound follow each other, whatever their bounds are, if they do at the end of the source and before
every token with bounds that are one more. -/
theorem follows_bounded {rule : Nat → Rule α}
    (hend : ∀ n m p p', Abreast l r p p' → p.found = none → Related l r ((rule n).run p) ((rule m).run p'))
    (hsucc : ∀ n m kind, Follows l r n m (rule n) (rule m) →
      FollowsAt l r kind (n + 1) (m + 1) (rule (n + 1)) (rule (m + 1))) :
    ∀ n m, Follows l r n m (rule n) (rule m) := by
  intro n
  -- The two bounds go down together, and whichever comes to zero first does so at the end of the source.
  induction n with
  | zero => exact fun m => follows_zero (.inl rfl) (hend 0 m)
  | succ n ih =>
    intro m
    cases m with
    | zero => exact follows_zero (.inr rfl) (hend (n + 1) 0)
    | succ m => exact follows_succ (hend (n + 1) (m + 1)) fun kind => hsucc n m kind (ih m)

theorem related_bind [∀ a, (next a).Orderly] [∀ a, (next a).Candid] [∀ a, (next' a).Orderly]
    [∀ a, (next' a).Candid] (h : Related l r (rule.run p) (rule'.run p'))
    (hnext : ∀ a a' q q', rule.run p = .read a q → rule'.run p' = .read a' q' → Same l r a a' → Abreast l r q q' →
      Related l r ((next a).run q) ((next' a').run q')) :
    Related l r ((rule >>= next).run p) ((rule' >>= next').run p') := by
  generalize hr : rule.run p = reply at h
  generalize hr' : rule'.run p' = reply' at h
  cases h with
  | read ha hq =>
    simp only [run_bind, hr, hr']
    exact hnext _ _ _ _ hr hr' ha hq
  | refused he hq =>
    simp only [run_bind, hr, hr']
    exact .refused he hq
  | beyond hopen hes hb hb' =>
    subst hr hr'
    exact .beyond hopen hes hb.bind hb'.bind

theorem follows_bind [rule.Orderly] [rule'.Orderly] [∀ a, (next a).Orderly] [∀ a, (next a).Candid]
    [∀ a, (next' a).Orderly] [∀ a, (next' a).Candid] (h : Follows l r n m rule rule')
    (hnext : ∀ a a', Same l r a a' → Follows l r n m (next a) (next' a')) :
    Follows l r n m (rule >>= next) (rule' >>= next') := by
  intro p p' hp hlen hlen'
  refine related_bind (h p p' hp hlen hlen') fun a a' q q' hr hr' ha hq => ?_
  exact hnext a a' ha q q' hq (Nat.le_trans (length_le_of_read hr) hlen)
    (Nat.le_trans (length_le_of_read hr') hlen')

theorem follows_pure {a a' : α} (h : Same l r a a') : Follows l r n m (pure a) (pure a') :=
  fun _ _ hp _ _ => .read h hp

theorem follows_refuse (expected : Expectation) :
    Follows (α := α) l r n m (refuse expected) (refuse expected) :=
  fun _ _ hp _ _ => .refused (hp.unexpected_same expected) hp

theorem follows_advance : Follows l r n m advance advance := by
  intro p p' hp _ _
  have hpaired : Paired l r { p with unread := p.unread.tail } { p' with unread := p'.unread.tail } :=
    ⟨hp.stop_left, hp.stop_right, hp.depth_eq, hp.errors⟩
  refine .of_read hp.position_same hpaired ?_
  rcases hp.cases_next with ⟨-, hu, hu'⟩ | ⟨t, t', us, us', hu, hu', -, hfacing⟩
  · simp only [hu, hu', List.tail_nil]
    exact .inr ⟨List.nil_suffix, List.nil_suffix⟩
  · simp only [hu, hu', List.tail_cons]
    exact .inl hfacing

/-- Behind a token that is passed over there is one less. -/
theorem followsAt_advance_bind {next next' : Position → Rule β} [∀ a, (next a).Orderly] [∀ a, (next a).Candid]
    [∀ a, (next' a).Orderly] [∀ a, (next' a).Candid]
    (hnext : ∀ a a', Same l r a a' → Follows l r n m (next a) (next' a')) :
    FollowsAt l r kind (n + 1) (m + 1) (advance >>= next) (advance >>= next') := by
  intro p p' hp hfound hlen hlen'
  refine related_bind (follows_advance p p' hp hlen hlen') fun a a' q q' hr hr' ha hq => hnext a a' ha q q' hq ?_ ?_
  · have := shortens_advance (by simp [hfound]) a q hr
    omega
  · have := shortens_advance (by simp [hp.found_eq, hfound]) a' q' hr'
    omega

theorem follows_bind_succ [∀ a, (next a).Orderly] [∀ a, (next a).Candid] [∀ a, (next' a).Orderly]
    [∀ a, (next' a).Candid] (h : Follows l r (n + 1) (m + 1) rule rule') (hshort : ∀ p, rule.Shortens p)
    (hshort' : ∀ p, rule'.Shortens p) (hnext : ∀ a a', Same l r a a' → Follows l r n m (next a) (next' a')) :
    Follows l r (n + 1) (m + 1) (rule >>= next) (rule' >>= next') := by
  intro p p' hp hlen hlen'
  refine related_bind (h p p' hp hlen hlen') fun a a' q q' hr hr' ha hq => hnext a a' ha q q' hq ?_ ?_
  · have := hshort p a q hr
    omega
  · have := hshort' p' a' q' hr'
    omega

theorem follows_expect (kind : TokenKind) : Follows l r n m (expect kind) (expect kind) := by
  intro p p' hp hlen hlen'
  rw [expect, run_peek_bind, run_peek_bind, hp.found_eq]
  split
  · exact follows_advance p p' hp hlen hlen'
  · exact follows_refuse _ p p' hp hlen hlen'

theorem follows_name : Follows l r n m name name := by
  intro p p' hp hlen hlen'
  rw [name, run_peek_bind, run_peek_bind, hp.found_eq]
  split
  · refine Follows.related ?_ hp hlen hlen'
    exact follows_bind follows_advance fun _ _ _ => follows_pure rfl
  · exact follows_refuse _ p p' hp hlen hlen'

theorem related_nested (hp : Abreast l r p p')
    (h : Abreast l r { p with depth := p.depth + 1 } { p' with depth := p.depth + 1 } →
      Related l r (rule.run { p with depth := p.depth + 1 }) (rule'.run { p' with depth := p.depth + 1 })) :
    Related l r ((nested rule).run p) ((nested rule').run p') := by
  simp only [nested, hp.depth_eq]
  split
  · exact (h (hp.withDepth (p.depth + 1))).leaving fun d => d - 1
  · exact .refused (hp.unexpected_same _) hp

end Rule

end Portugol.Grammar
