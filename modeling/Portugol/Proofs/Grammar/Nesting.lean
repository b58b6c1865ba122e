import Portugol.Proofs.Grammar.Termination

/-! # The nesting on the way

What a rule answers does not show how deep it was nested in between. A gauge does: it is a cursor that keeps the
greatest nesting that there was, and the procedures of the grammar can be read from it as from any other feed.
Wherever in a source they begin, nested as deep as is allowed at most, no nesting on the way is greater than what is
allowed, and they come back to the nesting of their beginning (`Rule.nesting_kept`). So statements of a program are
begun outside of all blocks, and only there giving one up passes over a closing brace. -/
namespace Portugol.Grammar

variable {α : Type}

/-! ## The greatest nesting -/

/-- A cursor, and the greatest nesting up to now. -/
structure Gauge where
  cursor : Cursor
  deepest : Nat

namespace Gauge

instance : Feed Gauge where
  found g := Feed.found g.cursor
  position g := Feed.position g.cursor
  next g := { g with cursor := Feed.next g.cursor }
  depth g := Feed.depth g.cursor
  withDepth d g := ⟨Feed.withDepth d g.cursor, max g.deepest d⟩
  keep e g := { g with cursor := Feed.keep e g.cursor }

/-- A gauge on a cursor shows that the nesting was never too deep. -/
structure Within (g : Gauge) (p : Cursor) : Prop where
  cursor_eq : g.cursor = p
  depth_le : p.depth ≤ g.deepest
  deepest_le : g.deepest ≤ maxNesting

instance : Mirrors Within where
  found_eq h := congrArg Cursor.found h.cursor_eq
  position_eq h := congrArg Cursor.position h.cursor_eq
  depth_eq h := congrArg Cursor.depth h.cursor_eq
  next h := ⟨congrArg Feed.next h.cursor_eq, h.depth_le, h.deepest_le⟩
  keep h e := ⟨congrArg (Feed.keep e) h.cursor_eq, h.depth_le, h.deepest_le⟩
  deeper h hroom := ⟨congrArg (Feed.withDepth _) h.cursor_eq, Nat.le_max_right _ _, Nat.max_le.2 ⟨h.deepest_le, hroom⟩⟩
  shallower h := ⟨congrArg (Feed.withDepth _) h.cursor_eq, Nat.le_max_right _ _,
    Nat.max_le.2 ⟨h.deepest_le, Nat.le_trans (Nat.sub_le _ _) (Nat.le_trans h.depth_le h.deepest_le)⟩⟩
  restored h h' := ⟨congrArg (Feed.withDepth _) h'.cursor_eq, Nat.le_max_right _ _,
    Nat.max_le.2 ⟨h'.deepest_le, Nat.le_trans h.depth_le h.deepest_le⟩⟩

end Gauge

namespace Rule

/-- Whether it reads or refuses, a rule comes back to the nesting of its beginning. The procedure comes where the rule
comes with a bound that suffices, and the nesting that it had in between was never greater than what is allowed. -/
structure KeepsNesting (proc : Nat → Procedure Gauge α) (rule : Nat → Rule α) (p : Cursor) : Prop where
  depth_eq (bound : Nat) : ((rule bound).run p).after.depth = p.depth
  ends (bound : Nat) (hbound : p.unread.length ≤ bound) : Procedure.Ends proc ⟨p, p.depth⟩ fun answer =>
    answer.after.cursor = ((rule bound).run p).after ∧ answer.after.deepest ≤ maxNesting

theorem keepsNesting {proc : Nat → Procedure Gauge α} {rule : Nat → Rule α} [hbalanced : ∀ bound, (rule bound).Balanced]
    (h : ∀ bound turns, bound + 1 < turns → Procedure.Performs Gauge.Within bound (proc turns) (rule bound))
    {p : Cursor} (hp : p.InOrder) (hdepth : p.depth ≤ maxNesting) : KeepsNesting proc rule p where
  depth_eq bound := (hbalanced bound).depth_eq p
  ends bound hbound := by
    have hstart : Gauge.Within ⟨p, p.depth⟩ p := ⟨rfl, Nat.le_refl _, hdepth⟩
    refine (Procedure.ends_of_performs (h bound) hstart hp hbound).imp fun answer hagrees => ?_
    exact ⟨hagrees.after.cursor_eq, hagrees.after.deepest_le⟩

/-! ## The rules that are nested, and those that nest -/

def operand (bound : Nat) : Level → Rule Expr
  | .term => factor bound
  | .sum => chain .term (factor bound) bound
  | .comparison => chain .sum (chain .term (factor bound) bound) bound
  | .logic => chain .comparison (chain .sum (chain .term (factor bound) bound) bound) bound

instance (bound : Nat) (level : Level) : (operand bound level).Balanced := by
  cases level <;> (unfold operand; infer_instance)

instance (bound : Nat) (level : Level) : (operand bound level).Orderly := by
  cases level <;> (unfold operand; infer_instance)

def group (bound : Nat) : Rule Expr := do
  let _ ← advance
  let inner ← expression bound
  let _ ← expect (.symbol .closeParen)
  return .group inner

instance (bound : Nat) : (group bound).Balanced := by
  unfold group
  infer_instance

def operation (op : UnaryOp) (bound : Nat) : Rule Expr := do
  let place ← advance
  return .unary op (← factor bound) place

instance (op : UnaryOp) (bound : Nat) : (operation op bound).Balanced := by
  unfold operation
  infer_instance

/-- What a factor runs one level deeper. -/
theorem run_factor (bound : Nat) (p : Cursor) : (factor (bound + 1)).run p =
    match FactorStart.of p.found with
    | .literal value => (advance >>= fun place => pure (.literal value place)).run p
    | .name x => (advance >>= fun place => pure (.name x place)).run p
    | .group => (nested (group bound)).run p
    | .unary op => (nested (operation op bound)).run p
    | .other => (refuse .expression).run p := by
  rw [factor, run_peek_bind]
  cases FactorStart.of p.found <;> rfl

section
variable {σ : Type} [Feed σ] {R : σ → Cursor → Prop} [Mirrors R] {n turns : Nat}

open Procedure (Performs performs_bind performs_pure performs_advance performs_expect)

theorem performs_operand (hturns : n < turns) (level : Level) :
    Performs R n (Procedure.operand (Procedure.factor turns) turns level) (operand n level) := by
  have hfactor : Performs R n (Procedure.factor turns) (factor n) := Procedure.performs_factor n turns hturns
  have hterm := Procedure.performs_chain .term hturns hfactor
  have hsum := Procedure.performs_chain .sum hturns hterm
  cases level with
  | term => exact hfactor
  | sum => exact hterm
  | comparison => exact hsum
  | logic => exact Procedure.performs_chain .comparison hturns hsum

theorem performs_group (hturns : n < turns) :
    Performs R n (Procedure.group (Procedure.expression turns)) (group n) := by
  refine performs_bind performs_advance fun _ => performs_bind (Procedure.performs_expression hturns) fun inner => ?_
  exact performs_bind (performs_expect _) fun _ => performs_pure _

theorem performs_operation (hturns : n < turns) (op : UnaryOp) :
    Performs R n (Procedure.operation op (Procedure.factor turns)) (operation op n) :=
  performs_bind performs_advance fun _ =>
    performs_bind (Procedure.performs_factor n turns hturns) fun _ => performs_pure _

theorem performs_block (hturns : n + 1 < turns) :
    Performs R n (Procedure.block (Procedure.step turns) turns) (block (attempt (statement n)) n) :=
  (Procedure.performs_block hturns (Procedure.performs_statements rfl hturns)).mono (Nat.le_succ n)

theorem performs_conditional (hturns : n + 1 < turns) :
    Performs R n
      (Procedure.conditional turns (Procedure.block (Procedure.step turns) turns) (Procedure.statement turns))
      (conditional n (block (attempt (statement n)) n) (statement n)) := by
  have hblock : Performs R n _ _ := performs_block hturns
  have hagain : Performs R n _ _ := Procedure.performs_statement n turns hturns
  refine performs_bind performs_advance fun place => ?_
  refine performs_bind (Procedure.performs_condition (Nat.lt_of_succ_lt hturns)) fun test => ?_
  refine performs_bind hblock fun thenBlock => ?_
  exact performs_bind (Procedure.performs_otherwise hblock hagain) fun elseBlock => performs_pure _

end

/-! ## Closing braces -/

/-- Whether reading goes on at a token, or behind it, after a statement was given up. -/
def isBoundary (kind : TokenKind) : Bool :=
  kind = .symbol .closeBrace || kind = .symbol .openBrace || kind = .symbol .semicolon || kind.startsStatement

/-- The first boundary is a closing brace. -/
def MeetsBrace (tokens : List Token) : Prop :=
  (tokens.find? fun t => isBoundary t.kind).map Token.kind = some (.symbol .closeBrace)

/-- Up to the boundary a closing brace is passed over, so that fewer are left. -/
def PassesBrace (depth : Nat) (tokens : List Token) : Prop :=
  (fromBoundary depth tokens).countP (fun t => t.kind = .symbol .closeBrace) <
    tokens.countP fun t => t.kind = .symbol .closeBrace

/-- A closing brace is passed over outside of all blocks only, and there if it is the first boundary. -/
theorem passesBrace_iff (depth : Nat) (tokens : List Token) :
    PassesBrace depth tokens ↔ depth = 0 ∧ MeetsBrace tokens := by
  induction tokens with
  | nil => simp [PassesBrace, MeetsBrace, fromBoundary]
  | cons t rest ih =>
    rw [PassesBrace, fromBoundary]
    split
    · next hclose =>
      by_cases hdepth : depth = 0 <;> simp [MeetsBrace, isBoundary, hclose, hdepth]
    split
    · next hopen => simp [MeetsBrace, isBoundary, hopen]
    split
    · next hend => simp [MeetsBrace, isBoundary, hend]
    split
    · next hclose _ _ hstarts => simp [MeetsBrace, isBoundary, hstarts, hclose]
    · next hclose hopen hend hstarts =>
      have hnot : isBoundary t.kind = false := by simp [isBoundary, hclose, hopen, hend, hstarts]
      rw [List.countP_cons_of_neg (by simpa using hclose), MeetsBrace, List.find?_cons_of_neg (by simp [hnot])]
      exact ih

/-! ## Statements one after the other -/

def attempted (bound : Nat) : Nat → Cursor → Cursor
  | 0, p => p
  | count + 1, p => attempted bound count (attempt (statement bound) p).2

theorem depth_attempted (bound count : Nat) (p : Cursor) : (attempted bound count p).depth = p.depth := by
  induction count generalizing p with
  | zero => rfl
  | succ count ih =>
    have hone : ((gather (attempt (statement bound))).run p).after.depth = p.depth := Balanced.depth_eq p
    exact (ih _).trans hone

/-- Whether giving up a statement passes over a closing brace depends on where the statement was begun. -/
theorem passesBrace_iff_of_refused {bound : Nat} {q r : Cursor} {e : Unexpected}
    (h : (statement bound).run q = .refused e r) :
    PassesBrace r.depth r.unread ↔ q.depth = 0 ∧ MeetsBrace r.unread := by
  have hdepth : ((statement bound).run q).after.depth = q.depth := Balanced.depth_eq q
  rw [h] at hdepth
  rw [passesBrace_iff, ← hdepth]
  rfl

/-- What was read from a cursor on are statements that were attempted one after the other: each of them is begun as deep
as the first one, and if it is given up it depends on this depth alone whether a closing brace that comes first is
passed over. -/
structure Attempts (bound : Nat) (p : Cursor) (read : List Statement × Cursor) : Prop where
  attempted : ∃ n, read.2 = attempted bound n p
  depth_eq (n : Nat) : (Rule.attempted bound n p).depth = p.depth
  passesBrace_iff (n : Nat) {e : Unexpected} {q : Cursor} (h : (statement bound).run (Rule.attempted bound n p) =
    .refused e q) : PassesBrace q.depth q.unread ↔ p.depth = 0 ∧ MeetsBrace q.unread

theorem many_attempted (ends : Option TokenKind → Bool) (bound count : Nat) (p : Cursor) :
    ∃ n, (many ends (attempt (statement bound)) count p).2 = attempted bound n p := by
  induction count generalizing p with
  | zero => exact ⟨0, rfl⟩
  | succ count ih =>
    rw [many]
    split
    · exact ⟨0, rfl⟩
    · obtain ⟨n, hn⟩ := ih (attempt (statement bound) p).2
      exact ⟨n + 1, hn⟩

theorem attempts (ends : Option TokenKind → Bool) (bound count : Nat) (p : Cursor) :
    Attempts bound p (many ends (attempt (statement bound)) count p) where
  attempted := many_attempted ends bound count p
  depth_eq n := depth_attempted bound n p
  passesBrace_iff n _ _ h := by rw [passesBrace_iff_of_refused h, depth_attempted]

/-- The rules of the grammar come back to the nesting of their beginning, whether they succeed or fail, and nothing on
their way is nested too deep. So each statement of a program is begun outside of all blocks, and if it is given up a
closing brace is passed over as soon as one is the first boundary; in a block it never is. -/
theorem nesting_kept {source : String} {p : Cursor} (hp : p.On source) (hdepth : p.depth ≤ maxNesting) :
    KeepsNesting Procedure.statement statement p ∧
    KeepsNesting Procedure.step (fun bound => gather (attempt (statement bound))) p ∧
    KeepsNesting (fun turns => Procedure.block (Procedure.step turns) turns)
      (fun bound => block (attempt (statement bound)) bound) p ∧
    KeepsNesting
      (fun turns =>
        Procedure.conditional turns (Procedure.block (Procedure.step turns) turns) (Procedure.statement turns))
      (fun bound => conditional bound (block (attempt (statement bound)) bound) (statement bound)) p ∧
    KeepsNesting (fun turns => Procedure.braced (Procedure.step turns) turns)
      (fun bound => braced (attempt (statement bound)) bound) p ∧
    (KeepsNesting (fun turns => Procedure.group (Procedure.expression turns)) group p ∧
      ∀ bound (q : Cursor), FactorStart.of q.found = .group →
        (factor (bound + 1)).run q = (nested (group bound)).run q) ∧
    (∀ op, KeepsNesting (fun turns => Procedure.operation op (Procedure.factor turns)) (operation op) p ∧
      ∀ bound (q : Cursor), FactorStart.of q.found = .unary op →
        (factor (bound + 1)).run q = (nested (operation op bound)).run q) ∧
    KeepsNesting Procedure.expression expression p ∧
    (∀ level, KeepsNesting
      (fun turns => Procedure.chain level (Procedure.operand (Procedure.factor turns) turns level) turns)
      (fun bound => chain level (operand bound level) bound) p) ∧
    KeepsNesting Procedure.factor factor p ∧
    (∀ tokens stop, (Cursor.start tokens stop).depth = 0 ∧
      Attempts tokens.length (.start tokens stop) (statements (.start tokens stop))) ∧
    ∀ bound (q : Cursor), Attempts bound { q with depth := p.depth + 1 }
      (many endsBlock (attempt (statement bound)) bound { q with depth := p.depth + 1 }) := by
  have hless {bound turns : Nat} (h : bound + 1 < turns) : bound < turns := Nat.lt_of_succ_lt h
  have hgroup (bound : Nat) (q : Cursor) (hq : FactorStart.of q.found = .group) :
      (factor (bound + 1)).run q = (nested (group bound)).run q := by rw [run_factor, hq]
  have hunary (op : UnaryOp) (bound : Nat) (q : Cursor) (hq : FactorStart.of q.found = .unary op) :
      (factor (bound + 1)).run q = (nested (operation op bound)).run q := by rw [run_factor, hq]
  refine ⟨?_, ?_, ?_, ?_, ?_, ⟨?_, hgroup⟩, fun op => ⟨?_, hunary op⟩, ?_, fun level => ?_, ?_,
    fun _ _ => ⟨rfl, attempts _ _ _ _⟩, fun _ _ => attempts _ _ _ _⟩ <;>
    refine keepsNesting (fun bound turns hturns => ?_) hp.inOrder hdepth
  · exact Procedure.performs_statement bound turns hturns
  · exact Procedure.performs_step hturns
  · exact performs_block hturns
  · exact performs_conditional hturns
  · exact (Procedure.performs_braced (Procedure.performs_statements rfl hturns)).mono (Nat.le_succ bound)
  · exact performs_group (hless hturns)
  · exact performs_operation (hless hturns) op
  · exact Procedure.performs_expression (hless hturns)
  · exact Procedure.performs_chain level (hless hturns) (performs_operand (hless hturns) level)
  · exact Procedure.performs_factor bound turns (hless hturns)

/-- A sign in front of two others, where only one more may be nested: the second is refused, and the nesting on the way
was the greatest that is allowed. -/
theorem nesting_kept_signs :
    let sign (column : Nat) : Token := ⟨.symbol .minus, "-", ⟨1, column⟩⟩
    let p : Cursor := ⟨[sign 1, sign 2, sign 3], ⟨1, 4⟩, 99, #[]⟩
    p.On "---" ∧ p.depth ≤ maxNesting ∧ KeepsNesting Procedure.factor factor p ∧
      (Procedure.factor 4).run (⟨p, p.depth⟩ : Gauge) =
        some (.refused ⟨.shallowerNesting, some (.symbol .minus), ⟨1, 2⟩⟩
          ⟨{ p with unread := [sign 2, sign 3] }, 100⟩) := by
  intro sign p
  have hp : p.On "---" := ⟨by decide +kernel, by decide +kernel⟩
  have hdepth : p.depth ≤ maxNesting := by decide
  obtain ⟨-, -, -, -, -, -, -, -, -, hfactor, -⟩ := nesting_kept hp hdepth
  exact ⟨hp, hdepth, hfactor, rfl⟩

end Rule
end Portugol.Grammar
