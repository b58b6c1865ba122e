import Portugol.Machine.Iterations
import Portugol.Proofs.Machine.Braces
import Portugol.Proofs.Machine.Moving

/-! # One iteration taken out of a repetition

A repetition does what a conditional does that holds one iteration as a block and then the repetition itself, although
there each iteration is made one frame further in (`exec_unrolled`). The two differ in the report of steps alone: the
block tells of no iteration. -/
namespace Portugol

/-- A conditional that makes one iteration as a block of its own, and leaves all others to the repetition. -/
def Statement.unrolled (condition : Expr) (body : Block) (p q r : Position) : Statement :=
  .conditional condition ⟨[.block body, .repetition condition body p], q⟩ none r

theorem RuntimeError.moved_id (e : RuntimeError) : e.moved id = e := by
  cases e <;> rfl

namespace Statement

variable {o : Options} {fuel : Nat} {condition : Expr} {body : Block} {p q r : Position} {m m' : Machine}

/-- What was reported before makes no difference. -/
theorem exec_agrees (o : Options) (fuel : Nat) (s : Statement) (h : m.Agrees m') :
    Outcome.Alike Machine.Agrees (exec o fuel s m) (exec o fuel s m') := by
  have hmoved : Outcome.Moved id (exec o fuel s m) (exec o fuel (s.moved id) m') := exec_moved fuel s h
  rw [Statement.moved_id] at hmoved
  generalize exec o fuel s m = r at hmoved
  generalize exec o fuel s m' = r' at hmoved
  cases hmoved with
  | finished h => exact .finished h
  | failed h =>
    rw [RuntimeError.moved_id]
    exact .failed h
  | unfinished => exact .unfinished

/-- A loop with one more iteration: the test, the body, and the loop. -/
theorem loop_succ (test : Machine → Except RuntimeError Bool) (body : Machine → Outcome) (fuel : Nat) (m : Machine) :
    loop test body (fuel + 1) m = match test m with
      | .error e => .failed e m
      | .ok false => .finished m
      | .ok true => (body m).andThen (loop test body fuel) := by
  rw [loop]
  cases test m with
  | error e => rfl
  | ok b => cases b <;> rfl

/-- The block and the repetition declare nothing, so the braces around the two change nothing. -/
theorem exec_unrolled_eq : exec o fuel (unrolled condition body p q r) m = match condition.test m.scopes with
    | .error e => .failed e m
    | .ok false => .finished m
    | .ok true => (exec o fuel (.block body) m).andThen (exec o fuel (.repetition condition body p)) := by
  have hblocks : ∀ s ∈ [.block body, .repetition condition body p], ¬ IsPlain s := by
    intro s hs
    rcases List.mem_pair.1 hs with rfl | rfl <;> exact id
  rw [unrolled, exec, execBlock_eq_execAll hblocks, execAll, execElse]
  cases condition.test m.scopes with
  | error e => rfl
  | ok b =>
    cases b with
    | false => rfl
    | true =>
      cases exec o fuel (.block body) m with
      | finished m => exact execAll_singleton fuel _ m
      | failed e m => rfl
      | unfinished => rfl

/-- What is run one iteration further, before it is known whether either run ends. -/
theorem loop_unrolled (o : Options) (fuel : Nat) (condition : Expr) (body : Block) (p q r : Position) (m : Machine) :
    Outcome.Alike Machine.Agrees
      (loop (fun m => condition.test m.scopes)
        (fun m => execBlock o fuel body (m.report o ("iteração em " ++ body.position.describe))) (fuel + 1) m)
      (exec o fuel (unrolled condition body p q r) m) := by
  rw [loop_succ, exec_unrolled_eq]
  cases condition.test m.scopes with
  | error e => exact .failed (.refl m)
  | ok b =>
    cases b with
    | false => exact .finished (.refl m)
    | true =>
      have hreport : (m.report o ("iteração em " ++ body.position.describe)).Agrees m := ⟨by simp, by simp, by simp⟩
      have hbody := exec_agrees o fuel (.block body) hreport
      refine hbody.andThen False.elim fun m₁ m₂ h => ?_
      exact exec_agrees o fuel (.repetition condition body p) h

/-- If the repetition ends, so does the conditional, in the same way and with the same variables, input and output; and
if the conditional ends, the repetition does within one more iteration, and so in the same way again. -/
theorem exec_unrolled (o : Options) (fuel : Nat) (condition : Expr) (body : Block) (p q r : Position) (m : Machine) :
    (exec o fuel (.repetition condition body p) m ≠ .unfinished →
      Outcome.Alike Machine.Agrees (exec o fuel (.repetition condition body p) m)
        (exec o fuel (unrolled condition body p q r) m)) ∧
    (exec o fuel (unrolled condition body p q r) m ≠ .unfinished →
      Outcome.Alike Machine.Agrees (exec o (fuel + 1) (.repetition condition body p) m)
        (exec o fuel (unrolled condition body p q r) m)) := by
  have hunrolled := loop_unrolled o fuel condition body p q r m
  constructor
  · intro hends
    have hmore := loop_mono (Nat.le_succ fuel) (fun _ _ => rfl) m (by rwa [exec] at hends)
    rw [exec, ← hmore]
    exact hunrolled
  · intro hends
    have hloop := mt hunrolled.unfinished_iff.1 hends
    rw [exec, loop_mono (Nat.le_refl (fuel + 1)) (fun m hm => execBlock_mono o (Nat.le_succ fuel) body _ hm) m hloop]
    exact hunrolled

/-- A loop whose condition fails after two iterations, each of which declares a name. -/
theorem exec_unrolled_division :
    let m : Machine := ⟨⟨[("x", ⟨.integer 2, none⟩)], []⟩, [], ⟨#[], none⟩, #[]⟩
    let quotient : Expr := .binary (.literal (.integer 9) ⟨1, 11⟩) (.arithmetic .divide) (.name "x" ⟨1, 15⟩) ⟨1, 13⟩
    let condition : Expr := .binary quotient (.order .greater) (.literal (.integer 1) ⟨1, 19⟩) ⟨1, 17⟩
    let rest : Expr := .binary (.name "y" ⟨1, 39⟩) (.arithmetic .subtract) (.literal (.integer 1) ⟨1, 43⟩) ⟨1, 41⟩
    let body : Block :=
      ⟨[.declaration "y" none (some (.name "x" ⟨1, 32⟩)) ⟨1, 24⟩, .assignment "x" rest ⟨1, 35⟩], ⟨1, 22⟩⟩
    exec ⟨true, false⟩ 3 (.repetition condition body ⟨1, 1⟩) m ≠ .unfinished ∧
    ∃ m', exec ⟨true, false⟩ 3 (unrolled condition body ⟨1, 1⟩ ⟨1, 1⟩ ⟨1, 1⟩) m =
      .failed (.arithmetic .divisionByZero ⟨1, 13⟩) m' ∧ m'.scopes = ⟨[("x", ⟨.integer 0, none⟩)], []⟩ := by
  intro m quotient condition rest body
  have hrun : exec ⟨true, false⟩ 3 (.repetition condition body ⟨1, 1⟩) m =
      .failed (.arithmetic .divisionByZero ⟨1, 13⟩) ⟨⟨[("x", ⟨.integer 0, none⟩)], []⟩, [], ⟨#[], none⟩, _⟩ := rfl
  have hends : exec ⟨true, false⟩ 3 (.repetition condition body ⟨1, 1⟩) m ≠ .unfinished := by
    rw [hrun]
    exact nofun
  refine ⟨hends, ?_⟩
  have halike := (exec_unrolled ⟨true, false⟩ 3 condition body ⟨1, 1⟩ ⟨1, 1⟩ ⟨1, 1⟩ m).1 hends
  rw [hrun] at halike
  generalize exec ⟨true, false⟩ 3 (unrolled condition body _ _ _) m = r at halike ⊢
  cases halike with
  | failed h => exact ⟨_, rfl, h.scopes_eq⟩
  | apart h => exact h.elim

end Statement
end Portugol
