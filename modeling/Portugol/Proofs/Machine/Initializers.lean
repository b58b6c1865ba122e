import Portugol.Proofs.Machine.Braces
import Portugol.Proofs.Machine.Moving

/-! # Initial values and assignments

A variable can be declared with an initial value, or without one and be given it by an assignment that follows at once.
In the first case the value is computed before the variable is there, in the second while the variable hides what had
its name before; so the two do the same for a value in which the name does not occur (`Statement.exec_initialized`). If
they fail, the variable is there in the second case only. -/
namespace Portugol

/-! ## Declared variables -/

theorem Frame.insert_insert (f : Frame) (x : String) (b c : Binding) : (f.insert x b).insert x c = f.insert x c := by
  induction f with
  | nil => simp [insert]
  | cons entry f ih =>
    obtain ⟨y, d⟩ := entry
    by_cases hy : y = x <;> simp [insert, hy, ih]

/-- What is assigned to a variable that was just declared could have been its value from the beginning. -/
theorem Scopes.assign_declare (s : Scopes) (x : String) (v w : Value) (type : Option DataType) :
    (s.declare x ⟨v, type⟩).assign x w = s.declare x ⟨w, type⟩ := by
  rw [assign, declare, declare, Frame.get?_insert, if_pos rfl]
  simp only [Frame.insert_insert]

/-- An expression is not concerned with a variable that does not occur in it. -/
theorem Expr.eval_declare {e : Expr} {x : String} (hx : x ∉ e.names) (s : Scopes) (b : Binding) :
    e.eval (s.declare x b) = e.eval s := by
  refine e.eval_congr fun y hy => ?_
  rw [Scopes.get?_declare, if_neg]
  rintro rfl
  exact hx hy

/-! ## In one step and in two -/

/-- How a declaration at `p` with the initial value `e` ends, and how one does without it and with an assignment at `r`
behind it. Both finish and leave the same, or both fail in computing the value, with the same error, or both fail
because the type of the variable does not admit the value, the one at the declaration and the other at the assignment.
A failure leaves the variable declared in the second case. -/
inductive Outcome.InTwoSteps (x : String) (type : Option DataType) (e : Expr) (p r : Position) :
    Outcome → Outcome → Prop where
  | finished {m m'} (h : m.Agrees m') : InTwoSteps x type e p r (.finished m) (.finished m')
  | failed {fault m m'} (hvalue : e.eval m.scopes = .error fault) (h : (m.declare x .undefined type).Agrees m') :
      InTwoSteps x type e p r (.failed fault m) (.failed fault m')
  | mismatched {v target m m'} (hvalue : e.eval m.scopes = .ok v) (htarget : type = some target)
      (hrefused : Value.conform? target v = none) (h : (m.declare x .undefined type).Agrees m') :
      InTwoSteps x type e p r (.failed (.type (.store v.type? target) p) m)
        (.failed (.type (.store v.type? target) r) m')

namespace Statement

/-- Where its name is not yet bound in the innermost frame, a variable that is declared with an initial value ends up as
one that is declared without and then assigned this value, if the name does not occur in the value. -/
theorem exec_initialized (o : Options) (fuel : Nat) (x : String) (type : Option DataType) (e : Expr)
    (p q r : Position) (m : Machine) (hfree : m.scopes.isLocal x = false) (hx : x ∉ e.names) :
    Outcome.InTwoSteps x type e p r (exec o fuel (.declaration x type (some e) p) m)
      (execAll o fuel [.declaration x type none q, .assignment x e r] m) := by
  let between := (m.report o ("declaração: " ++ x ++ " = " ++ Value.undefined.render)).declare x .undefined type
  have hdeclared : declare o x type none q m = .finished between := by
    rw [declare, hfree]
    rfl
  have hscopes : between.scopes = m.scopes.declare x ⟨.undefined, type⟩ := by simp [between, Machine.declare]
  have hleft : (m.declare x .undefined type).Agrees between :=
    ⟨hscopes, Machine.input_report .., Machine.output_report ..⟩
  -- The new variable hides an outer one of its name, but the value is computed from the others.
  have heval : e.eval between.scopes = e.eval m.scopes := by rw [hscopes, Expr.eval_declare hx]
  have hbound : between.scopes.get? x = some ⟨.undefined, type⟩ := by rw [hscopes, Scopes.get?_declare, if_pos rfl]
  rw [execAll, exec, exec, hdeclared]
  simp only [execAll_singleton, exec, declare, hfree, initial, assign, heval, hbound]
  cases hvalue : e.eval m.scopes with
  | error fault => exact .failed hvalue hleft
  | ok v =>
    rcases stored_cases type v with ⟨w, hstored⟩ | ⟨target, htarget, hrefused, hstored⟩
    · simp only [hstored]
      refine .finished ⟨?_, ?_, ?_⟩
      · simp [Machine.declare, Machine.store, hscopes, Scopes.assign_declare]
      · simp [Machine.declare, Machine.store, between]
      · simp [Machine.declare, Machine.store, between]
    · simp only [hstored]
      exact .mismatched hvalue htarget hrefused hleft

/-- A variable that hides an outer one, with a value that it takes and with one that its type does not admit. -/
theorem exec_initialized_hiding :
    let m : Machine := ⟨⟨[("n", ⟨.integer 2, none⟩)], [[("x", ⟨.text "a", none⟩)]]⟩, [], ⟨#[], none⟩, #[]⟩
    let tripled : Expr := .binary (.name "n" ⟨1, 9⟩) (.arithmetic .multiply) (.literal (.integer 3) ⟨1, 13⟩) ⟨1, 11⟩
    m.scopes.isLocal "x" = false ∧ "x" ∉ tripled.names ∧
    (∃ m', execAll ⟨true, false⟩ 0 [.declaration "x" (some .integer) none ⟨1, 1⟩, .assignment "x" tripled ⟨1, 5⟩] m =
      .finished m' ∧ m'.scopes.get? "x" = some ⟨.integer 6, some .integer⟩) ∧
    ∃ m', execAll ⟨true, false⟩ 0 [.declaration "x" (some .boolean) none ⟨1, 1⟩, .assignment "x" tripled ⟨1, 5⟩] m =
      .failed (.type (.store (some .integer) .boolean) ⟨1, 5⟩) m' := by
  intro m tripled
  have hfree : m.scopes.isLocal "x" = false := rfl
  have hx : "x" ∉ tripled.names := by decide
  refine ⟨hfree, hx, ?_, ?_⟩
  · have hboth := exec_initialized ⟨true, false⟩ 0 "x" (some .integer) tripled ⟨1, 3⟩ ⟨1, 1⟩ ⟨1, 5⟩ m hfree hx
    rw [show exec ⟨true, false⟩ 0 (.declaration "x" (some .integer) (some tripled) ⟨1, 3⟩) m =
      .finished ((m.report ⟨true, false⟩ _).declare "x" (.integer 6) (some .integer)) from rfl] at hboth
    generalize execAll _ _ _ _ = r at hboth ⊢
    cases hboth with
    | finished h => exact ⟨_, rfl, by rw [h.scopes_eq]; rfl⟩
  · have hboth := exec_initialized ⟨true, false⟩ 0 "x" (some .boolean) tripled ⟨1, 3⟩ ⟨1, 1⟩ ⟨1, 5⟩ m hfree hx
    have hvalue : tripled.eval m.scopes = .ok (.integer 6) := rfl
    have hrefused : exec ⟨true, false⟩ 0 (.declaration "x" (some .boolean) (some tripled) ⟨1, 3⟩) m =
      .failed (.type (.store (some .integer) .boolean) ⟨1, 3⟩) m := rfl
    generalize exec _ _ _ _ = first, execAll _ _ _ _ = second at hboth hrefused ⊢
    cases hboth with
    | finished => cases hrefused
    | failed hfault =>
      cases hrefused
      cases hvalue.symm.trans hfault
    | mismatched hv htarget =>
      injection hrefused with _ hm
      subst hm
      cases hvalue.symm.trans hv
      cases htarget
      exact ⟨_, rfl⟩

end Statement
end Portugol
