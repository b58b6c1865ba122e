import Portugol.Machine.Execution
import Portugol.Proofs.Syntax.Places

/-! # Running a program at another place

Where a program stands is told in its errors and in the report of its steps, and nothing else depends on it. So a
program that was moved does to variables, input and output what it does at its own place, and it ends in the same way,
with the same error at the place that this was moved to (`exec_moved`). -/
namespace Portugol

def RuntimeError.moved (f : Position → Position) : RuntimeError → RuntimeError
  | .undefinedVariable x p => .undefinedVariable x (f p)
  | .redeclaration x p => .redeclaration x (f p)
  | .type fault p => .type fault (f p)
  | .arithmetic fault p => .arithmetic fault (f p)
  | .inputExhausted x p => .inputExhausted x (f p)
  | .stream fault => .stream fault

/-- The same variables, input and output; the steps may have been reported differently. -/
structure Machine.Agrees (m m' : Machine) : Prop where
  scopes_eq : m'.scopes = m.scopes
  input_eq : m'.input = m.input
  output_eq : m'.output = m.output

/-- The same end, but for the report of steps and the position of the error. -/
inductive Outcome.Moved (f : Position → Position) : Outcome → Outcome → Prop where
  | finished {m m'} (h : m.Agrees m') : Moved f (.finished m) (.finished m')
  | failed {e m m'} (h : m.Agrees m') : Moved f (.failed e m) (.failed (e.moved f) m')
  | unfinished : Moved f .unfinished .unfinished

variable {f : Position → Position}

/-! ## Values and errors -/

theorem RuntimeError.mapError_ok {α : Type} (a : α) :
    (Except.ok a : Except RuntimeError α).mapError (RuntimeError.moved f) = .ok a := rfl

theorem ArithmeticOp.apply_moved (op : ArithmeticOp) (a b : Value) (p : Position) :
    op.apply a b (f p) = (op.apply a b p).mapError (RuntimeError.moved f) := by
  unfold apply
  split
  · split
    · rfl
    · split <;> rfl
  · split
    · rfl
    · split <;> rfl

theorem BinaryOp.apply_moved (op : BinaryOp) (a b : Value) (p : Position) :
    op.apply a b (f p) = (op.apply a b p).mapError (RuntimeError.moved f) := by
  cases op with
  | logic connective =>
    simp only [apply]
    split <;> rfl
  | equality relation =>
    simp only [apply]
    split <;> rfl
  | order relation =>
    simp only [apply]
    split <;> rfl
  | arithmetic operation =>
    simp only [apply]
    split
    · rfl
    · exact operation.apply_moved a b p

theorem UnaryOp.apply_moved (op : UnaryOp) (a : Value) (p : Position) :
    op.apply a (f p) = (op.apply a p).mapError (RuntimeError.moved f) := by
  unfold apply
  split
  · rfl
  · rfl
  · split <;> rfl
  · rfl

namespace Expr

/-- What is done with the value of a right operand. -/
theorem eval_right_moved {scopes : Scopes} {rhs : Expr}
    (ih : (rhs.moved f).eval scopes = (rhs.eval scopes).mapError (RuntimeError.moved f)) (op : BinaryOp) (a : Value)
    (p : Position) :
    (match (rhs.moved f).eval scopes with
      | .error e => .error e
      | .ok b => op.apply a b (f p)) =
    Except.mapError (RuntimeError.moved f) (match rhs.eval scopes with
      | .error e => .error e
      | .ok b => op.apply a b p) := by
  rw [ih]
  cases rhs.eval scopes with
  | error e => rfl
  | ok b => exact op.apply_moved a b p

theorem eval_moved (scopes : Scopes) (e : Expr) :
    (e.moved f).eval scopes = (e.eval scopes).mapError (RuntimeError.moved f) := by
  induction e with
  | literal => rfl
  | name x p =>
    simp only [moved, eval]
    split <;> rfl
  | group inner ih => exact ih
  | unary op operand p ih =>
    simp only [moved, eval, ih]
    cases operand.eval scopes with
    | error e => rfl
    | ok a => exact op.apply_moved a p
  | binary lhs op rhs p ihl ihr =>
    simp only [moved, eval, ihl]
    cases lhs.eval scopes with
    | error e => rfl
    | ok a =>
      cases op with
      | equality | order | arithmetic => exact eval_right_moved ihr _ a p
      | logic connective =>
        cases a with
        | boolean left =>
          simp only [RuntimeError.mapError_ok]
          split
          · rfl
          · exact eval_right_moved ihr _ _ p
        | undefined | integer | real | text => rfl

theorem test_moved (scopes : Scopes) (e : Expr) :
    (e.moved f).test scopes = (e.test scopes).mapError (RuntimeError.moved f) := by
  rw [test, test, eval_moved, position_moved]
  cases e.eval scopes with
  | error e => rfl
  | ok v => cases v <;> rfl

end Expr

namespace Statement

theorem stored_moved (type : Option DataType) (v : Value) (p : Position) :
    stored type v (f p) = (stored type v p).mapError (RuntimeError.moved f) := by
  cases type with
  | none => rfl
  | some t =>
    simp only [stored]
    split <;> rfl

theorem initial_moved (scopes : Scopes) (type : Option DataType) (p : Position) (init : Option Expr) :
    initial scopes type (f p) (init.map (Expr.moved f)) =
      (initial scopes type p init).mapError (RuntimeError.moved f) := by
  cases init with
  | none => rfl
  | some e =>
    simp only [Option.map_some, initial, Expr.eval_moved]
    cases e.eval scopes with
    | error e => rfl
    | ok v => exact stored_moved type v p

theorem values_moved (scopes : Scopes) (exprs : List Expr) :
    values scopes (exprs.map (Expr.moved f)) = (values scopes exprs).mapError (RuntimeError.moved f) := by
  induction exprs with
  | nil => rfl
  | cons e rest ih =>
    simp only [List.map_cons, values, Expr.eval_moved, ih]
    cases e.eval scopes with
    | error e => rfl
    | ok v => cases values scopes rest <;> rfl

end Statement

/-! ## Machines -/

namespace Machine.Agrees

variable {m m' : Machine}

theorem refl (m : Machine) : m.Agrees m := ⟨rfl, rfl, rfl⟩

theorem report (h : m.Agrees m') (o : Options) (step step' : String) :
    (m.report o step).Agrees (m'.report o step') := by
  simp only [Machine.report]
  split
  · exact ⟨h.scopes_eq, h.input_eq, h.output_eq⟩
  · exact h

theorem withScopes (h : m.Agrees m') (g : Scopes → Scopes) :
    Agrees { m with scopes := g m.scopes } { m' with scopes := g m'.scopes } :=
  ⟨congrArg g h.scopes_eq, h.input_eq, h.output_eq⟩

theorem print (h : m.Agrees m') (texts : List String) : Outcome.Moved f (m.print texts) (m'.print texts) := by
  induction texts generalizing m m' with
  | nil => exact .finished h
  | cons text rest ih =>
    rw [Machine.print, Machine.print, h.output_eq]
    split
    · exact ih ⟨h.scopes_eq, h.input_eq, rfl⟩
    · next fault _ => exact .failed (e := .stream fault) ⟨h.scopes_eq, h.input_eq, rfl⟩

end Machine.Agrees

theorem Outcome.Moved.leaving {r r' : Outcome} (h : Outcome.Moved f r r') :
    Outcome.Moved f (r.map Machine.pop) (r'.map Machine.pop) := by
  cases h with
  | finished h => exact .finished (h.withScopes Scopes.pop)
  | failed h => exact .failed (h.withScopes Scopes.pop)
  | unfinished => exact .unfinished

namespace Statement

variable {o : Options} {m m' : Machine}

theorem declare_moved (h : m.Agrees m') (x : String) (type : Option DataType) (init : Option Expr) (p : Position) :
    Outcome.Moved f (declare o x type init p m) (declare o x type (init.map (Expr.moved f)) (f p) m') := by
  rw [declare, declare, h.scopes_eq, initial_moved]
  split
  · exact .failed (e := .redeclaration x p) h
  · cases initial m.scopes type p init with
    | error e => exact .failed h
    | ok v => exact .finished ((h.report o _ _).withScopes fun s => s.declare x ⟨v, type⟩)

theorem assign_moved (h : m.Agrees m') (x : String) (value : Expr) (p : Position) :
    Outcome.Moved f (assign o x value p m) (assign o x (value.moved f) (f p) m') := by
  rw [assign, assign, h.scopes_eq, Expr.eval_moved]
  cases value.eval m.scopes with
  | error e => exact .failed h
  | ok v =>
    simp only [RuntimeError.mapError_ok]
    split
    · exact .failed (e := .undefinedVariable x p) h
    · next binding _ =>
      rw [stored_moved]
      cases stored binding.declared v p with
      | error e => exact .failed h
      | ok w => exact .finished ((h.report o _ _).withScopes fun s => s.assign x w)

theorem receive_moved (h : m.Agrees m') (x : String) (p : Position) (line : String) :
    Outcome.Moved f (receive o x p line m) (receive o x (f p) line m') := by
  simp only [receive, h.scopes_eq]
  split
  · split
    · exact .failed (e := .undefinedVariable x p) h
    · exact .finished ((h.report o _ _).withScopes fun s => s.declare x ⟨Value.infer line, none⟩)
  · split
    · exact .finished ((h.report o _ _).withScopes fun s => s.assign x (Value.infer line))
    · next t _ =>
      split
      · next v _ => exact .finished ((h.report o _ _).withScopes fun s => s.assign x v)
      · exact .failed (e := .type (.read line t) p) h

theorem input_moved (h : m.Agrees m') (x : String) (p : Position) :
    Outcome.Moved f (input o x p m) (input o x (f p) m') := by
  have hrest (rest : List UInt8) : Machine.Agrees { m with input := rest } { m' with input := rest } :=
    ⟨h.scopes_eq, rfl, h.output_eq⟩
  rw [input, input, h.input_eq]
  split
  · exact .failed (e := .inputExhausted x p) h
  · next fault rest _ => exact .failed (e := .stream fault) (hrest rest)
  · next line rest _ => exact receive_moved (hrest rest) x p line

theorem output_moved (h : m.Agrees m') (exprs : List Expr) :
    Outcome.Moved f (output o exprs m) (output o (exprs.map (Expr.moved f)) m') := by
  rw [output, output, h.scopes_eq, values_moved]
  cases values m.scopes exprs with
  | error e => exact .failed h
  | ok vs =>
    simp only [RuntimeError.mapError_ok]
    have hprint := h.print (f := f) (vs.map Value.render ++ ["\n"])
    generalize m.print (vs.map Value.render ++ ["\n"]) = r at hprint
    generalize m'.print (vs.map Value.render ++ ["\n"]) = r' at hprint
    cases hprint with
    | finished h => exact .finished (h.report o _ _)
    | failed h => exact .failed h
    | unfinished => exact .unfinished

theorem loop_moved {test test' : Machine → Except RuntimeError Bool} {body body' : Machine → Outcome}
    (htest : ∀ m m', m.Agrees m' → test' m' = (test m).mapError (RuntimeError.moved f))
    (hbody : ∀ m m', m.Agrees m' → Outcome.Moved f (body m) (body' m')) (fuel : Nat) (h : m.Agrees m') :
    Outcome.Moved f (loop test body fuel m) (loop test' body' fuel m') := by
  induction fuel generalizing m m' with
  | zero => exact .unfinished
  | succ fuel ih =>
    rw [loop, loop, htest m m' h]
    cases test m with
    | error e => exact .failed h
    | ok b =>
      cases b with
      | false => exact .finished h
      | true =>
        simp only [RuntimeError.mapError_ok]
        have hrun := hbody m m' h
        generalize body m = r at hrun
        generalize body' m' = r' at hrun
        cases hrun with
        | finished h => exact ih h
        | failed h => exact .failed h
        | unfinished => exact .unfinished

mutual

/-- A statement that was moved runs as it does at its own place. -/
theorem exec_moved (fuel : Nat) (s : Statement) {m m' : Machine} (h : m.Agrees m') :
    Outcome.Moved f (exec o fuel s m) (exec o fuel (s.moved f) m') := by
  match s with
  | .declaration x type init p =>
    rw [Statement.moved, exec, exec]
    exact declare_moved h x type init p
  | .assignment x value p =>
    rw [Statement.moved, exec, exec]
    exact assign_moved h x value p
  | .read x p =>
    rw [Statement.moved, exec, exec]
    exact input_moved h x p
  | .write exprs p =>
    rw [Statement.moved, exec, exec]
    exact output_moved h exprs
  | .conditional condition thenBlock elseBlock p =>
    rw [Statement.moved, exec, exec, h.scopes_eq, Expr.test_moved]
    cases condition.test m.scopes with
    | error e => exact .failed h
    | ok b =>
      cases b with
      | true => exact execBlock_moved fuel thenBlock h
      | false => exact execElse_moved fuel elseBlock h
  | .repetition condition body p =>
    rw [Statement.moved, exec, exec]
    refine loop_moved (fun m m' h => ?_) (fun m m' h => ?_) fuel h
    · rw [h.scopes_eq, Expr.test_moved]
    · exact execBlock_moved fuel body (h.report o _ _)
  | .block inner =>
    rw [Statement.moved, exec, exec]
    exact execBlock_moved fuel inner h

theorem execBlock_moved (fuel : Nat) (b : Block) {m m' : Machine} (h : m.Agrees m') :
    Outcome.Moved f (execBlock o fuel b m) (execBlock o fuel (b.moved f) m') := by
  match b with
  | ⟨statements, p⟩ =>
    rw [Block.moved, execBlock, execBlock]
    exact (execAll_moved fuel statements (h.withScopes Scopes.push)).leaving

theorem execElse_moved (fuel : Nat) (other : Option Block) {m m' : Machine} (h : m.Agrees m') :
    Outcome.Moved f (execElse o fuel other m) (execElse o fuel (movedElse f other) m') := by
  match other with
  | none =>
    rw [movedElse, execElse, execElse]
    exact .finished h
  | some b =>
    rw [movedElse, execElse, execElse]
    exact execBlock_moved fuel b h

theorem execAll_moved (fuel : Nat) (ss : List Statement) {m m' : Machine} (h : m.Agrees m') :
    Outcome.Moved f (execAll o fuel ss m) (execAll o fuel (movedAll f ss) m') := by
  match ss with
  | [] =>
    rw [movedAll, execAll, execAll]
    exact .finished h
  | s :: rest =>
    rw [movedAll, execAll, execAll]
    have hrun := exec_moved fuel s h
    generalize exec o fuel s m = r at hrun
    generalize exec o fuel (s.moved f) m' = r' at hrun
    cases hrun with
    | finished h => exact execAll_moved fuel rest h
    | failed h => exact .failed h
    | unfinished => exact .unfinished

end

theorem execAll_append (fuel : Nat) (ss ts : List Statement) (m : Machine) :
    execAll o fuel (ss ++ ts) m = match execAll o fuel ss m with
      | .finished m => execAll o fuel ts m
      | other => other := by
  induction ss generalizing m with
  | nil => rw [List.nil_append, execAll]
  | cons s rest ih =>
    rw [List.cons_append, execAll, execAll]
    cases exec o fuel s m with
    | finished m => exact ih m
    | failed e m => rfl
    | unfinished => rfl

end Statement
end Portugol
