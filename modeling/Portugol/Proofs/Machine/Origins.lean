import Portugol.Proofs.Grammar.Parsing
import Portugol.Proofs.Machine.Failures
import Portugol.Proofs.Machine.WholeNumbers

/-! # Where errors come from

Each kind of statement and expression raises errors of its own, and names itself in them: its position, and the name or
the operator that is in it. A condition is named by its own position, since the statement that it belongs to stands
elsewhere. Nothing is raised by what only holds others together, a group, a block or a literal value.

A run fails with an error that a statement of the program raises, or an expression in one (`Program.run_failed`). In a
program that was read from a source, an error is therefore where some token is. -/
namespace Portugol

/-- The errors that an expression raises itself, and not the expressions inside it. -/
inductive Expr.Raises : Expr → RuntimeError → Prop where
  | undefined {x p} : Raises (.name x p) (.undefinedVariable x p)
  | negation {operand p n} : Raises (.unary .negate operand p) (.arithmetic (.negation n) p)
  | operand {op operand p found} : Raises (.unary op operand p) (.type (.operand op found) p)
  | truth {lhs op rhs p found} : Raises (.binary lhs (.logic op) rhs p) (.type (.truth op found) p)
  | operands {lhs op rhs p left right} : Raises (.binary lhs op rhs p) (.type (.operands op left right) p)
  | zero {lhs op rhs p fault} (h : op.zeroFault? = some fault) :
      Raises (.binary lhs (.arithmetic op) rhs p) (.arithmetic fault p)
  | overflow {lhs op rhs p a b} : Raises (.binary lhs (.arithmetic op) rhs p) (.arithmetic (.overflow a op b) p)

/-- The errors that a statement raises itself, and neither its expressions nor the statements inside it. -/
inductive Statement.Raises : Statement → RuntimeError → Prop where
  | redeclaration {x type init p} : Raises (.declaration x type init p) (.redeclaration x p)
  | initial {x type e p found} : Raises (.declaration x (some type) (some e) p) (.type (.store found type) p)
  | unassignable {x value p} : Raises (.assignment x value p) (.undefinedVariable x p)
  | store {x value p found type} : Raises (.assignment x value p) (.type (.store found type) p)
  | unreadable {x p} : Raises (.read x p) (.undefinedVariable x p)
  | line {x p line type} : Raises (.read x p) (.type (.read line type) p)
  | exhausted {x p} : Raises (.read x p) (.inputExhausted x p)
  | malformed {x p} : Raises (.read x p) (.stream .malformedText)
  | full {exprs p} : Raises (.write exprs p) (.stream .outputFull)
  | choice {c b other p found} : Raises (.conditional c b other p) (.type (.condition found) c.position)
  | iteration {c b p found} : Raises (.repetition c b p) (.type (.condition found) c.position)

/-- The errors that a statement raises itself or that are raised in its expressions. -/
def Statement.RaisesWithin (s : Statement) (e : RuntimeError) : Prop :=
  s.Raises e ∨ ∃ c ∈ s.exprs, ∃ part ∈ c.inOrder, part.Raises e

/-! ## Expressions -/

theorem Expr.mem_inOrder (e : Expr) : e ∈ e.inOrder := by
  cases e <;> simp [inOrder]

section Operators

variable {e : RuntimeError} {a b : Value} {p : Position} {lhs rhs operand : Expr}

theorem ArithmeticOp.raises_of_apply {op : ArithmeticOp} (h : op.apply a b p = .error e) :
    (Expr.binary lhs (.arithmetic op) rhs p).Raises e := by
  have hzero {zero : Prop} [Decidable zero] {fault : ArithmeticFault}
      (hfault : (if zero then op.zeroFault? else none) = some fault) : op.zeroFault? = some fault := by
    split at hfault
    · exact hfault
    · cases hfault
  unfold apply at h
  split at h
  · split at h
    · next hfault =>
      cases h
      exact .zero (hzero hfault)
    · split at h <;> cases h
      exact .overflow
  · split at h
    · cases h
      exact .operands
    · split at h <;> cases h
      next hfault => exact .zero (hzero hfault)

theorem BinaryOp.raises_of_apply {op : BinaryOp} (h : op.apply a b p = .error e) :
    (Expr.binary lhs op rhs p).Raises e := by
  cases op with
  | logic | equality | order =>
    simp only [apply] at h
    split at h <;> cases h
    exact .operands
  | arithmetic operation =>
    simp only [apply] at h
    split at h
    · cases h
    · exact ArithmeticOp.raises_of_apply h

theorem UnaryOp.raises_of_apply {op : UnaryOp} (h : op.apply a p = .error e) :
    (Expr.unary op operand p).Raises e := by
  unfold apply at h
  split at h
  · cases h
  · cases h
  · split at h <;> cases h
    exact .negation
  · cases h
    exact .operand

end Operators

namespace Expr

variable {scopes : Scopes} {fault : RuntimeError}

/-- An operator on values raises an error, or its right operand could not be evaluated. -/
theorem raises_of_eval_right {lhs rhs : Expr} {op : BinaryOp} {a : Value} {p : Position}
    (ih : ∀ fault, rhs.eval scopes = .error fault → ∃ part ∈ rhs.inOrder, part.Raises fault)
    (h : (match rhs.eval scopes with
      | .error e => .error e
      | .ok b => op.apply a b p) = Except.error fault) :
    ∃ part ∈ (Expr.binary lhs op rhs p).inOrder, part.Raises fault := by
  cases heval : rhs.eval scopes with
  | error e =>
    rw [heval] at h
    cases h
    obtain ⟨part, hpart, hraises⟩ := ih fault heval
    exact ⟨part, by simp [inOrder, hpart], hraises⟩
  | ok b =>
    rw [heval] at h
    exact ⟨_, mem_inOrder _, BinaryOp.raises_of_apply h⟩

/-- What cannot be evaluated raises an error in itself or in something inside it. -/
theorem raises_of_eval {e : Expr} (h : e.eval scopes = .error fault) : ∃ part ∈ e.inOrder, part.Raises fault := by
  induction e generalizing fault with
  | literal => cases h
  | name x p =>
    rw [eval] at h
    split at h <;> cases h
    exact ⟨_, mem_inOrder _, .undefined⟩
  | group inner ih =>
    obtain ⟨part, hpart, hraises⟩ := ih h
    exact ⟨part, List.mem_append_left _ hpart, hraises⟩
  | unary op operand p ih =>
    rw [eval] at h
    split at h
    · next heval =>
      cases h
      obtain ⟨part, hpart, hraises⟩ := ih heval
      exact ⟨part, List.mem_append_left _ hpart, hraises⟩
    · exact ⟨_, mem_inOrder _, UnaryOp.raises_of_apply h⟩
  | binary lhs op rhs p ihl ihr =>
    rw [eval] at h
    split at h
    · next heval =>
      cases h
      obtain ⟨part, hpart, hraises⟩ := ihl heval
      exact ⟨part, List.mem_append_left _ hpart, hraises⟩
    split at h
    · split at h
      · cases h
      · exact raises_of_eval_right (fun _ => ihr) h
    · cases h
      exact ⟨_, mem_inOrder _, .truth⟩
    · exact raises_of_eval_right (fun _ => ihr) h

/-- A condition that is not met by a truth value raises the error at its own position. -/
theorem raises_of_test {c : Expr} (h : c.test scopes = .error fault) :
    (∃ found, fault = .type (.condition found) c.position) ∨ ∃ part ∈ c.inOrder, part.Raises fault := by
  rw [test] at h
  split at h
  · next heval =>
    cases h
    exact .inr (raises_of_eval heval)
  · cases h
  · cases h
    exact .inl ⟨_, rfl⟩

end Expr

/-! ## Statements -/

namespace Statement

variable {o : Options} {fuel : Nat} {m m' : Machine} {e : RuntimeError} {x : String} {p : Position}

theorem eq_of_stored {type : Option DataType} {v : Value} (h : stored type v p = .error e) :
    ∃ found target, type = some target ∧ e = .type (.store found target) p := by
  rcases stored_cases type v with ⟨w, hstored⟩ | ⟨target, htarget, -, hstored⟩
  · rw [hstored] at h
    cases h
  · rw [hstored] at h
    cases h
    exact ⟨_, target, htarget, rfl⟩

theorem raises_of_declare {type : Option DataType} {init : Option Expr} (h : declare o x type init p m = .failed e m') :
    (Statement.declaration x type init p).RaisesWithin e := by
  rw [declare] at h
  split at h
  · cases h
    exact .inl .redeclaration
  split at h <;> cases h
  next hinit =>
  cases init with
  | none => cases hinit
  | some value =>
    rw [initial] at hinit
    split at hinit
    · next heval =>
      cases hinit
      exact .inr ⟨value, List.mem_singleton_self value, Expr.raises_of_eval heval⟩
    · obtain ⟨found, target, rfl, rfl⟩ := eq_of_stored hinit
      exact .inl .initial

theorem raises_of_assign {value : Expr} (h : assign o x value p m = .failed e m') :
    (Statement.assignment x value p).RaisesWithin e := by
  rw [assign] at h
  split at h
  · next heval =>
    cases h
    exact .inr ⟨value, List.mem_singleton_self value, Expr.raises_of_eval heval⟩
  split at h
  · cases h
    exact .inl .unassignable
  · split at h <;> cases h
    next hstored =>
    obtain ⟨found, target, -, rfl⟩ := eq_of_stored hstored
    exact .inl .store

theorem raises_of_receive {line : String} (h : receive o x p line m = .failed e m') :
    (Statement.read x p).Raises e := by
  simp only [receive] at h
  split at h
  · split at h <;> cases h
    exact .unreadable
  split at h
  · cases h
  · split at h <;> cases h
    exact .line

/-- Reading fails only because a line is no text. -/
theorem fault_of_nextLine {input rest : List UInt8} {fault : StreamFault}
    (h : Input.nextLine input = (some (.error fault), rest)) : fault = .malformedText := by
  simp only [Input.nextLine, Input.rawLine, Prod.mk.injEq] at h
  obtain ⟨hline, -⟩ := h
  split at hline
  · cases hline
  · split at hline <;> cases hline
    rfl

theorem raises_of_input (h : input o x p m = .failed e m') : (Statement.read x p).Raises e := by
  rw [input] at h
  split at h
  · cases h
    exact .exhausted
  · next hline =>
    cases h
    obtain rfl := fault_of_nextLine hline
    exact .malformed
  · exact raises_of_receive h

theorem raises_of_values {scopes : Scopes} {exprs : List Expr} (h : values scopes exprs = .error e) :
    ∃ c ∈ exprs, ∃ part ∈ c.inOrder, part.Raises e := by
  induction exprs with
  | nil => cases h
  | cons c rest ih =>
    rw [values] at h
    split at h
    · next heval =>
      cases h
      exact ⟨c, .head _, Expr.raises_of_eval heval⟩
    · cases hrest : values scopes rest with
      | ok vs =>
        rw [hrest] at h
        cases h
      | error fault =>
        rw [hrest] at h
        cases h
        obtain ⟨c', hc, hraises⟩ := ih hrest
        exact ⟨c', .tail _ hc, hraises⟩

theorem raises_of_output {exprs : List Expr} (h : output o exprs m = .failed e m') :
    (Statement.write exprs p).RaisesWithin e := by
  rw [output] at h
  split at h
  · next hvalues =>
    cases h
    exact .inr (raises_of_values hvalues)
  split at h
  · cases h
  · obtain ⟨rfl, -⟩ := Machine.print_failed h
    exact .inl .full

/-! ## Runs -/

/-- A loop fails in its test or in its body. -/
theorem loop_failed {test : Machine → Except RuntimeError Bool} {body : Machine → Outcome} {count : Nat}
    (h : loop test body count m = .failed e m') :
    (∃ m₁, test m₁ = .error e) ∨ ∃ m₁ m₂, body m₁ = .failed e m₂ := by
  induction count generalizing m with
  | zero => cases h
  | succ count ih =>
    rw [loop] at h
    split at h
    · next htest =>
      cases h
      exact .inl ⟨_, htest⟩
    · cases h
    split at h
    · exact ih h
    · next hbody =>
      cases h
      exact .inr ⟨_, _, hbody⟩
    · cases h

/-- A condition of a statement that fails raises the error in the statement. -/
theorem raisesWithin_of_test {s : Statement} {c : Expr} {scopes : Scopes} (hc : c ∈ s.exprs)
    (hself : ∀ found, s.Raises (.type (.condition found) c.position)) (h : c.test scopes = .error e) :
    s.RaisesWithin e := by
  rcases Expr.raises_of_test h with ⟨found, rfl⟩ | hraises
  · exact .inl (hself found)
  · exact .inr ⟨c, hc, hraises⟩

mutual

/-- A statement fails with an error that it raises, or a statement inside it. -/
theorem raises_of_exec (s : Statement) {m m' : Machine} (h : exec o fuel s m = .failed e m') :
    ∃ part ∈ s.parts, part.RaisesWithin e := by
  match s with
  | .declaration x type init p =>
    rw [exec] at h
    exact ⟨_, mem_parts _, raises_of_declare h⟩
  | .assignment x value p =>
    rw [exec] at h
    exact ⟨_, mem_parts _, raises_of_assign h⟩
  | .read x p =>
    rw [exec] at h
    exact ⟨_, mem_parts _, .inl (raises_of_input h)⟩
  | .write exprs p =>
    rw [exec] at h
    exact ⟨_, mem_parts _, raises_of_output h⟩
  | .conditional c thenBlock elseBlock p =>
    rw [exec] at h
    rw [parts]
    split at h
    · next htest =>
      cases h
      exact ⟨_, .head _, raisesWithin_of_test (List.mem_singleton_self c) (fun _ => .choice) htest⟩
    · obtain ⟨part, hpart, hraises⟩ := raises_of_execBlock thenBlock h
      exact ⟨part, .tail _ (List.mem_append_left _ hpart), hraises⟩
    · obtain ⟨part, hpart, hraises⟩ := raises_of_execElse elseBlock h
      exact ⟨part, .tail _ (List.mem_append_right _ hpart), hraises⟩
  | .repetition c body p =>
    rw [exec] at h
    rw [parts]
    rcases loop_failed h with ⟨m₁, htest⟩ | ⟨m₁, m₂, hbody⟩
    · exact ⟨_, .head _, raisesWithin_of_test (List.mem_singleton_self c) (fun _ => .iteration) htest⟩
    · obtain ⟨part, hpart, hraises⟩ := raises_of_execBlock body hbody
      exact ⟨part, .tail _ hpart, hraises⟩
  | .block inner =>
    rw [exec] at h
    rw [parts]
    obtain ⟨part, hpart, hraises⟩ := raises_of_execBlock inner h
    exact ⟨part, .tail _ hpart, hraises⟩

theorem raises_of_execBlock (b : Block) {m m' : Machine} (h : execBlock o fuel b m = .failed e m') :
    ∃ part ∈ b.parts, part.RaisesWithin e := by
  match b with
  | ⟨statements, p⟩ =>
    rw [execBlock] at h
    rw [Block.parts]
    cases hrun : execAll o fuel statements m.push with
    | failed e' m₁ =>
      rw [hrun] at h
      cases h
      exact raises_of_execAll statements hrun
    | finished | unfinished =>
      rw [hrun] at h
      cases h

theorem raises_of_execElse (other : Option Block) {m m' : Machine} (h : execElse o fuel other m = .failed e m') :
    ∃ part ∈ partsElse other, part.RaisesWithin e := by
  match other with
  | none =>
    rw [execElse] at h
    cases h
  | some b =>
    rw [execElse] at h
    rw [partsElse]
    exact raises_of_execBlock b h

theorem raises_of_execAll (ss : List Statement) {m m' : Machine} (h : execAll o fuel ss m = .failed e m') :
    ∃ part ∈ partsAll ss, part.RaisesWithin e := by
  match ss with
  | [] =>
    rw [execAll] at h
    cases h
  | s :: rest =>
    rw [execAll] at h
    rw [partsAll]
    split at h
    · obtain ⟨part, hpart, hraises⟩ := raises_of_execAll rest h
      exact ⟨part, List.mem_append_right _ hpart, hraises⟩
    · next hrun =>
      cases h
      obtain ⟨part, hpart, hraises⟩ := raises_of_exec s hrun
      exact ⟨part, List.mem_append_left _ hpart, hraises⟩
    · cases h

end

end Statement

/-! ## Positions -/

theorem Expr.Raises.position_eq {e : Expr} {fault : RuntimeError} (h : e.Raises fault) :
    fault.position? = some e.position := by
  cases h <;> rfl

/-- An error that a statement raises itself is where the statement begins, or where its condition is. -/
theorem Statement.Raises.position_eq {s : Statement} {fault : RuntimeError} (h : s.Raises fault) {p : Position}
    (hp : fault.position? = some p) : p = s.position ∨ ∃ c ∈ s.exprs, p = c.position := by
  cases h with
  | @choice c | @iteration c =>
    cases hp
    exact .inr ⟨c, List.mem_singleton_self c, rfl⟩
  | malformed | full => cases hp
  | redeclaration | initial | unassignable | store | unreadable | line | exhausted =>
    cases hp
    exact .inl rfl

/-- Whatever is in an expression is where one of its tokens is. -/
theorem Expr.Flattens.inOrder_position {τ : Nat} {e : Expr} {ts : List Token} (h : e.Flattens τ ts) :
    ∀ part ∈ e.inOrder, ∃ t ∈ ts, t.position = part.position := by
  have hself := h.exists_position
  induction h with
  | literal | name =>
    rw [inOrder, List.forall_mem_singleton]
    exact hself
  | group hl he hr ih =>
    rw [inOrder, List.forall_mem_append, List.forall_mem_singleton]
    refine ⟨fun part hpart => ?_, hself⟩
    obtain ⟨t, ht, hposition⟩ := ih he.exists_position part hpart
    exact ⟨t, by simp [ht], hposition⟩
  | unary hsymbol he ih =>
    rw [inOrder, List.forall_mem_append, List.forall_mem_singleton]
    refine ⟨fun part hpart => ?_, hself⟩
    obtain ⟨t, ht, hposition⟩ := ih he.exists_position part hpart
    exact ⟨t, by simp [ht], hposition⟩
  | binary hlevel hl hsymbol hr ihl ihr =>
    rw [inOrder, List.forall_mem_append, List.forall_mem_append, List.forall_mem_singleton]
    refine ⟨fun part hpart => ?_, fun part hpart => ?_, hself⟩
    · obtain ⟨t, ht, hposition⟩ := ihl hl.exists_position part hpart
      exact ⟨t, by simp [ht], hposition⟩
    · obtain ⟨t, ht, hposition⟩ := ihr hr.exists_position part hpart
      exact ⟨t, by simp [ht], hposition⟩

/-- An error that is raised in a statement is where one of its tokens is. -/
theorem Statement.RaisesWithin.exists_token {s : Statement} {fault : RuntimeError} (h : s.RaisesWithin fault) {n : Nat}
    {ts : List Token} (hflat : s.Flattens n ts) {p : Position} (hp : fault.position? = some p) :
    ∃ t ∈ ts, t.position = p := by
  have hexprs : ∀ c ∈ s.exprs, ∀ part ∈ c.inOrder, ∃ t ∈ ts, t.position = part.position := by
    intro c hc part hpart
    obtain ⟨-, us, hus, he⟩ := hflat.exprs c hc
    obtain ⟨t, ht, hposition⟩ := he.inOrder_position part hpart
    exact ⟨t, hus.subset ht, hposition⟩
  rcases h with hself | ⟨c, hc, part, hpart, hraises⟩
  · rcases hself.position_eq hp with rfl | ⟨c, hc, rfl⟩
    · exact hflat.exists_position
    · exact hexprs c hc c c.mem_inOrder
  · obtain rfl : p = part.position := by simpa [hraises.position_eq, eq_comm] using hp
    exact hexprs c hc part hpart

namespace Program

/-- The parts of a program that was read are derived from the tokens of the source. -/
theorem parts_derived {source : String} {program : Program} (h : Program.parse source = .ok program) :
    ∃ n, ∀ s ∈ program.parts, s.DerivedWithin n (tokenize source).tokens := by
  obtain ⟨-, n, -, hall⟩ := Grammar.flattens_of_programFrom h
  exact ⟨n, hall.parts⟩

/-- A run that fails does so with an error that a statement of the program raises, or something in an expression of that
statement. If the program was read from a source, the error is where a token of the source is. -/
theorem run_failed {o : Options} {fuel : Nat} {program : Program} {m m' : Machine} {e : RuntimeError}
    (h : program.run o fuel m = .failed e m') :
    (∃ s ∈ program.parts, s.RaisesWithin e) ∧
      ∀ source, Program.parse source = .ok program → ∀ p, e.position? = some p →
        ∃ t ∈ (tokenize source).tokens, t.position = p := by
  obtain ⟨s, hs, hraises⟩ := Statement.raises_of_execAll program.statements h
  refine ⟨⟨s, hs, hraises⟩, fun source hsource p hp => ?_⟩
  obtain ⟨n, hderived⟩ := parts_derived hsource
  obtain ⟨k, us, -, hus, hflat⟩ := hderived s hs
  obtain ⟨t, ht, hposition⟩ := hraises.exists_token hflat hp
  exact ⟨t, hus.subset ht, hposition⟩

def summing : Program :=
  let sum : Expr := .binary (.name "x" ⟨1, 6⟩) (.arithmetic .add) (.name "y" ⟨1, 8⟩) ⟨1, 7⟩
  ⟨[.block ⟨[.conditional (.group sum) ⟨[], ⟨1, 11⟩⟩ none ⟨1, 2⟩], ⟨1, 1⟩⟩]⟩

theorem statements_summing :
    Grammar.statements (tokenize "{se((x+y)){}}").cursor = (summing.statements, .start [] ⟨1, 14⟩) := by
  have hcursor : (tokenize "{se((x+y)){}}").cursor = .start
      [⟨.symbol .openBrace, "\x7b", ⟨1, 1⟩⟩, ⟨.keyword .se, "se", ⟨1, 2⟩⟩, ⟨.symbol .openParen, "(", ⟨1, 4⟩⟩,
       ⟨.symbol .openParen, "(", ⟨1, 5⟩⟩, ⟨.name "x", "x", ⟨1, 6⟩⟩, ⟨.symbol .plus, "+", ⟨1, 7⟩⟩,
       ⟨.name "y", "y", ⟨1, 8⟩⟩, ⟨.symbol .closeParen, ")", ⟨1, 9⟩⟩, ⟨.symbol .closeParen, ")", ⟨1, 10⟩⟩,
       ⟨.symbol .openBrace, "\x7b", ⟨1, 11⟩⟩, ⟨.symbol .closeBrace, "\x7d", ⟨1, 12⟩⟩,
       ⟨.symbol .closeBrace, "\x7d", ⟨1, 13⟩⟩]
      ⟨1, 14⟩ :=
    congrArg₂ Grammar.Cursor.start (by decide +kernel) (by decide +kernel)
  rw [hcursor]
  rfl

/-- A sum is no truth value, and this is told at its sign. -/
theorem run_failed_summing :
    let m : Machine := ⟨⟨[("x", ⟨.integer 2, none⟩)], [[("y", ⟨.integer 1, none⟩)]]⟩, [], ⟨#[], none⟩, #[]⟩
    let fault : RuntimeError := .type (.condition (some .integer)) ⟨1, 7⟩
    summing.run ⟨false, false⟩ 0 m = .failed fault m ∧ (∃ s ∈ summing.parts, s.RaisesWithin fault) ∧
      ∃ t ∈ (tokenize "{se((x+y)){}}").tokens, t.position = ⟨1, 7⟩ := by
  intro m fault
  have hparse : Program.parse "{se((x+y)){}}" = .ok summing :=
    Grammar.programFrom_eq_ok_iff.2 ⟨by decide +kernel, by rw [statements_summing]; rfl, by rw [statements_summing]⟩
  have hrun : summing.run ⟨false, false⟩ 0 m = .failed fault m := rfl
  obtain ⟨hraised, htoken⟩ := run_failed hrun
  exact ⟨hrun, hraised, htoken _ hparse ⟨1, 7⟩ rfl⟩

end Program
end Portugol
