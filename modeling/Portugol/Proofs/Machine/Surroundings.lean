import Portugol.Proofs.Machine.Tandem

/-! # Runs among other variables

The same statements are run among different variables. The two runs do the same if the names that occur in the
statements are bound alike, and stay so when one of them is assigned to in both (`Scopes.Simulation`); for what is
declared outside of all blocks, declaring it in both has to keep the names alike too. Frames that are entered on the way
are the same in both (`Scopes.Above`), so nothing has to be known of what is done in blocks. -/
namespace Portugol

/-! ## Evaluation -/

/-- The value of an expression depends on the names that occur in it, and on nothing else. -/
theorem Expr.eval_congr {s t : Scopes} (e : Expr) (h : ∀ x ∈ e.names, t.get? x = s.get? x) : e.eval t = e.eval s := by
  induction e with
  | literal => rfl
  | name x p => simp only [eval, h x (List.mem_singleton_self x)]
  | group inner ih => exact ih h
  | unary op operand p ih => simp only [eval, ih h]
  | binary lhs op rhs p ihl ihr =>
    have hl := ihl fun x hx => h x (List.mem_append_left _ hx)
    have hr := ihr fun x hx => h x (List.mem_append_right _ hx)
    simp only [eval, hl, hr]

theorem Expr.test_congr {s t : Scopes} (e : Expr) (h : ∀ x ∈ e.names, t.get? x = s.get? x) : e.test t = e.test s := by
  simp only [test, e.eval_congr h]

namespace Statement

theorem initial_congr {s t : Scopes} (type : Option DataType) (p : Position) {init : Option Expr}
    (h : ∀ e ∈ init, ∀ x ∈ e.names, t.get? x = s.get? x) : initial t type p init = initial s type p init := by
  cases init with
  | none => rfl
  | some e => simp only [initial, e.eval_congr (h e rfl)]

theorem values_congr {s t : Scopes} {exprs : List Expr} (h : ∀ e ∈ exprs, ∀ x ∈ e.names, t.get? x = s.get? x) :
    values t exprs = values s exprs := by
  induction exprs with
  | nil => rfl
  | cons e rest ih =>
    obtain ⟨he, hrest⟩ := List.forall_mem_cons.1 h
    simp only [values, e.eval_congr he, ih hrest]

end Statement

/-! ## Frames on top -/

namespace Scopes

def enter (f : Frame) (s : Scopes) : Scopes := ⟨f, s.frames⟩

theorem get?_enter (f : Frame) (s : Scopes) (x : String) : (s.enter f).get? x = (f.get? x).or (s.get? x) := by
  rw [get?, enter, frames, List.findSome?_cons]
  cases f.get? x <;> rfl

/-- An assignment reaches the frames further out if the innermost one does not bind the name. -/
theorem assign_enter (f : Frame) (s : Scopes) (x : String) (v : Value) : (s.enter f).assign x v =
    match f.get? x with
    | some b => s.enter (f.insert x { b with value := v })
    | none => (s.assign x v).enter f := by
  simp only [assign, enter]
  cases f.get? x with
  | some b => rfl
  | none => simp only [← frames_assign, assign]

/-- Related scopes, with the same frames entered in both, so many. -/
inductive Above (base : Scopes → Scopes → Prop) : Nat → Scopes → Scopes → Prop where
  | outside {s t} (h : base s t) : Above base 0 s t
  | inside {n s t} (f : Frame) (h : Above base n s t) : Above base (n + 1) (s.enter f) (t.enter f)

/-- Certain names are bound alike in related scopes, and an assignment to one of them keeps the scopes related; so does
a declaration, if there are any outside of all blocks. -/
structure Simulation (among : String → Prop) (declares : Prop) (base : Scopes → Scopes → Prop) : Prop where
  get?_eq {s t x} (hx : among x) (h : base s t) : t.get? x = s.get? x
  assign {s t x} (hx : among x) (h : base s t) (v : Value) : base (s.assign x v) (t.assign x v)
  isLocal_eq {s t x} (hd : declares) (hx : among x) (h : base s t) : t.isLocal x = s.isLocal x
  declare {s t x} (hd : declares) (hx : among x) (h : base s t) (b : Binding) : base (s.declare x b) (t.declare x b)

namespace Above

variable {among : String → Prop} {declares : Prop} {base : Scopes → Scopes → Prop} {n : Nat} {s t : Scopes} {x : String}

theorem push (h : Above base n s t) : Above base (n + 1) s.push t.push := .inside [] h

theorem pop (h : Above base (n + 1) s t) : Above base n s.pop t.pop := by
  cases h with
  | inside f h => exact h

theorem get?_eq (hs : Simulation among declares base) (hx : among x) (h : Above base n s t) : t.get? x = s.get? x := by
  induction h with
  | outside h => exact hs.get?_eq hx h
  | inside f _ ih => rw [get?_enter, get?_enter, ih]

theorem assign (hs : Simulation among declares base) (hx : among x) (h : Above base n s t) (v : Value) :
    Above base n (s.assign x v) (t.assign x v) := by
  induction h with
  | outside h => exact .outside (hs.assign hx h v)
  | inside f h ih =>
    rw [assign_enter, assign_enter]
    cases f.get? x with
    | some b => exact .inside _ h
    | none => exact .inside f ih

theorem isLocal_eq (hs : Simulation among declares base) (hd : 0 < n ∨ declares) (hx : among x)
    (h : Above base n s t) : t.isLocal x = s.isLocal x := by
  cases h with
  | outside h => exact hs.isLocal_eq (hd.resolve_left (Nat.lt_irrefl 0)) hx h
  | inside f h => rfl

theorem declare (hs : Simulation among declares base) (hd : 0 < n ∨ declares) (hx : among x) (h : Above base n s t)
    (b : Binding) : Above base n (s.declare x b) (t.declare x b) := by
  cases h with
  | outside h => exact .outside (hs.declare (hd.resolve_left (Nat.lt_irrefl 0)) hx h b)
  | inside f h => exact .inside (f.insert x b) h

end Above
end Scopes

/-! ## Statements without blocks -/

/-- The same machine, but with related variables. -/
def Machine.Beside (related : Scopes → Scopes → Prop) (m m' : Machine) : Prop :=
  ∃ t, related m.scopes t ∧ m' = { m with scopes := t }

theorem Machine.report_withScopes (o : Options) (step : String) (m : Machine) (t : Scopes) :
    ({ m with scopes := t } : Machine).report o step = { m.report o step with scopes := t } := by
  rw [report, report]
  split <;> rfl

theorem Machine.declare_withScopes (o : Options) (step : String) (m : Machine) (t : Scopes) (x : String) (v : Value)
    (type : Option DataType) : (({ m with scopes := t } : Machine).report o step).declare x v type =
      { (m.report o step).declare x v type with scopes := t.declare x ⟨v, type⟩ } := by
  rw [report_withScopes, declare, declare]

theorem Machine.store_withScopes (o : Options) (step : String) (m : Machine) (t : Scopes) (x : String) (v : Value) :
    (({ m with scopes := t } : Machine).report o step).store x v =
      { (m.report o step).store x v with scopes := t.assign x v } := by
  rw [report_withScopes, store, store]

theorem Machine.Beside.report {related : Scopes → Scopes → Prop} {m m' : Machine} (h : m.Beside related m')
    (o : Options) (step : String) : (m.report o step).Beside related (m'.report o step) := by
  obtain ⟨t, h, rfl⟩ := h
  exact ⟨t, by rwa [scopes_report], report_withScopes o step m t⟩

namespace Scopes.Simulation

variable {among : String → Prop} {declares : Prop} {base : Scopes → Scopes → Prop}
  (hs : Simulation among declares base) {o : Options} {n : Nat} {m : Machine} {t : Scopes}
  (h : Above base n m.scopes t)
include hs h

theorem beside_declare {x : String} (hd : 0 < n ∨ declares) (hx : among x) (step : String) (v : Value)
    (type : Option DataType) : Machine.Beside (Above base n) ((m.report o step).declare x v type)
      ((({ m with scopes := t } : Machine).report o step).declare x v type) := by
  refine ⟨t.declare x ⟨v, type⟩, ?_, Machine.declare_withScopes ..⟩
  rw [Machine.declare, Machine.scopes_report]
  exact h.declare hs hd hx ⟨v, type⟩

theorem beside_store {x : String} (hx : among x) (step : String) (v : Value) :
    Machine.Beside (Above base n) ((m.report o step).store x v)
      ((({ m with scopes := t } : Machine).report o step).store x v) := by
  refine ⟨t.assign x v, ?_, Machine.store_withScopes ..⟩
  rw [Machine.store, Machine.scopes_report]
  exact h.assign hs hx v

theorem alike_declare {x : String} {init : Option Expr} (hd : 0 < n ∨ declares) (hx : among x)
    (hinit : ∀ e ∈ init, ∀ y ∈ e.names, among y) (type : Option DataType) (p : Position) :
    Outcome.Alike (Machine.Beside (Above base n)) (Statement.declare o x type init p m)
      (Statement.declare o x type init p { m with scopes := t }) := by
  have hvalue : Statement.initial t type p init = Statement.initial m.scopes type p init :=
    Statement.initial_congr type p fun e he y hy => h.get?_eq hs (hinit e he y hy)
  simp only [Statement.declare, h.isLocal_eq hs hd hx, hvalue]
  split
  · exact .failed ⟨t, h, rfl⟩
  · cases Statement.initial m.scopes type p init with
    | error e => exact .failed ⟨t, h, rfl⟩
    | ok v => exact .finished (hs.beside_declare h hd hx _ v type)

theorem alike_assign {x : String} {value : Expr} (hx : among x) (hvalue : ∀ y ∈ value.names, among y) (p : Position) :
    Outcome.Alike (Machine.Beside (Above base n)) (Statement.assign o x value p m)
      (Statement.assign o x value p { m with scopes := t }) := by
  have heval : value.eval t = value.eval m.scopes := value.eval_congr fun y hy => h.get?_eq hs (hvalue y hy)
  simp only [Statement.assign, heval, h.get?_eq hs hx]
  cases value.eval m.scopes with
  | error e => exact .failed ⟨t, h, rfl⟩
  | ok v =>
    simp only
    split
    · exact .failed ⟨t, h, rfl⟩
    · next binding _ =>
      cases Statement.stored binding.declared v p with
      | error e => exact .failed ⟨t, h, rfl⟩
      | ok w => exact .finished (hs.beside_store h hx _ w)

theorem alike_receive {x : String} {p : Position}
    (hd : ∀ y, Statement.Declares o m.scopes y (.read x p) → 0 < n ∨ declares) (hx : among x) (line : String) :
    Outcome.Alike (Machine.Beside (Above base n)) (Statement.receive o x p line m)
      (Statement.receive o x p line { m with scopes := t }) := by
  simp only [Statement.receive, h.get?_eq hs hx]
  cases hbound : m.scopes.get? x with
  | none =>
    simp only
    cases hstrict : o.strictReads with
    | true => exact .failed ⟨t, h, rfl⟩
    | false => exact .finished (hs.beside_declare h (hd x ⟨rfl, hstrict, hbound⟩) hx _ _ none)
  | some binding =>
    simp only
    split
    · exact .finished (hs.beside_store h hx _ _)
    · split
      · exact .finished (hs.beside_store h hx _ _)
      · exact .failed ⟨t, h, rfl⟩

theorem alike_input {x : String} {p : Position}
    (hd : ∀ y, Statement.Declares o m.scopes y (.read x p) → 0 < n ∨ declares) (hx : among x) :
    Outcome.Alike (Machine.Beside (Above base n)) (Statement.input o x p m)
      (Statement.input o x p { m with scopes := t }) := by
  simp only [Statement.input]
  split
  · exact .failed ⟨t, h, rfl⟩
  · exact .failed ⟨t, h, rfl⟩
  · next line rest _ => exact hs.alike_receive (m := { m with input := rest }) h hd hx line

omit hs in
theorem alike_print (texts : List String) :
    Outcome.Alike (Machine.Beside (Above base n)) (m.print texts) (({ m with scopes := t } : Machine).print texts) := by
  induction texts generalizing m with
  | nil => exact .finished ⟨t, h, rfl⟩
  | cons text rest ih =>
    simp only [Machine.print]
    split
    · next output _ => exact ih (m := { m with output := output }) h
    · exact .failed ⟨t, h, rfl⟩

theorem alike_output {exprs : List Expr} (hexprs : ∀ e ∈ exprs, ∀ y ∈ e.names, among y) :
    Outcome.Alike (Machine.Beside (Above base n)) (Statement.output o exprs m)
      (Statement.output o exprs { m with scopes := t }) := by
  have hvalues : Statement.values t exprs = Statement.values m.scopes exprs :=
    Statement.values_congr fun e he y hy => h.get?_eq hs (hexprs e he y hy)
  rw [Statement.output_eq_andThen, Statement.output_eq_andThen, hvalues]
  cases Statement.values m.scopes exprs with
  | error e => exact .failed ⟨t, h, rfl⟩
  | ok vs => exact (alike_print h _).andThen False.elim fun _ _ h => .finished (h.report o _)

/-- A statement without blocks does the same among related variables, if what it declares may be declared there. -/
theorem alike_plain {s : Statement} (hplain : s.IsPlain) (hnames : ∀ x ∈ s.names, among x)
    (hd : ∀ x, s.Declares o m.scopes x → 0 < n ∨ declares) (fuel : Nat) :
    Outcome.Alike (Machine.Beside (Above base n)) (s.exec o fuel m) (s.exec o fuel { m with scopes := t }) := by
  have hexprs : ∀ e ∈ s.exprs, ∀ x ∈ e.names, among x := fun e he x hx => hnames x (Statement.mem_names_of_exprs he hx)
  cases s with
  | declaration x type init p =>
    exact hs.alike_declare h (hd x rfl) (hnames x (Statement.mem_names_of_target? rfl))
      (fun e he => hexprs e (Option.mem_toList.2 he)) type p
  | assignment x value p =>
    exact hs.alike_assign h (hnames x (Statement.mem_names_of_target? rfl)) (hexprs value (List.mem_singleton_self _)) p
  | read x p => exact hs.alike_input h hd (hnames x (Statement.mem_names_of_target? rfl))
  | write exprs p => exact hs.alike_output h hexprs
  | conditional | repetition | block => exact hplain.elim

end Scopes.Simulation

/-! ## Runs -/

namespace Scopes.Simulation

variable {among : String → Prop} {declares : Prop} {base : Scopes → Scopes → Prop}

/-- The names of a statement are among those that are bound alike, and outside of all blocks it has blocks of its own,
unless something may be declared there. -/
def Admits (among : String → Prop) (declares : Prop) (n : Nat) (s : Statement) : Prop :=
  (∀ x ∈ s.names, among x) ∧ (s.IsPlain → 0 < n ∨ declares)

theorem tandem (hs : Simulation among declares base) (o : Options) :
    Tandem o o (Admits among declares) (fun n => Machine.Beside (Above base n)) (fun _ _ => False) where
  among_succ {n s} h := ⟨h.1, fun _ => .inl (Nat.succ_pos n)⟩
  plain := by
    rintro n s m _ hplain ⟨hnames, hd⟩ ⟨t, h, rfl⟩ fuel
    exact hs.alike_plain h hplain hnames (fun _ _ => hd hplain) fuel
  test := by
    rintro n s condition m _ ⟨hnames, -⟩ hcondition ⟨t, h, rfl⟩
    exact condition.test_congr fun x hx => h.get?_eq hs (hnames x (Statement.mem_names_of_exprs hcondition hx))
  report h step := h.report o step
  push := by
    rintro n m _ ⟨t, h, rfl⟩
    exact ⟨t.push, h.push, rfl⟩
  pop := by
    rintro n m _ ⟨t, h, rfl⟩
    exact ⟨t.pop, h.pop, rfl⟩
  leaving := False.elim
  andThen h := h.elim

end Scopes.Simulation
end Portugol
