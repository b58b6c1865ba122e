import Portugol.Proofs.Machine.Tandem

/-! # Two runs side by side

The same program is run from two machines with the same variables that differ in their streams, or under two options.
The two runs stay together as long as every read and every text that is written keeps the machines together. Where one
of these sets them apart, what is said of the two from there on has to stand whatever the first run does next, as long
as it only reads on and writes on (`Coupling`). Then the two runs end in the same way, or they went apart
(`together_execAll`). -/
namespace Portugol

/-- Machines with the same variables, which stay together when the same is stored in both and the same is reported. -/
structure Pairing (o o' : Options) (together : Machine → Machine → Prop) : Prop where
  scopes_eq {m m'} (h : together m m') : m'.scopes = m.scopes
  withScopes {m m'} (h : together m m') (s : Scopes) : together { m with scopes := s } { m' with scopes := s }
  report {m m'} (h : together m m') (step : String) : together (m.report o step) (m'.report o' step)

/-- What keeps two runs of the same statements together, and what is said of them once they went apart. -/
structure Coupling (o o' : Options) (among : Statement → Prop) (together : Machine → Machine → Prop)
    (apart : Outcome → Outcome → Prop) : Prop extends Pairing o o' together where
  input {m m' x p} (hx : among (.read x p)) (h : together m m') :
    Outcome.Together together apart (Statement.input o x p m) (Statement.input o' x p m')
  print {m m'} (h : together m m') (texts : List String) :
    Outcome.Together together apart (m.print texts) (m'.print texts)
  leaving {r r'} (h : apart r r') : apart (r.map Machine.pop) (r'.map Machine.pop)
  andThen {r r'} (h : apart r r') {next next'} (hnext : ∀ m m₁, (next m).machine? = some m₁ → m.Onward m₁) :
    apart (r.andThen next) (r'.andThen next')

/-! ## Variables -/

namespace Pairing

variable {o o' : Options} {together : Machine → Machine → Prop} {apart : Outcome → Outcome → Prop}
  (hp : Pairing o o' together)
include hp

theorem together_push {m m' : Machine} (h : together m m') : together m.push m'.push := by
  rw [Machine.push, Machine.push, hp.scopes_eq h]
  exact hp.withScopes h _

theorem together_pop {m m' : Machine} (h : together m m') : together m.pop m'.pop := by
  rw [Machine.pop, Machine.pop, hp.scopes_eq h]
  exact hp.withScopes h _

theorem together_store {m m' : Machine} (h : together m m') (step : String) (g : Scopes → Scopes) :
    together { m.report o step with scopes := g (m.report o step).scopes }
      { m'.report o' step with scopes := g (m'.report o' step).scopes } := by
  have hreport := hp.report h step
  rw [hp.scopes_eq hreport]
  exact hp.withScopes hreport _

theorem together_declare {m m' : Machine} (h : together m m') (x : String) (type : Option DataType)
    (init : Option Expr) (p : Position) : Outcome.Together together apart (Statement.declare o x type init p m)
      (Statement.declare o' x type init p m') := by
  rw [Statement.declare, Statement.declare, hp.scopes_eq h]
  split
  · exact .failed h
  · cases Statement.initial m.scopes type p init with
    | error e => exact .failed h
    | ok v => exact .finished (hp.together_store h _ fun s => s.declare x ⟨v, type⟩)

theorem together_assign {m m' : Machine} (h : together m m') (x : String) (value : Expr) (p : Position) :
    Outcome.Together together apart (Statement.assign o x value p m) (Statement.assign o' x value p m') := by
  rw [Statement.assign, Statement.assign, hp.scopes_eq h]
  cases value.eval m.scopes with
  | error e => exact .failed h
  | ok v =>
    simp only
    split
    · exact .failed h
    · next binding _ =>
      cases Statement.stored binding.declared v p with
      | error e => exact .failed h
      | ok w => exact .finished (hp.together_store h _ fun s => s.assign x w)

/-- A line that two machines receive into a variable that is bound keeps them together. -/
theorem together_receive_bound {m m' : Machine} (h : together m m') {x : String} {b : Binding}
    (hb : m.scopes.get? x = some b) (p : Position) (line : String) :
    Outcome.Together together apart (Statement.receive o x p line m) (Statement.receive o' x p line m') := by
  simp only [Statement.receive, hp.scopes_eq h, hb]
  split
  · exact .finished (hp.together_store h _ fun s => s.assign x (Value.infer line))
  · split
    · next v _ => exact .finished (hp.together_store h _ fun s => s.assign x v)
    · exact .failed h

/-- A line that two machines receive keeps them together, if both or none declare what is unknown. -/
theorem together_receive {m m' : Machine} (h : together m m') (hstrict : o.strictReads = o'.strictReads) (x : String)
    (p : Position) (line : String) : Outcome.Together together apart (Statement.receive o x p line m)
      (Statement.receive o' x p line m') := by
  cases hx : m.scopes.get? x with
  | none =>
    simp only [Statement.receive, hp.scopes_eq h, hx, ← hstrict]
    split
    · exact .failed h
    · exact .finished (hp.together_store h _ fun s => s.declare x ⟨Value.infer line, none⟩)
  | some b => exact hp.together_receive_bound h hx p line

end Pairing

/-! ## Runs -/

namespace Coupling

variable {o o' : Options} {among : Statement → Prop} {together : Machine → Machine → Prop}
  {apart : Outcome → Outcome → Prop} (hc : Coupling o o' among together apart)
include hc

theorem together_output {m m' : Machine} (h : together m m') (exprs : List Expr) :
    Outcome.Together together apart (Statement.output o exprs m) (Statement.output o' exprs m') := by
  rw [Statement.output_eq_andThen, Statement.output_eq_andThen, hc.scopes_eq h]
  cases Statement.values m.scopes exprs with
  | error e => exact .failed h
  | ok vs =>
    refine (hc.print h _).andThen (fun hapart => hc.andThen hapart ?_) fun m m' h => .finished (hc.report h _)
    intro m m₁ hreport
    cases hreport
    exact .report m o _

/-- How many frames were entered does not matter. -/
theorem tandem : Tandem o o' (fun _ => among) (fun _ => together) apart where
  among_succ hs := hs
  plain {n s m m'} hplain hs h fuel := by
    cases s with
    | declaration x type init p => exact hc.together_declare h x type init p
    | assignment x value p => exact hc.together_assign h x value p
    | read x p => exact hc.input hs h
    | write exprs p => exact hc.together_output h exprs
    | conditional | repetition | block => exact hplain.elim
  test _ _ h := by rw [hc.scopes_eq h]
  report := hc.report
  push := hc.together_push
  pop := hc.together_pop
  leaving := hc.leaving
  andThen := hc.andThen

/-- Statements in a row that are run from two machines that are together end in the same way, or the runs went
apart. -/
theorem together_execAll (fuel : Nat) (ss : List Statement) (hss : ∀ t ∈ Statement.partsAll ss, among t)
    {m m' : Machine} (h : together m m') :
    Outcome.Together together apart (Statement.execAll o fuel ss m) (Statement.execAll o' fuel ss m') :=
  hc.tandem.together_execAll (n := 0) fuel ss hss h

end Coupling
end Portugol
