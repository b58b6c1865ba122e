import Portugol.Machine.Execution
import Portugol.Proofs.Machine.Frames

/-! # What running a statement does to the scopes

A statement without blocks leaves the scopes as they are, declares one name in the innermost frame, or assigns to
one binding (`Scopes.Change`); whatever it stores in a variable with a declared type is of this type. This is all
that a step of a program can do to the scopes, however it ends (`exec_change`). -/
namespace Portugol

def Outcome.machine? : Outcome → Option Machine
  | .finished m | .failed _ m => some m
  | .unfinished => none

theorem Outcome.machine?_map (f : Machine → Machine) (r : Outcome) : (r.map f).machine? = r.machine?.map f := by
  cases r <;> rfl

@[simp] theorem Machine.scopes_report (o : Options) (step : String) (m : Machine) :
    (m.report o step).scopes = m.scopes := by
  rw [report]
  split <;> rfl

/-! ## Typed bindings -/

/-- A declared type is that of the value, unless there is no value yet. -/
def Binding.Typed (b : Binding) : Prop :=
  ∀ t, b.declared = some t → b.value = .undefined ∨ b.value.type? = some t

namespace Value

theorem type?_conform? {t : DataType} {v w : Value} (h : conform? t v = some w) :
    w = .undefined ∨ w.type? = some t := by
  unfold conform? at h
  split at h <;> cases h <;> first | exact .inl rfl | exact .inr rfl

theorem type?_ofLine? {line : String} {t : DataType} {v : Value} (h : ofLine? line t = some v) :
    v.type? = some t := by
  cases t with
  | integer | real =>
    rw [ofLine?] at h
    obtain ⟨n, -, rfl⟩ := Option.map_eq_some_iff.1 h
    rfl
  | boolean =>
    simp only [ofLine?, ofTruthWord?] at h
    split at h
    · cases h
      rfl
    split at h
    · cases h
      rfl
    · cases h
  | text =>
    cases h
    rfl

end Value

namespace Statement

/-- Whether a value can be stored does not depend on the place, which only the error tells. -/
theorem stored_cases (type : Option DataType) (v : Value) :
    (∃ w, ∀ p, stored type v p = .ok w) ∨
      ∃ target, type = some target ∧ Value.conform? target v = none ∧
        ∀ p, stored type v p = .error (.type (.store v.type? target) p) := by
  cases type with
  | none => exact .inl ⟨v, fun _ => rfl⟩
  | some target =>
    cases hv : Value.conform? target v with
    | some w => exact .inl ⟨w, fun p => by simp only [stored, hv]⟩
    | none => exact .inr ⟨target, rfl, hv, fun p => by simp only [stored, hv]⟩

theorem stored_typed {type : Option DataType} {v w : Value} {p : Position} (h : stored type v p = .ok w) :
    Binding.Typed ⟨w, type⟩ := by
  rintro t rfl
  simp only [stored] at h
  cases hw : Value.conform? t v with
  | none =>
    rw [hw] at h
    cases h
  | some w' =>
    rw [hw] at h
    cases h
    exact Value.type?_conform? hw

theorem initial_typed {scopes : Scopes} {type : Option DataType} {p : Position} {init : Option Expr} {v : Value}
    (h : initial scopes type p init = .ok v) : Binding.Typed ⟨v, type⟩ := by
  cases init with
  | none =>
    cases h
    exact fun t _ => .inl rfl
  | some e =>
    simp only [initial] at h
    cases he : e.eval scopes with
    | error e =>
      rw [he] at h
      cases h
    | ok w =>
      rw [he] at h
      exact stored_typed h

/-! ## Statements without blocks -/

def IsPlain : Statement → Prop
  | .declaration .. | .assignment .. | .read .. | .write .. => True
  | .conditional .. | .repetition .. | .block _ => False

/-- Whether a statement declares a name: a declaration does, and so does a read into an unknown name unless reads
are strict. -/
def Declares (o : Options) (scopes : Scopes) (x : String) : Statement → Prop
  | .declaration y .. => x = y
  | .read y _ => x = y ∧ o.strictReads = false ∧ scopes.get? x = none
  | .assignment .. | .write .. | .conditional .. | .repetition .. | .block _ => False

end Statement

/-- What a statement without blocks can do to the scopes, if it can declare certain names. -/
inductive Scopes.Change (s : Scopes) (declares : String → Prop) : Scopes → Prop where
  | none : Change s declares s
  | declare {x b} (hfree : s.binding? 0 x = .none) (hx : declares x) (hb : b.Typed) :
      Change s declares (s.declare x b)
  | assign {x v b} (hb : s.get? x = some b) (hv : Binding.Typed { b with value := v }) :
      Change s declares (s.assign x v)

namespace Statement

variable {o : Options} {m m' : Machine}

theorem declare_change {x : String} {type : Option DataType} {init : Option Expr} {p : Position}
    (h : (declare o x type init p m).machine? = some m') : m.scopes.Change (· = x) m'.scopes := by
  unfold declare at h
  split at h
  · cases h
    exact .none
  next hfree =>
  rw [Bool.not_eq_true, Scopes.isLocal_eq_false_iff] at hfree
  split at h
  · cases h
    exact .none
  · next v hv =>
    cases h
    simp only [Machine.declare, Machine.scopes_report]
    exact .declare hfree rfl (initial_typed hv)

theorem assign_change {x : String} {value : Expr} {p : Position} (h : (assign o x value p m).machine? = some m')
    (declares : String → Prop) : m.scopes.Change declares m'.scopes := by
  unfold assign at h
  split at h
  · cases h
    exact .none
  split at h
  · cases h
    exact .none
  next b hb =>
  split at h
  · cases h
    exact .none
  · next v hv =>
    cases h
    simp only [Machine.store, Machine.scopes_report]
    exact .assign hb (stored_typed hv)

/-- A variable that wants no type has no declared one. -/
theorem typed_of_wanted_eq_none {b : Binding} (h : wanted b = none) (v : Value) :
    Binding.Typed { b with value := v } := by
  intro t ht
  simp only at ht
  rw [wanted, ht] at h
  cases h

theorem typed_of_wanted {b : Binding} {t : DataType} (h : wanted b = some t) {v : Value} (hv : v.type? = some t) :
    Binding.Typed { b with value := v } := by
  intro t' ht
  simp only at ht
  rw [wanted, ht] at h
  cases h
  exact .inr hv

theorem receive_change {x : String} {p : Position} {line : String} (h : (receive o x p line m).machine? = some m') :
    m.scopes.Change (fun y => Declares o m.scopes y (.read x p)) m'.scopes := by
  simp only [receive] at h
  cases hx : m.scopes.get? x with
  | none =>
    simp only [hx] at h
    split at h
    · cases h
      exact .none
    · next hlax =>
      cases h
      simp only [Machine.declare, Machine.scopes_report]
      refine .declare (Scopes.binding?_eq_none_of_get? hx) ⟨rfl, ?_, hx⟩ ?_
      · simpa using hlax
      · exact nofun
  | some b =>
    simp only [hx] at h
    cases ht : wanted b with
    | none =>
      simp only [ht] at h
      cases h
      simp only [Machine.store, Machine.scopes_report]
      exact .assign hx (typed_of_wanted_eq_none ht _)
    | some t =>
      simp only [ht] at h
      split at h
      · next v hv =>
        cases h
        simp only [Machine.store, Machine.scopes_report]
        exact .assign hx (typed_of_wanted ht (Value.type?_ofLine? hv))
      · cases h
        exact .none

theorem input_change {x : String} {p : Position} (h : (input o x p m).machine? = some m') :
    m.scopes.Change (fun y => Declares o m.scopes y (.read x p)) m'.scopes := by
  unfold input at h
  split at h
  · cases h
    exact .none
  · cases h
    exact .none
  · next line rest _ => exact receive_change (m := { m with input := rest }) h

theorem scopes_print {texts : List String} (h : (m.print texts).machine? = some m') : m'.scopes = m.scopes := by
  induction texts generalizing m with
  | nil =>
    cases h
    rfl
  | cons text rest ih =>
    rw [Machine.print] at h
    split at h
    · next output _ => exact ih (m := { m with output := output }) h
    · cases h
      rfl

theorem scopes_output {exprs : List Expr} (h : (output o exprs m).machine? = some m') : m'.scopes = m.scopes := by
  unfold output at h
  split at h
  · cases h
    rfl
  next vs _ =>
  cases hprint : m.print (vs.map Value.render ++ ["\n"]) with
  | finished m₁ =>
    rw [hprint] at h
    cases h
    rw [Machine.scopes_report]
    exact scopes_print (congrArg Outcome.machine? hprint)
  | failed e m₁ =>
    rw [hprint] at h
    cases h
    exact scopes_print (congrArg Outcome.machine? hprint)
  | unfinished =>
    rw [hprint] at h
    cases h

/-- All that a statement without blocks can do to the scopes, however it ends. -/
theorem exec_change {s : Statement} (hs : s.IsPlain) {fuel : Nat} (h : (exec o fuel s m).machine? = some m') :
    m.scopes.Change (fun x => s.Declares o m.scopes x) m'.scopes := by
  cases s with
  | declaration x type init p => exact declare_change h
  | assignment x value p => exact assign_change h _
  | read x p => exact input_change h
  | write exprs p =>
    rw [scopes_output h]
    exact .none
  | conditional | repetition | block => exact hs.elim

end Statement
end Portugol
