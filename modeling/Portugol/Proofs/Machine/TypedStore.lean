import Portugol.Proofs.Machine.Runs

/-! # The types of stored values

A variable that was declared with a type holds a value of this type, or none yet. This is so of every binding in
every frame, hidden ones too, after every statement of every program of a session, whatever the programs read and
whether or not they fail. -/
namespace Portugol

namespace Scopes

def Typed (s : Scopes) : Prop := ∀ i x b, s.binding? i x = some b → b.Typed

variable {s t : Scopes} {declares : String → Prop}

theorem typed_empty : Scopes.empty.Typed := by
  intro i x b hb
  rw [binding?_empty] at hb
  cases hb

theorem Typed.push (h : s.Typed) : s.push.Typed := by
  intro i x b hb
  cases i with
  | zero => cases hb
  | succ i => exact h i x b hb

theorem Typed.pop (h : s.Typed) : s.pop.Typed := by
  by_cases hs : 1 < s.depth
  · intro i x b hb
    rw [binding?_pop _ _ _ hs] at hb
    exact h (i + 1) x b hb
  · obtain ⟨current, _ | ⟨f, rest⟩⟩ := s
    · exact h
    · exact absurd (Nat.succ_lt_succ (Nat.succ_pos rest.length)) hs

theorem Typed.declare (h : s.Typed) {x : String} {b : Binding} (hb : b.Typed) : (s.declare x b).Typed := by
  intro i y c hc
  rw [binding?_declare] at hc
  split at hc
  · cases hc
    exact hb
  · exact h i y c hc

/-- The binding that is assigned to is the one that the name has. -/
theorem Typed.assign (h : s.Typed) {x : String} {v : Value} {b : Binding} (hb : s.get? x = some b)
    (hv : Binding.Typed { b with value := v }) : (s.assign x v).Typed := by
  intro i y c hc
  rw [binding?_assign] at hc
  split at hc
  · next hfirst =>
    obtain ⟨rfl, hfirst⟩ := hfirst
    obtain ⟨b', hb', rfl⟩ := Option.map_eq_some_iff.1 hc
    rw [get?_eq_of_first hb' hfirst] at hb
    cases hb
    exact hv
  · exact h i y c hc

theorem Typed.change (hs : s.Typed) (h : s.Change declares t) : t.Typed := by
  cases h with
  | none => exact hs
  | declare _ _ hb => exact hs.declare hb
  | assign hb hv => exact hs.assign hb hv

theorem Typed.discipline : Discipline (fun s t => s.Typed → t.Typed) (fun s t => s.Typed → t.Typed) where
  change h hs := hs.change h
  across_trans h h' hs := h' (h hs)
  across_of_around h := h
  refl _ := id
  trans h h' hs := h' (h hs)
  block h hs := (h hs.push).pop

theorem Session.typed (h : s.Session t) (hs : s.Typed) : t.Typed := by
  induction h with
  | refl => exact hs
  | tail _ hcall ih =>
    obtain ⟨o, fuel, program, m, m', rfl, hrun, rfl⟩ := hcall
    exact Statement.execAll_across Typed.discipline program.statements hrun ih

end Scopes

namespace Statement

variable {o : Options} {fuel : Nat} {m m' : Machine} {s : Statement}

theorem exec_typed (hm : m.scopes.Typed) (h : (exec o fuel s m).machine? = some m') : m'.scopes.Typed := by
  by_cases hs : s.IsPlain
  · exact hm.change (exec_change hs h)
  · exact exec_around Scopes.Typed.discipline s hs h hm

theorem Enters.typed {b : Block} (h : s.Enters o m b m') (hm : m.scopes.Typed) : m'.scopes.Typed := by
  induction h with
  | block | thenBlock | elseBlock => exact hm
  | iteration =>
    rw [Machine.scopes_report]
    exact hm
  | later _ hrun _ ih =>
    have hbody := execBlock_around Scopes.Typed.discipline _ (congrArg Outcome.machine? hrun)
    rw [Machine.scopes_report] at hbody
    exact ih (hbody hm)

/-- Every statement that is begun finds the bindings typed. -/
theorem Begins.typed {ss : List Statement} (h : Begins o ss m s m') (hm : m.scopes.Typed) : m'.scopes.Typed := by
  induction h with
  | first => exact hm
  | later hrun _ ih => exact ih (exec_typed hm (congrArg Outcome.machine? hrun))
  | inside henter _ ih => exact ih (henter.typed hm).push

theorem receive_bound {b : Binding} {x line : String} {p : Position} (hb : m.scopes.get? x = some b)
    (h : receive o x p line m = .finished m') :
    ∃ v, m'.scopes = m.scopes.assign x v ∧ ∀ t, wanted b = some t → v.type? = some t := by
  simp only [receive, hb] at h
  cases ht : wanted b with
  | none =>
    simp only [ht] at h
    cases h
    refine ⟨Value.infer line, ?_, ?_⟩
    · simp only [Machine.store, Machine.scopes_report]
    · intro t ht'
      cases ht'
  | some t =>
    simp only [ht] at h
    cases hv : Value.ofLine? line t with
    | none =>
      rw [hv] at h
      cases h
    | some v =>
      rw [hv] at h
      cases h
      refine ⟨v, ?_, ?_⟩
      · simp only [Machine.store, Machine.scopes_report]
      · intro t' ht'
        cases ht'
        exact Value.type?_ofLine? hv

/-- What a read into a bound variable leaves there, if it succeeds. -/
theorem exec_read {b : Binding} {x : String} {p : Position} (hb : m.scopes.get? x = some b)
    (h : exec o fuel (.read x p) m = .finished m') :
    ∃ v, m'.scopes.get? x = some { b with value := v } ∧ ∀ t, wanted b = some t → v.type? = some t := by
  rw [exec, input] at h
  split at h
  · cases h
  · cases h
  · next line rest _ =>
    obtain ⟨v, hscopes, htype⟩ := receive_bound (m := { m with input := rest }) hb h
    exact ⟨v, by rw [hscopes]; exact Scopes.get?_assign v hb, htype⟩

end Statement

/-- In a session that begins without variables, every binding is typed between the programs, and every statement
that is begun, at whatever depth, leaves every binding typed when it ends. A read that succeeds leaves a variable
that was bound with a value of its declared type, or, if it has none, with one of the type that its value had. -/
theorem Scopes.typed_by_statements_and_reads :
    (∀ m : Machine, Scopes.empty.Session m.scopes → m.scopes.Typed ∧
      ∀ (o : Options) (program : Program) (s : Statement) (m₁ : Machine),
        Statement.Begins o program.statements m s m₁ →
        ∀ (fuel : Nat) (m₂ : Machine), (s.exec o fuel m₁).machine? = some m₂ → m₂.scopes.Typed) ∧
    (∀ (o : Options) (fuel : Nat) (m m' : Machine) (x : String) (p : Position) (b : Binding),
      m.scopes.get? x = some b → (Statement.read x p).exec o fuel m = .finished m' →
      ∃ b', m'.scopes.get? x = some b' ∧ b'.declared = b.declared ∧
        (∀ t, b.declared = some t → b'.value.type? = some t) ∧
        (b.declared = none → b.value ≠ .undefined → b'.value.type? = b.value.type?)) := by
  constructor
  · intro m hsession
    have hm : m.scopes.Typed := hsession.typed Scopes.typed_empty
    exact ⟨hm, fun o program s m₁ hbegins fuel m₂ hrun => Statement.exec_typed (hbegins.typed hm) hrun⟩
  · intro o fuel m m' x p b hb hrun
    obtain ⟨v, hv, htype⟩ := Statement.exec_read hb hrun
    refine ⟨{ b with value := v }, hv, rfl, fun t ht => htype t ?_, fun hnone hvalue => ?_⟩
    · rw [Statement.wanted, ht]
      rfl
    · obtain ⟨t, ht⟩ : ∃ t, b.value.type? = some t := by
        cases hkind : b.value with
        | undefined => exact absurd hkind hvalue
        | integer | real | boolean | text => exact ⟨_, rfl⟩
      have hwanted : Statement.wanted b = some t := by
        rw [Statement.wanted, hnone, ht]
        rfl
      rw [ht]
      exact htype t hwanted

/-- A whole number is read into a variable of this type, from inside a block. -/
theorem Scopes.typed_by_reading_a_number :
    let after : Machine := ⟨⟨[], [[("n", ⟨.integer 5, some .integer⟩)]]⟩, [], ⟨#[], none⟩, #[]⟩
    after.scopes.Typed ∧ ∃ b, after.scopes.get? "n" = some b ∧ b.value.type? = some .integer := by
  intro after
  let before : Machine := ⟨⟨[], [[("n", ⟨.undefined, some .integer⟩)]]⟩, [53, 10], ⟨#[], none⟩, #[]⟩
  have hread : (Statement.read "n" .start).exec ⟨false, true⟩ 0 before = .finished after := rfl
  have hdeclared : (Statement.declaration "n" (some .integer) none .start).exec ⟨false, true⟩ 0
      (.start [53, 10] none) = .finished before.pop := rfl
  have hbegins : Statement.Begins ⟨false, true⟩ [.declaration "n" (some .integer) none .start,
      .block ⟨[.read "n" .start], .start⟩] (.start [53, 10] none) (.read "n" .start) before :=
    .later hdeclared (.inside .block .first)
  obtain ⟨htyped, hreads⟩ := Scopes.typed_by_statements_and_reads
  obtain ⟨b, hb, -, htype, -⟩ :=
    hreads ⟨false, true⟩ 0 before after "n" .start ⟨.undefined, some .integer⟩ rfl hread
  exact ⟨(htyped (.start [53, 10] none) .refl).2 _ ⟨_⟩ _ _ hbegins 0 after (congrArg Outcome.machine? hread),
    b, hb, htype _ rfl⟩

end Portugol
