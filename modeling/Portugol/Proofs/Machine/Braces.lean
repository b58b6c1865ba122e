import Portugol.Proofs.Machine.Surroundings

/-! # Braces around statements

An empty frame under those that a statement enters is not seen by it, so a statement that declares nothing itself does
in a frame of its own what it does without (`exec_push`), and braces around it change nothing. Around a statement that
declares a name they take this one binding away again, and nothing else (`exec_braced`). -/
namespace Portugol

/-! ## An empty frame -/

namespace Scopes

theorem get?_push (s : Scopes) (x : String) : s.push.get? x = s.get? x := get?_enter [] s x

theorem assign_push (s : Scopes) (x : String) (v : Value) : s.push.assign x v = (s.assign x v).push :=
  assign_enter [] s x v

theorem simulation_push : Simulation (fun _ => True) False fun s t => t = s.push where
  get?_eq _ h := h ▸ get?_push _ _
  assign _ h v := h ▸ assign_push _ _ v
  isLocal_eq := False.elim
  declare := False.elim

end Scopes

/-- A frame that is entered and left makes no difference. -/
theorem Outcome.map_push_map_pop (r : Outcome) : (r.map Machine.push).map Machine.pop = r := by
  cases r <;> rfl

namespace Statement

variable {o : Options} {m : Machine}

theorem not_declares_of_not_isPlain {s : Statement} (hs : ¬ s.IsPlain) (scopes : Scopes) (x : String) :
    ¬ s.Declares o scopes x := by
  cases s with
  | declaration | assignment | read | write => exact absurd trivial hs
  | conditional | repetition | block => exact id

/-- A statement that declares nothing does in an empty frame what it does without it, and leaves this frame empty. -/
theorem exec_push {s : Statement} (hs : ∀ x, ¬ s.Declares o m.scopes x) (fuel : Nat) :
    s.exec o fuel m.push = (s.exec o fuel m).map Machine.push := by
  have hempty : Scopes.Above (fun s t => t = s.push) 0 m.scopes m.scopes.push := .outside rfl
  have halike : Outcome.Alike (Machine.Beside (Scopes.Above (fun s t => t = s.push) 0)) (s.exec o fuel m)
      (s.exec o fuel m.push) := by
    by_cases hplain : s.IsPlain
    · exact Scopes.simulation_push.alike_plain hempty hplain (fun _ _ => trivial) (fun x hx => absurd hx (hs x)) fuel
    · refine (Scopes.simulation_push.tandem o).together_exec fuel s ?_ (fun t _ => ?_) ⟨m.scopes.push, hempty, rfl⟩
      · exact ⟨fun _ _ => trivial, fun h => absurd h hplain⟩
      · exact ⟨fun _ _ => trivial, fun _ => .inl (Nat.succ_pos 0)⟩
  refine Outcome.Alike.eq_map (halike.mono fun m₁ m₂ h => ?_)
  obtain ⟨t, h, rfl⟩ := h
  cases h with
  | outside h => rw [h, Machine.push]

theorem execAll_singleton (fuel : Nat) (s : Statement) (m : Machine) : execAll o fuel [s] m = s.exec o fuel m := by
  rw [execAll]
  cases s.exec o fuel m with
  | finished m => simp only [execAll]
  | failed e m => rfl
  | unfinished => rfl

theorem execAll_push {ss : List Statement} (hss : ∀ s ∈ ss, ¬ s.IsPlain) (fuel : Nat) (m : Machine) :
    execAll o fuel ss m.push = (execAll o fuel ss m).map Machine.push := by
  induction ss generalizing m with
  | nil => simp only [execAll, Outcome.map]
  | cons s rest ih =>
    obtain ⟨hs, hrest⟩ := List.forall_mem_cons.1 hss
    rw [execAll, execAll, exec_push (not_declares_of_not_isPlain hs m.scopes)]
    cases s.exec o fuel m with
    | finished m => exact ih hrest m
    | failed e m => rfl
    | unfinished => rfl

/-- Braces around statements that all have blocks of their own change nothing. -/
theorem execBlock_eq_execAll {ss : List Statement} (hss : ∀ s ∈ ss, ¬ s.IsPlain) (p : Position) (fuel : Nat)
    (m : Machine) : execBlock o fuel ⟨ss, p⟩ m = execAll o fuel ss m := by
  rw [execBlock, execAll_push hss, Outcome.map_push_map_pop]

/-! ## Declarations in a frame of their own -/

/-- A statement that declares a name and finishes does so wherever all names are bound alike and this one is free. -/
theorem exec_declares {s : Statement} {x : String} (hx : s.Declares o m.scopes x) {fuel : Nat} {m' : Machine}
    (h : s.exec o fuel m = .finished m') : m.scopes.binding? 0 x = none ∧ ∃ b, ∀ t : Scopes,
      (∀ y, t.get? y = m.scopes.get? y) → t.isLocal x = false →
        s.exec o fuel { m with scopes := t } = .finished { m' with scopes := t.declare x b } := by
  cases s with
  | declaration y type init p =>
    obtain rfl : x = y := hx
    rw [exec, declare] at h
    split at h
    · cases h
    next hfree =>
    rw [Bool.not_eq_true] at hfree
    cases hv : initial m.scopes type p init with
    | error e =>
      rw [hv] at h
      cases h
    | ok v =>
      rw [hv] at h
      cases h
      refine ⟨(m.scopes.isLocal_eq_false_iff x).1 hfree, ⟨v, type⟩, fun t hsame hlocal => ?_⟩
      have hinit : initial t type p init = .ok v :=
        (initial_congr type p fun _ _ y _ => hsame y).trans hv
      simp only [exec, declare, hlocal, hinit]
      exact congrArg Outcome.finished (Machine.declare_withScopes o _ m t x v type)
  | read y p =>
    obtain ⟨rfl, hlax, hnone⟩ := hx
    rw [exec, input] at h
    split at h
    · cases h
    · cases h
    next line rest hline =>
    simp only [receive, hnone, hlax] at h
    cases h
    refine ⟨m.scopes.binding?_eq_none_of_get? hnone, ⟨Value.infer line, none⟩, fun t hsame _ => ?_⟩
    have hnone' : t.get? x = none := (hsame x).trans hnone
    simp only [exec, input, hline, receive, hnone', hlax]
    exact congrArg Outcome.finished (Machine.declare_withScopes o _ { m with input := rest } t x _ none)
  | assignment | write | conditional | repetition | block => exact hx.elim

/-- Braces around a statement that declares nothing change nothing. -/
theorem exec_braced (o : Options) (fuel : Nat) (s : Statement) (p : Position) (m : Machine) :
    ((∀ x, ¬ s.Declares o m.scopes x) → exec o fuel (.block ⟨[s], p⟩) m = exec o fuel s m) ∧
    ∀ x m', s.Declares o m.scopes x → exec o fuel s m = .finished m' →
      m.scopes.binding? 0 x = none ∧ (∃ b, m'.scopes = m.scopes.declare x b) ∧
        exec o fuel (.block ⟨[s], p⟩) m = .finished { m' with scopes := m.scopes } := by
  have hblock : exec o fuel (.block ⟨[s], p⟩) m = (exec o fuel s m.push).map Machine.pop := by
    rw [exec, execBlock, execAll_singleton]
  constructor
  · intro hs
    rw [hblock, exec_push hs, Outcome.map_push_map_pop]
  · intro x m' hx h
    obtain ⟨hfree, b, hanywhere⟩ := exec_declares hx h
    have hhere := hanywhere m.scopes (fun _ => rfl) ((Scopes.isLocal_eq_false_iff _ x).2 hfree)
    have hinside := hanywhere m.scopes.push (Scopes.get?_push m.scopes) rfl
    refine ⟨hfree, ⟨b, ?_⟩, ?_⟩
    · rw [h] at hhere
      exact congrArg Machine.scopes (Outcome.finished.inj hhere)
    · rw [hblock]
      exact congrArg (Outcome.map Machine.pop) hinside

/-- A loop that declares a name in its body, and a declaration that takes its value from further out. -/
theorem exec_braced_loop :
    let m : Machine := ⟨⟨[("x", ⟨.integer 1, none⟩)], []⟩, [], ⟨#[], none⟩, #[]⟩
    let less : Expr := .binary (.name "x" ⟨1, 11⟩) (.order .less) (.literal (.integer 3) ⟨1, 15⟩) ⟨1, 13⟩
    let sum : Expr := .binary (.name "y" ⟨1, 36⟩) (.arithmetic .add) (.literal (.integer 1) ⟨1, 40⟩) ⟨1, 38⟩
    let loop : Statement := .repetition less ⟨[.declaration "y" none (some (.name "x" ⟨1, 29⟩)) ⟨1, 21⟩,
      .assignment "x" sum ⟨1, 32⟩], ⟨1, 18⟩⟩ ⟨1, 1⟩
    let declaration : Statement := .declaration "y" none (some (.name "x" ⟨1, 9⟩)) ⟨1, 1⟩
    ((∀ x, ¬ loop.Declares ⟨false, false⟩ m.scopes x) ∧ exec ⟨false, false⟩ 3 (.block ⟨[loop], ⟨1, 1⟩⟩) m =
      .finished ⟨⟨[("x", ⟨.integer 3, none⟩)], []⟩, [], ⟨#[], none⟩, #[]⟩) ∧
    declaration.Declares ⟨false, false⟩ m.scopes "y" ∧
    exec ⟨false, false⟩ 0 (.block ⟨[declaration], ⟨1, 1⟩⟩) m = .finished m := by
  intro m less sum loop declaration
  have hnone : ∀ x, ¬ loop.Declares ⟨false, false⟩ m.scopes x := fun _ => id
  have hbare : exec ⟨false, false⟩ 3 loop m =
      .finished ⟨⟨[("x", ⟨.integer 3, none⟩)], []⟩, [], ⟨#[], none⟩, #[]⟩ := rfl
  have hdeclared : exec ⟨false, false⟩ 0 declaration m =
      .finished ⟨⟨[("x", ⟨.integer 1, none⟩), ("y", ⟨.integer 1, none⟩)], []⟩, [], ⟨#[], none⟩, #[]⟩ := rfl
  have hloop := (exec_braced ⟨false, false⟩ 3 loop ⟨1, 1⟩ m).1 hnone
  obtain ⟨-, -, hblock⟩ := (exec_braced ⟨false, false⟩ 0 declaration ⟨1, 1⟩ m).2 "y" _ rfl hdeclared
  exact ⟨⟨hnone, hloop.trans hbare⟩, rfl, hblock⟩

end Statement
end Portugol
