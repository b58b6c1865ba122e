import Portugol.Proofs.Machine.Surroundings

/-! # Names that a program does not mention

Scopes can agree on certain names: there are as many frames in the one as in the other, and each frame binds each of
these names to the same, or neither of the two does. A program that is run from scopes that agree on the names in it
does the same, and leaves scopes that agree on them again; every other name is bound in each frame to what it was bound
to before (`Program.run_agreeing`). -/
namespace Portugol

namespace Scopes

/-- As many frames, which bind certain names alike. -/
structure AgreeOn (among : String → Prop) (s t : Scopes) : Prop where
  depth_eq : t.depth = s.depth
  binding?_eq {x : String} (hx : among x) (i : Nat) : t.binding? i x = s.binding? i x

namespace AgreeOn

variable {among : String → Prop} {s t u : Scopes} {x : String}

theorem refl (among : String → Prop) (s : Scopes) : s.AgreeOn among s := ⟨rfl, fun _ _ => rfl⟩

theorem get?_eq (h : s.AgreeOn among t) (hx : among x) : t.get? x = s.get? x :=
  get?_congr h.depth_eq (h.binding?_eq hx)

theorem isLocal_eq (h : s.AgreeOn among t) (hx : among x) : t.isLocal x = s.isLocal x :=
  congrArg Option.isSome (h.binding?_eq hx 0)

theorem declare (h : s.AgreeOn among t) (x : String) (b : Binding) :
    (s.declare x b).AgreeOn among (t.declare x b) where
  depth_eq := h.depth_eq
  binding?_eq hy i := by rw [binding?_declare, binding?_declare, h.binding?_eq hy]

/-- Which binding of the name is the first is the same on both sides. -/
theorem assign (h : s.AgreeOn among t) (hx : among x) (v : Value) :
    (s.assign x v).AgreeOn among (t.assign x v) where
  depth_eq := by rw [depth_assign, depth_assign, h.depth_eq]
  binding?_eq hy i := by
    rw [binding?_assign, binding?_assign, h.binding?_eq hy]
    simp only [h.binding?_eq hx]

/-- A name that does not matter may be declared on one side. -/
theorem declare_other (h : s.AgreeOn among t) (hx : ¬ among x) (b : Binding) : s.AgreeOn among (t.declare x b) where
  depth_eq := h.depth_eq
  binding?_eq {y} hy i := by
    rw [binding?_declare, if_neg, h.binding?_eq hy]
    rintro ⟨-, rfl⟩
    exact hx hy

/-- A name that does not matter may be assigned to on one side. -/
theorem assign_other (h : s.AgreeOn among t) (hx : ¬ among x) (v : Value) : s.AgreeOn among (t.assign x v) where
  depth_eq := by rw [depth_assign, h.depth_eq]
  binding?_eq {y} hy i := by
    rw [binding?_assign_of_ne, h.binding?_eq hy]
    rintro rfl
    exact hx hy

end AgreeOn

/-- Two scopes that agree on certain names, each as it was at the beginning on all other names. -/
structure Parted (among : String → Prop) (s₀ t₀ s t : Scopes) : Prop where
  agree : s.AgreeOn among t
  kept : s₀.AgreeOn (¬ among ·) s
  kept' : t₀.AgreeOn (¬ among ·) t

theorem simulation_parted (among : String → Prop) (s₀ t₀ : Scopes) : Simulation among True (Parted among s₀ t₀) where
  get?_eq hx h := h.agree.get?_eq hx
  isLocal_eq _ hx h := h.agree.isLocal_eq hx
  assign hx h v := ⟨h.agree.assign hx v, h.kept.assign_other (not_not.2 hx) v, h.kept'.assign_other (not_not.2 hx) v⟩
  declare _ hx h b :=
    ⟨h.agree.declare _ b, h.kept.declare_other (not_not.2 hx) b, h.kept'.declare_other (not_not.2 hx) b⟩

end Scopes

namespace Program

/-- Run from scopes that agree on the names in it, a program ends in the same way, with the same input left, the same
output and the same report, and the scopes agree on the names in it again; on the other names, each run leaves the
scopes as it found them. -/
theorem run_agreeing (program : Program) (o : Options) (fuel : Nat) (m : Machine) (t : Scopes)
    (h : m.scopes.AgreeOn (· ∈ program.names) t) :
    Outcome.Alike (fun m₁ m₂ => ∃ t₁, m₂ = { m₁ with scopes := t₁ } ∧ m₁.scopes.AgreeOn (· ∈ program.names) t₁ ∧
        m.scopes.AgreeOn (· ∉ program.names) m₁.scopes ∧ t.AgreeOn (· ∉ program.names) t₁)
      (program.run o fuel m) (program.run o fuel { m with scopes := t }) := by
  have hbegin : Scopes.Parted (· ∈ program.names) m.scopes t m.scopes t := ⟨h, .refl _ _, .refl _ _⟩
  have hparts : ∀ s ∈ program.parts, Scopes.Simulation.Admits (· ∈ program.names) True 0 s := by
    intro s hs
    exact ⟨fun x hx => mem_names hs hx, fun _ => .inr trivial⟩
  have hrun := ((Scopes.simulation_parted _ m.scopes t).tandem o).together_execAll fuel program.statements hparts
    ⟨t, .outside hbegin, rfl⟩
  refine hrun.mono fun m₁ m₂ hend => ?_
  obtain ⟨t₁, habove, rfl⟩ := hend
  cases habove with
  | outside hparted => exact ⟨t₁, rfl, hparted.agree, hparted.kept, hparted.kept'⟩

def adding : Program :=
  ⟨[.read "n" ⟨1, 1⟩, .block ⟨[.declaration "x" none (some (.name "n" ⟨1, 20⟩)) ⟨1, 12⟩,
    .assignment "y" (.binary (.name "x" ⟨1, 28⟩) (.arithmetic .add) (.name "y" ⟨1, 32⟩) ⟨1, 30⟩) ⟨1, 23⟩], ⟨1, 10⟩⟩,
    .write [.name "y" ⟨1, 45⟩] ⟨1, 37⟩]⟩

/-- A variable of another name makes no difference, whether or not it is there. -/
theorem run_agreeing_adding :
    let withZ : Scopes := ⟨[("x", ⟨.boolean true, none⟩)], [[("y", ⟨.integer 1, none⟩), ("z", ⟨.text "a", none⟩)]]⟩
    let withW : Scopes := ⟨[("x", ⟨.boolean true, none⟩), ("w", ⟨.undefined, none⟩)], [[("y", ⟨.integer 1, none⟩)]]⟩
    withZ.AgreeOn (· ∈ adding.names) withW ∧
    ∃ t, adding.run ⟨false, false⟩ 0 ⟨withW, [53, 10], ⟨#[], none⟩, #[]⟩ =
        .finished ⟨t, [], ⟨#[54, 10], none⟩, #[]⟩ ∧ withW.AgreeOn (· ∉ adding.names) t := by
  intro withZ withW
  let m : Machine := ⟨withZ, [53, 10], ⟨#[], none⟩, #[]⟩
  have hagree : m.scopes.AgreeOn (· ∈ adding.names) withW := by
    refine ⟨rfl, fun {x} hx i => ?_⟩
    have hnames : adding.names = ["n", "x", "n", "y", "x", "y", "y"] := rfl
    simp only [hnames, List.mem_cons, List.not_mem_nil, or_false] at hx
    rcases hx with rfl | rfl | rfl | rfl | rfl | rfl | rfl <;> rcases i with _ | _ | i <;> rfl
  have hrun := run_agreeing adding ⟨false, false⟩ 0 m withW hagree
  rw [show adding.run ⟨false, false⟩ 0 m =
    .finished ⟨⟨[("x", ⟨.boolean true, none⟩), ("n", ⟨.integer 5, none⟩)],
      [[("y", ⟨.integer 6, none⟩), ("z", ⟨.text "a", none⟩)]]⟩, [], ⟨#[54, 10], none⟩, #[]⟩ from rfl] at hrun
  generalize adding.run ⟨false, false⟩ 0 _ = r at hrun ⊢
  cases hrun with
  | finished h =>
    obtain ⟨t, rfl, -, -, hkept⟩ := h
    exact ⟨hagree, t, rfl, hkept⟩
  | apart h => exact h.elim

end Program
end Portugol
