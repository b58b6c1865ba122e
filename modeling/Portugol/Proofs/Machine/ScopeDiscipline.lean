import Portugol.Proofs.Machine.Runs

/-! # The discipline of scopes

However a statement ends, it leaves as many frames as there were, and in each of them every name that was bound,
with the type it was declared with. Only the innermost frame can have gained a name, and only one that the statement
itself declares. A binding that was hidden by another one is as it was, with its value. -/
namespace Portugol

/-- Scopes after something was run that can declare certain names, beside the scopes before it. The frames are
numbered from the inside out. -/
structure Scopes.Kept (declares : String → Prop) (s t : Scopes) : Prop where
  depth_eq : t.depth = s.depth
  outer_declared : ∀ i x, 0 < i → (t.binding? i x).map Binding.declared = (s.binding? i x).map Binding.declared
  current_declared : ∀ x b, s.binding? 0 x = some b → ∃ b', t.binding? 0 x = some b' ∧ b'.declared = b.declared
  gained : ∀ x, s.binding? 0 x = none → t.binding? 0 x ≠ none → declares x
  hidden : ∀ i j x, i < j → s.binding? i x ≠ none → t.binding? j x = s.binding? j x

namespace Scopes.Kept

variable {declares declares' : String → Prop} {s t u : Scopes}

theorem refl (s : Scopes) : s.Kept declares s where
  depth_eq := rfl
  outer_declared _ _ _ := rfl
  current_declared _ b hb := ⟨b, hb, rfl⟩
  gained _ hfree hbound := absurd hfree hbound
  hidden _ _ _ _ _ := rfl

theorem mono (h : s.Kept declares t) (hle : ∀ x, declares x → declares' x) : s.Kept declares' t :=
  { h with gained := fun x hfree hbound => hle x (h.gained x hfree hbound) }

/-- Whatever is bound stays bound. -/
theorem binding?_ne_none (h : s.Kept declares t) {i : Nat} {x : String} (hb : s.binding? i x ≠ none) :
    t.binding? i x ≠ none := by
  intro hnone
  obtain ⟨b, hb⟩ := Option.ne_none_iff_exists'.1 hb
  cases i with
  | zero =>
    obtain ⟨b', hb', -⟩ := h.current_declared x b hb
    rw [hnone] at hb'
    cases hb'
  | succ i =>
    have := h.outer_declared (i + 1) x (Nat.succ_pos i)
    rw [hnone, hb] at this
    cases this

theorem trans (h : s.Kept declares t) (h' : t.Kept declares u) : s.Kept declares u where
  depth_eq := h'.depth_eq.trans h.depth_eq
  outer_declared i x hi := (h'.outer_declared i x hi).trans (h.outer_declared i x hi)
  current_declared x b hb := by
    obtain ⟨b', hb', hsame⟩ := h.current_declared x b hb
    obtain ⟨b'', hb'', hsame'⟩ := h'.current_declared x b' hb'
    exact ⟨b'', hb'', hsame'.trans hsame⟩
  gained x hfree hbound := by
    by_cases ht : t.binding? 0 x = none
    · exact h'.gained x ht hbound
    · exact h.gained x hfree ht
  hidden i j x hij hb := (h'.hidden i j x hij (h.binding?_ne_none hb)).trans (h.hidden i j x hij hb)

theorem declare {x : String} {b : Binding} (hfree : s.binding? 0 x = none) (hx : declares x) :
    s.Kept declares (s.declare x b) where
  depth_eq := rfl
  outer_declared i y hi := by
    rw [binding?_declare, if_neg (by omega)]
  current_declared y c hc := by
    have hne : y ≠ x := by
      rintro rfl
      rw [hfree] at hc
      cases hc
    refine ⟨c, ?_, rfl⟩
    rw [binding?_declare, if_neg fun h => hne h.2, hc]
  gained y hnone hbound := by
    rw [binding?_declare] at hbound
    split at hbound
    · next h => exact h.2 ▸ hx
    · exact absurd hnone hbound
  hidden i j y hij _ := by
    rw [binding?_declare, if_neg (by omega)]

theorem assign (x : String) (v : Value) : s.Kept declares (s.assign x v) where
  depth_eq := depth_assign v
  outer_declared i y _ := declared_assign v
  current_declared y b hb := by
    have hsame : ((s.assign x v).binding? 0 y).map Binding.declared = some b.declared := by
      rw [declared_assign, hb]
      rfl
    exact Option.map_eq_some_iff.1 hsame
  gained y hnone hbound := by
    have hsame : ((s.assign x v).binding? 0 y).map Binding.declared = none := by
      rw [declared_assign, hnone]
      rfl
    exact absurd (Option.map_eq_none_iff.1 hsame) hbound
  hidden i j y hij hb := by
    by_cases hy : y = x
    · subst hy
      exact binding?_assign_hidden v hij hb
    · exact binding?_assign_of_ne v hy

theorem change (h : s.Change declares t) : s.Kept declares t := by
  cases h with
  | none => exact refl s
  | declare hfree hx _ => exact declare hfree hx
  | assign _ _ => exact assign _ _

/-- What was declared in a frame of its own is gone when the frame is left, and so is that frame. -/
theorem block (h : s.push.Kept declares t) : s.Kept (fun _ => False) t.pop := by
  have hdepth : t.depth = s.depth + 1 := h.depth_eq
  have hpop : 1 < t.depth := by
    rw [hdepth, depth_eq_succ]
    omega
  have hsame (i : Nat) (x : String) :
      (t.pop.binding? i x).map Binding.declared = (s.binding? i x).map Binding.declared := by
    rw [binding?_pop _ _ _ hpop, h.outer_declared (i + 1) x (Nat.succ_pos i), binding?_push_succ]
  refine ⟨?_, fun i x _ => hsame i x, fun x b hb => ?_, fun x hnone hbound => ?_, fun i j x hij hb => ?_⟩
  · rw [depth_pop _ hpop, hdepth, Nat.add_sub_cancel]
  · have := hsame 0 x
    rw [hb] at this
    exact Option.map_eq_some_iff.1 this
  · have := hsame 0 x
    rw [hnone] at this
    exact absurd (Option.map_eq_none_iff.1 this) hbound
  · rw [binding?_pop _ _ _ hpop, h.hidden (i + 1) (j + 1) x (Nat.succ_lt_succ hij) (by simpa using hb),
      binding?_push_succ]

/-- Statements in a row can gain names, a statement with blocks gains none. -/
theorem discipline : Discipline (Kept fun _ => True) (Kept fun _ => False) where
  change h := (change h).mono fun _ _ => trivial
  across_trans h h' := h.trans h'
  across_of_around h := h.mono fun _ => False.elim
  refl := refl
  trans h h' := h.trans h'
  block h := block h

end Scopes.Kept

namespace Statement

variable {o : Options} {fuel : Nat} {m m' : Machine}

theorem exec_kept {s : Statement} (h : (exec o fuel s m).machine? = some m') :
    m.scopes.Kept (fun x => s.Declares o m.scopes x) m'.scopes := by
  by_cases hs : s.IsPlain
  · exact .change (exec_change hs h)
  · exact (exec_around Scopes.Kept.discipline s hs h).mono fun _ => False.elim

end Statement

namespace Scopes

theorem Call.kept {s t : Scopes} (h : s.Call t) : s.Kept (fun _ => True) t := by
  obtain ⟨o, fuel, program, m, m', rfl, hrun, rfl⟩ := h
  exact Statement.execAll_across Kept.discipline program.statements hrun

theorem Session.kept {s t : Scopes} (h : s.Session t) : s.Kept (fun _ => True) t := by
  induction h with
  | refl => exact Kept.refl s
  | tail _ hcall ih => exact ih.trans hcall.kept

/-- Every statement that ends, in whatever way, keeps the scopes, and gains no name but one that it declares. So
between the programs of a session there is one frame, that of the globals, and no global is lost or changes its
type. -/
theorem kept_by_statements_and_sessions :
    (∀ (o : Options) (fuel : Nat) (s : Statement) (m m' : Machine), (s.exec o fuel m).machine? = some m' →
      m.scopes.Kept (fun x => s.Declares o m.scopes x) m'.scopes) ∧
    (∀ s t : Scopes, empty.Session s → s.Session t → s.depth = 1 ∧ t.depth = 1 ∧
      ∀ x b, s.binding? 0 x = some b → ∃ b', t.binding? 0 x = some b' ∧ b'.declared = b.declared) := by
  refine ⟨fun o fuel s m m' h => Statement.exec_kept h, fun s t hs ht => ?_⟩
  have hdepth : s.depth = 1 := hs.kept.depth_eq
  exact ⟨hdepth, ht.kept.depth_eq.trans hdepth, ht.kept.current_declared⟩

/-- A block that declares its own variable of a name, assigns to a global and then fails, and a session that goes
on with it. -/
theorem kept_by_failing_block :
    let before : Scopes := ⟨[("x", ⟨.integer 1, none⟩), ("y", ⟨.integer 2, none⟩)], []⟩
    let after : Scopes := ⟨[("x", ⟨.integer 1, none⟩), ("y", ⟨.integer 3, none⟩)], []⟩
    let body : Block := ⟨[.declaration "x" none none .start, .assignment "y" (.literal (.integer 3) .start) .start,
      .assignment "z" (.literal (.integer 4) .start) .start], .start⟩
    before.Kept (fun x => (Statement.block body).Declares ⟨false, false⟩ before x) after ∧
      before.depth = 1 ∧ after.depth = 1 := by
  intro before after body
  let m (scopes : Scopes) : Machine := ⟨scopes, [], ⟨#[], none⟩, #[]⟩
  let declared (x : String) (n : Int64) : Statement :=
    .declaration x none (some (.literal (.integer n) .start)) .start
  have hrun : ((Statement.block body).exec ⟨false, false⟩ 0 (m before)).machine? = some (m after) := rfl
  have hfirst : empty.Call before :=
    ⟨⟨false, false⟩, 0, ⟨[declared "x" 1, declared "y" 2]⟩, m empty, m before, rfl, rfl, rfl⟩
  have hnext : before.Call after :=
    ⟨⟨false, false⟩, 0, ⟨[.block body]⟩, m before, m after, rfl, rfl, rfl⟩
  obtain ⟨hbefore, hafter, -⟩ := kept_by_statements_and_sessions.2 before after (.single hfirst) (.single hnext)
  exact ⟨kept_by_statements_and_sessions.1 _ _ _ _ _ hrun, hbefore, hafter⟩

end Scopes
end Portugol
