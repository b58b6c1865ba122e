import Portugol.Machine.Execution

/-! # The number of iterations does not matter

A run that ends, with or without an error, is the same however many more iterations its loops are allowed
(`exec_mono`, and `run_mono` for programs). So a program has at most one result, and "it ends" can be said
without a number: some number of iterations is enough. -/
namespace Portugol.Statement

theorem loop_mono {test : Machine → Except RuntimeError Bool} {body body' : Machine → Outcome}
    {fuel fuel' : Nat} (hle : fuel ≤ fuel') (hbody : ∀ m, body m ≠ .unfinished → body' m = body m)
    (m : Machine) (h : loop test body fuel m ≠ .unfinished) :
    loop test body' fuel' m = loop test body fuel m := by
  induction fuel generalizing fuel' m with
  | zero => simp [loop] at h
  | succ n ih =>
    obtain ⟨k, rfl⟩ : ∃ k, fuel' = k + 1 := ⟨fuel' - 1, by omega⟩
    simp only [loop] at h ⊢
    split
    · rfl
    · rfl
    · next ht =>
      rw [ht] at h
      simp only at h
      cases hb : body m with
      | finished m' =>
        rw [hb] at h
        rw [hbody m (by simp [hb]), hb]
        exact ih (by omega) m' h
      | failed e m' => rw [hbody m (by simp [hb]), hb]
      | unfinished =>
        rw [hb] at h
        exact absurd rfl h

mutual

/-- A statement that ends within some number of iterations ends in the same way within more. -/
theorem exec_mono (o : Options) {fuel fuel' : Nat} (hle : fuel ≤ fuel') :
    ∀ (s : Statement) (m : Machine), exec o fuel s m ≠ .unfinished → exec o fuel' s m = exec o fuel s m
  | .declaration .., _, _ => rfl
  | .assignment .., _, _ => rfl
  | .read .., _, _ => rfl
  | .write .., _, _ => rfl
  | .conditional condition thenBlock elseBlock _, m, h => by
    simp only [exec] at h ⊢
    cases hc : condition.test m.scopes with
    | error e => rfl
    | ok b =>
      rw [hc] at h
      cases b with
      | true => exact execBlock_mono o hle thenBlock m h
      | false => exact execElse_mono o hle elseBlock m h
  | .repetition _ body _, m, h => by
    simp only [exec] at h ⊢
    exact loop_mono hle (fun m hm => execBlock_mono o hle body _ hm) m h
  | .block inner, m, h => by
    simp only [exec] at h ⊢
    exact execBlock_mono o hle inner m h

theorem execBlock_mono (o : Options) {fuel fuel' : Nat} (hle : fuel ≤ fuel') :
    ∀ (b : Block) (m : Machine),
      execBlock o fuel b m ≠ .unfinished → execBlock o fuel' b m = execBlock o fuel b m
  | ⟨statements, _⟩, m, h => by
    simp only [execBlock] at h ⊢
    rw [execAll_mono o hle statements m.push]
    intro hu
    rw [hu] at h
    exact h rfl

theorem execElse_mono (o : Options) {fuel fuel' : Nat} (hle : fuel ≤ fuel') :
    ∀ (b : Option Block) (m : Machine),
      execElse o fuel b m ≠ .unfinished → execElse o fuel' b m = execElse o fuel b m
  | none, _, _ => by simp only [execElse]
  | some b, m, h => by
    simp only [execElse] at h ⊢
    exact execBlock_mono o hle b m h

theorem execAll_mono (o : Options) {fuel fuel' : Nat} (hle : fuel ≤ fuel') :
    ∀ (statements : List Statement) (m : Machine),
      execAll o fuel statements m ≠ .unfinished → execAll o fuel' statements m = execAll o fuel statements m
  | [], _, _ => by simp only [execAll]
  | s :: rest, m, h => by
    simp only [execAll] at h ⊢
    cases hs : exec o fuel s m with
    | finished m' =>
      rw [exec_mono o hle s m (by simp [hs]), hs]
      rw [hs] at h
      exact execAll_mono o hle rest m' h
    | failed e m' => rw [exec_mono o hle s m (by simp [hs]), hs]
    | unfinished =>
      rw [hs] at h
      exact absurd rfl h

end

end Portugol.Statement

namespace Portugol.Program

/-- A program that ends within some number of iterations ends in the same way within more. -/
theorem run_mono (o : Options) {fuel fuel' : Nat} (hle : fuel ≤ fuel') (program : Program) (m : Machine)
    (h : program.run o fuel m ≠ .unfinished) : program.run o fuel' m = program.run o fuel m :=
  Statement.execAll_mono o hle program.statements m h

end Portugol.Program
