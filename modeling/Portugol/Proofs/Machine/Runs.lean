import Mathlib.Logic.Relation
import Portugol.Proofs.Machine.Courses

/-! # Runs and sessions

A run is followed from statement to statement: `Begins` relates the machine at the beginning of some statements to
every statement that is begun in running them, at whatever depth and in whatever iteration, whether or not the run
ends. A session is a number of programs that are run one after the other among the same globals, each with an input
of its own; it goes on after a program that failed.

A discipline says what the scopes before and after have to do with each other, across statements in a row and around
a statement with blocks, whose blocks each run in a frame of their own that is left in the end. If every change that
a single statement can make keeps to it, every run that ends does, also one that fails (`exec_around`,
`execAll_across`). -/
namespace Portugol

/-! ## Disciplines -/

/-- What holds across each change and across statements in a row, and around blocks if it holds across what is done
in their frames. -/
structure Scopes.Discipline (across around : Scopes → Scopes → Prop) : Prop where
  change {declares s t} (h : s.Change declares t) : across s t
  across_trans {s t u} (h : across s t) (h' : across t u) : across s u
  across_of_around {s t} (h : around s t) : across s t
  refl (s) : around s s
  trans {s t u} (h : around s t) (h' : around t u) : around s u
  block {s t} (h : across s.push t) : around s t.pop

namespace Statement

variable {across around : Scopes → Scopes → Prop} (hd : Scopes.Discipline across around) {o : Options} {fuel : Nat}
include hd

theorem loop_around {test : Machine → Except RuntimeError Bool} {body : Machine → Outcome}
    (hbody : ∀ m m', (body m).machine? = some m' → around m.scopes m'.scopes) {m m' : Machine}
    (h : (loop test body fuel m).machine? = some m') : around m.scopes m'.scopes := by
  have hchain : Chain fun _ m m' => around m.scopes m'.scopes := ⟨fun _ => hd.refl _, hd.trans⟩
  exact course_loop hchain (fun _ => []) hbody h

theorem course_across (o : Options) : Course o fun _ m m' => across m.scopes m'.scopes where
  nil _ := hd.across_of_around (hd.refl _)
  append := hd.across_trans
  plain hs h := hd.change (exec_change hs (h 0))
  block h := hd.across_of_around (hd.block h)
  report h := by rwa [Machine.scopes_report] at h

/-- Statements in a row keep to a discipline across all of them. -/
theorem execAll_across (ss : List Statement) {m m' : Machine}
    (h : (execAll o fuel ss m).machine? = some m') : across m.scopes m'.scopes :=
  course_execAll (course_across hd o) ss h

theorem execBlock_around (b : Block) {m m' : Machine} (h : (execBlock o fuel b m).machine? = some m') :
    around m.scopes m'.scopes := by
  obtain ⟨statements, p⟩ := b
  rw [execBlock, Outcome.machine?_map] at h
  obtain ⟨m₁, hrun, rfl⟩ := Option.map_eq_some_iff.1 h
  exact hd.block (execAll_across hd statements hrun)

theorem execElse_around (other : Option Block) {m m' : Machine}
    (h : (execElse o fuel other m).machine? = some m') : around m.scopes m'.scopes := by
  cases other with
  | none =>
    rw [execElse] at h
    cases h
    exact hd.refl _
  | some b =>
    rw [execElse] at h
    exact execBlock_around hd b h

/-- A statement with blocks keeps to a discipline as a whole. -/
theorem exec_around (s : Statement) (hs : ¬ s.IsPlain) {m m' : Machine}
    (h : (exec o fuel s m).machine? = some m') : around m.scopes m'.scopes := by
  cases s with
  | declaration | assignment | read | write => exact absurd trivial hs
  | conditional condition thenBlock elseBlock p =>
    rw [exec] at h
    cases hc : condition.test m.scopes with
    | error e =>
      rw [hc] at h
      cases h
      exact hd.refl _
    | ok b =>
      rw [hc] at h
      cases b with
      | true => exact execBlock_around hd thenBlock h
      | false => exact execElse_around hd elseBlock h
  | repetition condition body p =>
    rw [exec] at h
    refine loop_around hd (fun m₁ m₂ hrun => ?_) h
    have := execBlock_around hd body hrun
    rwa [Machine.scopes_report] at this
  | block inner =>
    rw [exec] at h
    exact execBlock_around hd inner h

end Statement

/-! ## Sessions -/

/-- A program that is run among some globals ends among others. -/
def Scopes.Call (s t : Scopes) : Prop :=
  ∃ o fuel program, ∃ m m' : Machine,
    m.scopes = s ∧ (Program.run o fuel program m).machine? = some m' ∧ m'.scopes = t

def Scopes.Session : Scopes → Scopes → Prop := Relation.ReflTransGen Scopes.Call

/-! ## Statements that are begun -/

namespace Statement

/-- A statement that is begun comes to a block: the machine that comes there has not yet entered its frame. -/
inductive Enters (o : Options) : Statement → Machine → Block → Machine → Prop where
  | block {b m} : Enters o (.block b) m b m
  | thenBlock {condition b other p m} (h : condition.test m.scopes = .ok true) :
      Enters o (.conditional condition b other p) m b m
  | elseBlock {condition b other p m} (h : condition.test m.scopes = .ok false) :
      Enters o (.conditional condition b (some other) p) m other m
  | iteration {condition b p m} (h : condition.test m.scopes = .ok true) :
      Enters o (.repetition condition b p) m b (m.report o ("iteração em " ++ b.position.describe))
  | later {condition b p m fuel m₁ b' m'} (h : condition.test m.scopes = .ok true)
      (hrun : execBlock o fuel b (m.report o ("iteração em " ++ b.position.describe)) = .finished m₁)
      (hrest : Enters o (.repetition condition b p) m₁ b' m') : Enters o (.repetition condition b p) m b' m'

/-- Statements that are run from a machine on begin a statement with a machine. -/
inductive Begins (o : Options) : List Statement → Machine → Statement → Machine → Prop where
  | first {s rest m} : Begins o (s :: rest) m s m
  | later {s rest m fuel m₁ s' m'} (hrun : exec o fuel s m = .finished m₁) (hrest : Begins o rest m₁ s' m') :
      Begins o (s :: rest) m s' m'
  | inside {s rest m b m₁ s' m'} (henter : s.Enters o m b m₁) (hbegin : Begins o b.statements m₁.push s' m') :
      Begins o (s :: rest) m s' m'

end Statement
end Portugol
