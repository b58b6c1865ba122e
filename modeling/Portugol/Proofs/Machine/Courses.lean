import Portugol.Proofs.Machine.InputLines
import Portugol.Proofs.Machine.Steps

/-! # The course of a run

The course of a run is the list of the statements without blocks that it executes, in order, each with the machine that
it is begun with; the last one may be one that fails. What holds across each of these statements, and across a list of
them put together, holds across every run that ends (`Course`, `course_exec`).

So the input that a run leaves is an end of what it was given, and what was written before stays at the beginning of
the output (`course_onward`). -/
namespace Portugol

namespace Statement

def courseLoop (test : Machine → Except RuntimeError Bool) (body : Machine → Outcome)
    (course : Machine → List (Statement × Machine)) : Nat → Machine → List (Statement × Machine)
  | 0, _ => []
  | fuel + 1, m =>
    match test m with
    | .error _ | .ok false => []
    | .ok true =>
      course m ++ match body m with
        | .finished m => courseLoop test body course fuel m
        | .failed .. | .unfinished => []

mutual

/-- The statements without blocks that are executed in running a statement, each with the machine that it is begun
with. -/
def course (o : Options) (fuel : Nat) : Statement → Machine → List (Statement × Machine)
  | .declaration x type init p, m => [(.declaration x type init p, m)]
  | .assignment x value p, m => [(.assignment x value p, m)]
  | .read x p, m => [(.read x p, m)]
  | .write exprs p, m => [(.write exprs p, m)]
  | .conditional condition thenBlock elseBlock _, m =>
    match condition.test m.scopes with
    | .error _ => []
    | .ok true => courseBlock o fuel thenBlock m
    | .ok false => courseElse o fuel elseBlock m
  | .repetition condition body _, m =>
    courseLoop (fun m => condition.test m.scopes)
      (fun m => execBlock o fuel body (m.report o ("iteração em " ++ body.position.describe)))
      (fun m => courseBlock o fuel body (m.report o ("iteração em " ++ body.position.describe))) fuel m
  | .block inner, m => courseBlock o fuel inner m

def courseBlock (o : Options) (fuel : Nat) : Block → Machine → List (Statement × Machine)
  | ⟨statements, _⟩, m => courseAll o fuel statements m.push

def courseElse (o : Options) (fuel : Nat) : Option Block → Machine → List (Statement × Machine)
  | none, _ => []
  | some b, m => courseBlock o fuel b m

def courseAll (o : Options) (fuel : Nat) : List Statement → Machine → List (Statement × Machine)
  | [], _ => []
  | s :: rest, m =>
    course o fuel s m ++ match exec o fuel s m with
      | .finished m => courseAll o fuel rest m
      | .failed .. | .unfinished => []

end

/-! ## Across a run -/

/-- What holds across no statement, and across two courses if it holds across each of them. -/
structure Chain (across : List (Statement × Machine) → Machine → Machine → Prop) : Prop where
  nil (m) : across [] m m
  append {l l' m m₁ m₂} (h : across l m m₁) (h' : across l' m₁ m₂) : across (l ++ l') m m₂

/-- What holds across every course if it holds across each statement of it, whatever the frames and the reports. -/
structure Course (o : Options) (across : List (Statement × Machine) → Machine → Machine → Prop) : Prop
    extends Chain across where
  plain {s m m'} (hs : s.IsPlain) (h : ∀ fuel, (exec o fuel s m).machine? = some m') : across [(s, m)] m m'
  block {l m m'} (h : across l m.push m') : across l m m'.pop
  report {l m m' step} (h : across l (m.report o step) m') : across l m m'

variable {o : Options} {across : List (Statement × Machine) → Machine → Machine → Prop}

theorem course_loop (hc : Chain across) {test : Machine → Except RuntimeError Bool} {body : Machine → Outcome}
    (course : Machine → List (Statement × Machine))
    (hbody : ∀ m m', (body m).machine? = some m' → across (course m) m m') {fuel : Nat} {m m' : Machine}
    (h : (loop test body fuel m).machine? = some m') : across (courseLoop test body course fuel m) m m' := by
  induction fuel generalizing m with
  | zero => cases h
  | succ fuel ih =>
    rw [loop] at h
    rw [courseLoop]
    cases ht : test m with
    | error e =>
      rw [ht] at h
      cases h
      exact hc.nil _
    | ok b =>
      rw [ht] at h
      cases b with
      | false =>
        cases h
        exact hc.nil _
      | true =>
        simp only at h ⊢
        cases hb : body m with
        | finished m₁ =>
          rw [hb] at h
          exact hc.append (hbody m _ (congrArg Outcome.machine? hb)) (ih h)
        | failed e m₁ =>
          rw [hb] at h
          cases h
          exact hc.append (hbody m _ (congrArg Outcome.machine? hb)) (hc.nil _)
        | unfinished =>
          rw [hb] at h
          cases h

variable (hc : Course o across)
include hc

mutual

/-- What holds across each statement of a course holds across the run. -/
theorem course_exec {fuel : Nat} (s : Statement) {m m' : Machine} (h : (exec o fuel s m).machine? = some m') :
    across (course o fuel s m) m m' := by
  match s with
  | .declaration .. => exact hc.plain trivial fun _ => h
  | .assignment .. => exact hc.plain trivial fun _ => h
  | .read .. => exact hc.plain trivial fun _ => h
  | .write .. => exact hc.plain trivial fun _ => h
  | .conditional condition thenBlock elseBlock p =>
    rw [exec] at h
    rw [course]
    cases ht : condition.test m.scopes with
    | error e =>
      rw [ht] at h
      cases h
      exact hc.nil _
    | ok b =>
      rw [ht] at h
      cases b with
      | true => exact course_execBlock thenBlock h
      | false => exact course_execElse elseBlock h
  | .repetition condition body p =>
    rw [exec] at h
    rw [course]
    exact course_loop hc.toChain _ (fun m₁ m₂ hrun => hc.report (course_execBlock body hrun)) h
  | .block inner =>
    rw [exec] at h
    rw [course]
    exact course_execBlock inner h

theorem course_execBlock {fuel : Nat} (b : Block) {m m' : Machine} (h : (execBlock o fuel b m).machine? = some m') :
    across (courseBlock o fuel b m) m m' := by
  match b with
  | ⟨statements, p⟩ =>
    rw [execBlock, Outcome.machine?_map] at h
    obtain ⟨m₁, hrun, rfl⟩ := Option.map_eq_some_iff.1 h
    rw [courseBlock]
    exact hc.block (course_execAll statements hrun)

theorem course_execElse {fuel : Nat} (other : Option Block) {m m' : Machine}
    (h : (execElse o fuel other m).machine? = some m') : across (courseElse o fuel other m) m m' := by
  match other with
  | none =>
    rw [execElse] at h
    cases h
    exact hc.nil _
  | some b =>
    rw [execElse] at h
    exact course_execBlock b h

/-- What holds across each statement of a course holds across the statements in a row. -/
theorem course_execAll {fuel : Nat} (ss : List Statement) {m m' : Machine}
    (h : (execAll o fuel ss m).machine? = some m') : across (courseAll o fuel ss m) m m' := by
  match ss with
  | [] =>
    rw [execAll] at h
    cases h
    exact hc.nil _
  | s :: rest =>
    rw [execAll] at h
    rw [courseAll]
    cases hrun : exec o fuel s m with
    | finished m₁ =>
      rw [hrun] at h
      exact hc.append (course_exec s (congrArg Outcome.machine? hrun)) (course_execAll rest h)
    | failed e m₁ =>
      rw [hrun] at h
      cases h
      exact hc.append (course_exec s (congrArg Outcome.machine? hrun)) (hc.nil _)
    | unfinished =>
      rw [hrun] at h
      cases h

end

end Statement

/-! ## Input and output -/

namespace Machine

@[simp] theorem input_report (o : Options) (step : String) (m : Machine) : (m.report o step).input = m.input := by
  rw [report]
  split <;> rfl

@[simp] theorem output_report (o : Options) (step : String) (m : Machine) : (m.report o step).output = m.output := by
  rw [report]
  split <;> rfl

structure Still (m m' : Machine) : Prop where
  input_eq : m'.input = m.input
  output_eq : m'.output = m.output

/-- An end of the input is left, and the output is what was written before and then perhaps more. -/
structure Onward (m m' : Machine) : Prop where
  input : m'.input <:+ m.input
  written : m.output.written.toList <+: m'.output.written.toList

namespace Onward

variable {m m₁ m₂ : Machine}

theorem refl (m : Machine) : m.Onward m := ⟨List.suffix_rfl, List.prefix_rfl⟩

theorem trans (h : m.Onward m₁) (h' : m₁.Onward m₂) : m.Onward m₂ :=
  ⟨h'.input.trans h.input, h.written.trans h'.written⟩

theorem of_still (h : m.Still m₁) : m.Onward m₁ :=
  ⟨h.input_eq ▸ List.suffix_rfl, h.output_eq ▸ List.prefix_rfl⟩

theorem report (m : Machine) (o : Options) (step : String) : m.Onward (m.report o step) :=
  of_still ⟨by simp, by simp⟩

end Onward

theorem print_onward {texts : List String} {m m' : Machine} (h : (m.print texts).machine? = some m') :
    m'.input = m.input ∧ m.Onward m' := by
  induction texts generalizing m with
  | nil =>
    cases h
    exact ⟨rfl, .refl _⟩
  | cons text rest ih =>
    have hwrite : m.Onward { m with output := (m.output.write text).1 } := by
      refine ⟨List.suffix_rfl, ?_⟩
      rw [Output.write]
      split
      · simp
      · split <;> simp
    rw [print] at h
    split at h
    · next output houtput =>
      rw [houtput] at hwrite
      have hrest := ih h
      exact ⟨hrest.1, hwrite.trans hrest.2⟩
    · next output fault houtput =>
      rw [houtput] at hwrite
      cases h
      exact ⟨rfl, hwrite⟩

end Machine

namespace Statement

variable {o : Options} {m m' : Machine}

theorem declare_still {x : String} {type : Option DataType} {init : Option Expr} {p : Position}
    (h : (declare o x type init p m).machine? = some m') : m.Still m' := by
  unfold declare at h
  split at h
  · cases h
    exact ⟨rfl, rfl⟩
  split at h
  · cases h
    exact ⟨rfl, rfl⟩
  · cases h
    exact ⟨Machine.input_report .., Machine.output_report ..⟩

theorem assign_still {x : String} {value : Expr} {p : Position} (h : (assign o x value p m).machine? = some m') :
    m.Still m' := by
  unfold assign at h
  split at h
  · cases h
    exact ⟨rfl, rfl⟩
  split at h
  · cases h
    exact ⟨rfl, rfl⟩
  split at h
  · cases h
    exact ⟨rfl, rfl⟩
  · cases h
    exact ⟨Machine.input_report .., Machine.output_report ..⟩

theorem receive_still {x : String} {p : Position} {line : String} (h : (receive o x p line m).machine? = some m') :
    m.Still m' := by
  simp only [receive] at h
  split at h
  · split at h
    · cases h
      exact ⟨rfl, rfl⟩
    · cases h
      exact ⟨Machine.input_report .., Machine.output_report ..⟩
  split at h
  · cases h
    exact ⟨Machine.input_report .., Machine.output_report ..⟩
  split at h
  · cases h
    exact ⟨Machine.input_report .., Machine.output_report ..⟩
  · cases h
    exact ⟨rfl, rfl⟩

/-- A read uses up a line, whatever it makes of it, and writes nothing. -/
theorem input_cut {x : String} {p : Position} (h : (input o x p m).machine? = some m') :
    m'.input = (Input.cut m.input).2 ∧ m'.output = m.output := by
  unfold input at h
  rw [← Input.nextLine_snd]
  split at h
  · next hline =>
    cases h
    have hnil : m.input = [] := Input.nextLine_fst_eq_none_iff.1 (by rw [hline])
    rw [hnil]
    exact ⟨rfl, rfl⟩
  · next hline =>
    cases h
    rw [hline]
    exact ⟨rfl, rfl⟩
  · next hline =>
    have hreceive := receive_still h
    rw [hline]
    exact ⟨hreceive.input_eq, hreceive.output_eq⟩

theorem output_onward {exprs : List Expr} (h : (output o exprs m).machine? = some m') :
    m'.input = m.input ∧ m.Onward m' := by
  unfold output at h
  split at h
  · cases h
    exact ⟨rfl, .refl _⟩
  next vs _ =>
  cases hprint : m.print (vs.map Value.render ++ ["\n"]) with
  | finished m₁ =>
    obtain ⟨hinput, honward⟩ := Machine.print_onward (congrArg Outcome.machine? hprint)
    rw [hprint] at h
    cases h
    exact ⟨(Machine.input_report ..).trans hinput, honward.trans (.report ..)⟩
  | failed e m₁ =>
    rw [hprint] at h
    cases h
    exact Machine.print_onward (congrArg Outcome.machine? hprint)
  | unfinished =>
    rw [hprint] at h
    cases h

theorem exec_onward {s : Statement} (hs : s.IsPlain) {fuel : Nat} (h : (exec o fuel s m).machine? = some m') :
    m.Onward m' := by
  cases s with
  | declaration => exact .of_still (declare_still h)
  | assignment => exact .of_still (assign_still h)
  | read =>
    obtain ⟨hinput, houtput⟩ := input_cut h
    exact ⟨hinput ▸ Input.cut_snd_suffix _, houtput ▸ List.prefix_rfl⟩
  | write => exact (output_onward h).2
  | conditional | repetition | block => exact hs.elim

theorem course_onward (o : Options) : Course o fun _ => Machine.Onward where
  nil := .refl
  append := .trans
  plain hs h := exec_onward hs (h 0)
  block h := ⟨h.input, h.written⟩
  report h := (Machine.Onward.report ..).trans h

end Statement
end Portugol
