import Portugol.Machine.Iterations
import Portugol.Proofs.Machine.Consumption
import Portugol.Proofs.Machine.Runs

/-! # What a failed statement leaves

A statement without blocks that fails has changed nothing: no variable, and no output unless this is what was full. It
has read nothing either, except that a read has used up its line if there was one (`Machine.Intact`). A statement with
blocks fails in a block that it enters, or in the evaluation of a condition that it comes to; then it leaves exactly the
machine with which it came there (`Statement.left_by_failure`). -/
namespace Portugol

/-- What a statement without blocks that failed leaves of the machine that it was begun with. -/
structure Machine.Intact (s : Statement) (e : RuntimeError) (m m' : Machine) : Prop where
  scopes_eq : m'.scopes = m.scopes
  log_eq : m'.log = m.log
  output_eq (he : e ≠ .stream .outputFull) : m'.output = m.output
  input_eq (hs : ∀ x p, s ≠ .read x p) : m'.input = m.input
  exhausted {x p} (he : e = .inputExhausted x p) : m'.input = m.input
  line_taken {x p} (hs : s = .read x p) (he : ∀ y q, e ≠ .inputExhausted y q) :
    ∃ line, Input.lines m.input = line :: Input.lines m'.input

theorem Output.fault_of_write {output output' : Output} {text : String} {fault : StreamFault}
    (h : output.write text = (output', some fault)) : fault = .outputFull := by
  rw [write] at h
  split at h
  · cases h
  · split at h
    · cases h
    · cases h
      rfl

/-- Writing fails only because the output is full, and changes nothing else. -/
theorem Machine.print_failed {texts : List String} {m m' : Machine} {e : RuntimeError}
    (h : m.print texts = .failed e m') : e = .stream .outputFull ∧ m' = { m with output := m'.output } := by
  induction texts generalizing m with
  | nil => cases h
  | cons text rest ih =>
    rw [print] at h
    split at h
    · next output _ => exact ih (m := { m with output := output }) h
    · next output fault hwrite =>
      cases h
      exact ⟨congrArg RuntimeError.stream (Output.fault_of_write hwrite), rfl⟩

namespace Statement

variable {o : Options} {m m' : Machine} {e : RuntimeError} {x : String} {p : Position}

/-! ## Statements without blocks -/

theorem declare_failed {type : Option DataType} {init : Option Expr} (h : declare o x type init p m = .failed e m') :
    m' = m := by
  rw [declare] at h
  split at h
  · cases h
    rfl
  · split at h <;> cases h
    rfl

theorem assign_failed {value : Expr} (h : assign o x value p m = .failed e m') : m' = m := by
  rw [assign] at h
  split at h
  · cases h
    rfl
  split at h
  · cases h
    rfl
  · split at h <;> cases h
    rfl

theorem receive_failed {line : String} (h : receive o x p line m = .failed e m') : m' = m := by
  simp only [receive] at h
  split at h
  · split at h <;> cases h
    rfl
  split at h
  · cases h
  · split at h <;> cases h
    rfl

theorem input_failed (h : input o x p m = .failed e m') : m' = { m with input := m'.input } := by
  rw [input] at h
  split at h
  · cases h
    rfl
  · cases h
    rfl
  · rw [receive_failed h]

theorem output_failed {exprs : List Expr} (h : output o exprs m = .failed e m') :
    m' = { m with output := m'.output } ∧ (e ≠ .stream .outputFull → m' = m) := by
  rw [output_eq_andThen] at h
  cases hvalues : values m.scopes exprs with
  | error e' =>
    rw [hvalues] at h
    cases h
    exact ⟨rfl, fun _ => rfl⟩
  | ok vs =>
    rw [hvalues] at h
    simp only at h
    cases hprint : m.print (vs.map Value.render ++ ["\n"]) with
    | finished m₁ =>
      rw [hprint] at h
      cases h
    | failed e' m₁ =>
      rw [hprint] at h
      cases h
      obtain ⟨hfull, hsame⟩ := Machine.print_failed hprint
      exact ⟨hsame, fun he => absurd hfull he⟩
    | unfinished =>
      rw [hprint] at h
      cases h

/-- A statement that reads nothing is intact if it changes nothing, up to an output that was full. -/
theorem intact_of_output {s : Statement} (hs : ∀ x p, s ≠ .read x p) (hsame : m' = { m with output := m'.output })
    (hunchanged : e ≠ .stream .outputFull → m' = m) : m.Intact s e m' := by
  have hinput : m'.input = m.input := by rw [hsame]
  refine ⟨?_, ?_, fun he => congrArg Machine.output (hunchanged he), fun _ => hinput, fun _ => hinput, ?_⟩
  · rw [hsame]
  · rw [hsame]
  · intro x p hread
    exact absurd hread (hs x p)

theorem intact_of_input (h : input o x p m = .failed e m') : m.Intact (.read x p) e m' := by
  have hsame := input_failed h
  obtain ⟨hinput, houtput⟩ := input_cut (congrArg Outcome.machine? h)
  have hexhausted : m.input = [] ↔ ∃ y q, e = .inputExhausted y q := by
    rw [← exhausted_input_iff (o := o) (x := x) (p := p), h]
    cases e <;> simp [Outcome.exhausted]
  refine ⟨by rw [hsame], by rw [hsame], fun _ => houtput, fun hs => absurd rfl (hs x p), ?_, ?_⟩
  · intro y q he
    rw [hinput, hexhausted.2 ⟨y, q, he⟩]
    rfl
  · intro _ _ _ he
    have hne : m.input ≠ [] := fun hnil => by
      obtain ⟨y, q, hfound⟩ := hexhausted.1 hnil
      exact he y q hfound
    exact ⟨_, hinput ▸ Input.lines_eq_cons hne⟩

/-- Every error comes before anything is changed, except the line that a read takes. -/
theorem intact_of_failed {s : Statement} (hs : s.IsPlain) {fuel : Nat} (h : s.exec o fuel m = .failed e m') :
    m.Intact s e m' := by
  cases s with
  | declaration =>
    obtain rfl := declare_failed h
    exact intact_of_output (by simp) rfl fun _ => rfl
  | assignment =>
    obtain rfl := assign_failed h
    exact intact_of_output (by simp) rfl fun _ => rfl
  | read => exact intact_of_input h
  | write =>
    obtain ⟨hsame, hunchanged⟩ := output_failed h
    exact intact_of_output (by simp) hsame hunchanged
  | conditional | repetition | block => exact hs.elim

/-! ## Conditions -/

/-- A statement that is begun comes to the evaluation of its condition, at once or after some iterations. -/
inductive Tests (o : Options) : Statement → Machine → Expr → Machine → Prop where
  | conditional {condition b other p m} : Tests o (.conditional condition b other p) m condition m
  | repetition {condition b p m} : Tests o (.repetition condition b p) m condition m
  | later {condition b p m fuel m₁ c m'} (h : condition.test m.scopes = .ok true)
      (hrun : execBlock o fuel b (m.report o ("iteração em " ++ b.position.describe)) = .finished m₁)
      (hrest : Tests o (.repetition condition b p) m₁ c m') : Tests o (.repetition condition b p) m c m'

/-- A condition that fails ends the statement with the machine that came to it. -/
theorem Tests.exec_eq {s : Statement} {c : Expr} (h : s.Tests o m c m') (hfail : c.test m'.scopes = .error e) :
    ∃ enough, ∀ fuel, enough ≤ fuel → s.exec o fuel m = .failed e m' := by
  induction h with
  | conditional =>
    refine ⟨0, fun fuel _ => ?_⟩
    rw [exec, hfail]
  | repetition =>
    refine ⟨1, fun fuel hfuel => ?_⟩
    obtain ⟨fuel, rfl⟩ := Nat.exists_eq_succ_of_ne_zero (Nat.ne_of_gt hfuel)
    rw [exec, loop, hfail]
  | @later condition b p m n m₁ c m' htest hrun _ ih =>
    obtain ⟨k, hk⟩ := ih hfail
    refine ⟨max n k + 1, fun fuel hfuel => ?_⟩
    obtain ⟨fuel, rfl⟩ := Nat.exists_eq_succ_of_ne_zero (Nat.ne_of_gt (Nat.lt_of_lt_of_le (Nat.succ_pos _) hfuel))
    have hbody : execBlock o (fuel + 1) b (m.report o ("iteração em " ++ b.position.describe)) = .finished m₁ := by
      rw [execBlock_mono o (show n ≤ fuel + 1 by omega) b _ (by simp [hrun]), hrun]
    have hloop := hk fuel (by omega)
    rw [exec] at hloop
    rw [exec, loop, htest]
    simp only [hbody]
    rw [← hloop]
    exact loop_mono (Nat.le_refl fuel) (fun m hm => execBlock_mono o (Nat.le_succ fuel) b _ hm) m₁
      (by simp [hloop])

/-- A repetition fails in its condition or in its body, in the first iteration or in a later one. -/
theorem tests_or_enters_of_loop_failed {condition : Expr} {b : Block} {fuel count : Nat}
    (h : loop (fun m => condition.test m.scopes)
      (fun m => execBlock o fuel b (m.report o ("iteração em " ++ b.position.describe))) count m = .failed e m') :
    (∃ c, (repetition condition b p).Tests o m c m' ∧ c.test m'.scopes = .error e) ∨
      ∃ b' m₁, (repetition condition b p).Enters o m b' m₁ ∧ execBlock o fuel b' m₁ = .failed e m' := by
  induction count generalizing m with
  | zero => cases h
  | succ count ih =>
    rw [loop] at h
    cases htest : condition.test m.scopes with
    | error e' =>
      rw [htest] at h
      cases h
      exact .inl ⟨condition, .repetition, htest⟩
    | ok holds =>
      rw [htest] at h
      cases holds with
      | false => cases h
      | true =>
        simp only at h
        cases hrun : execBlock o fuel b (m.report o ("iteração em " ++ b.position.describe)) with
        | finished m₁ =>
          rw [hrun] at h
          rcases ih h with ⟨c, htests, hfail⟩ | ⟨b', m₂, henters, hfail⟩
          · exact .inl ⟨c, .later htest hrun htests, hfail⟩
          · exact .inr ⟨b', m₂, .later htest hrun henters, hfail⟩
        | failed e' m₁ =>
          rw [hrun] at h
          cases h
          exact .inr ⟨b, _, .iteration htest, hrun⟩
        | unfinished =>
          rw [hrun] at h
          cases h

theorem tests_or_enters_of_failed {s : Statement} (hs : ¬ s.IsPlain) {fuel : Nat} (h : s.exec o fuel m = .failed e m') :
    (∃ c, s.Tests o m c m' ∧ c.test m'.scopes = .error e) ∨
      ∃ b m₁, s.Enters o m b m₁ ∧ execBlock o fuel b m₁ = .failed e m' := by
  cases s with
  | declaration | assignment | read | write => exact absurd trivial hs
  | block b =>
    rw [exec] at h
    exact .inr ⟨b, m, .block, h⟩
  | conditional condition thenBlock elseBlock =>
    rw [exec] at h
    cases htest : condition.test m.scopes with
    | error e' =>
      rw [htest] at h
      cases h
      exact .inl ⟨condition, .conditional, htest⟩
    | ok holds =>
      rw [htest] at h
      cases holds with
      | true => exact .inr ⟨thenBlock, m, .thenBlock htest, h⟩
      | false =>
        cases elseBlock with
        | none => cases h
        | some other =>
          rw [execElse] at h
          exact .inr ⟨other, m, .elseBlock htest, h⟩
  | repetition =>
    rw [exec] at h
    exact tests_or_enters_of_loop_failed h

/-- A statement without blocks that fails leaves the machine intact, up to the one line that a read takes. A statement
with blocks that comes to a condition which cannot be evaluated fails with just the machine that came to it; and if it
fails at all, it does in such a condition, or as one of the blocks does that it enters. -/
theorem left_by_failure (o : Options) (s : Statement) (m : Machine) :
    (∀ fuel e m', s.IsPlain → s.exec o fuel m = .failed e m' → m.Intact s e m') ∧
      (∀ c m₁ e, s.Tests o m c m₁ → c.test m₁.scopes = .error e →
        ∃ enough, ∀ fuel, enough ≤ fuel → s.exec o fuel m = .failed e m₁) ∧
      ∀ fuel e m', ¬ s.IsPlain → s.exec o fuel m = .failed e m' →
        (∃ c, s.Tests o m c m' ∧ c.test m'.scopes = .error e) ∨
          ∃ b m₁, s.Enters o m b m₁ ∧ execBlock o fuel b m₁ = .failed e m' :=
  ⟨fun _ _ _ hs h => intact_of_failed hs h, fun _ _ _ ht he => ht.exec_eq he,
    fun _ _ _ hs h => tests_or_enters_of_failed hs h⟩

/-- A read that is refused has taken its line only; a loop whose condition fails after an iteration leaves what this has
done. -/
theorem left_by_failure_of_read_and_loop :
    let m : Machine := ⟨⟨[("n", ⟨.integer 1, some .integer⟩)], []⟩, [117, 109, 10, 55, 10], ⟨#[], none⟩, #[]⟩
    let read : Statement := .read "n" ⟨1, 5⟩
    let quotient : Expr := .binary (.literal (.integer 1) ⟨1, 11⟩) (.arithmetic .divide) (.name "n" ⟨1, 15⟩) ⟨1, 13⟩
    let condition : Expr := .binary quotient (.equality .equal) (.literal (.integer 1) ⟨1, 20⟩) ⟨1, 17⟩
    let body : Block := ⟨[.assignment "n" (.literal (.integer 0) ⟨1, 29⟩) ⟨1, 25⟩], ⟨1, 23⟩⟩
    let loop : Statement := .repetition condition body ⟨1, 1⟩
    let left : Machine := { m with scopes := ⟨[("n", ⟨.integer 0, some .integer⟩)], []⟩ }
    (∃ m', exec ⟨false, false⟩ 0 read m = .failed (.type (.read "um" .integer) ⟨1, 5⟩) m' ∧
      m'.scopes = m.scopes ∧ ∃ line, Input.lines m.input = line :: Input.lines m'.input) ∧
    ∃ enough, ∀ fuel, enough ≤ fuel →
      exec ⟨false, false⟩ fuel loop m = .failed (.arithmetic .divisionByZero ⟨1, 13⟩) left := by
  intro m read quotient condition body loop left
  have hread : exec ⟨false, false⟩ 0 read m =
      .failed (.type (.read "um" .integer) ⟨1, 5⟩) { m with input := [55, 10] } := rfl
  have hintact := (left_by_failure ⟨false, false⟩ read m).1 _ _ _ trivial hread
  have htest : condition.test m.scopes = .ok true := rfl
  have hbody : execBlock ⟨false, false⟩ 0 body m = .finished left := rfl
  have hfail : condition.test left.scopes = .error (.arithmetic .divisionByZero ⟨1, 13⟩) := rfl
  have htests : loop.Tests ⟨false, false⟩ m condition left := .later htest hbody .repetition
  exact ⟨⟨_, hread, hintact.scopes_eq, hintact.line_taken rfl (by simp)⟩,
    (left_by_failure ⟨false, false⟩ loop m).2.1 _ _ _ htests hfail⟩

end Statement
end Portugol
