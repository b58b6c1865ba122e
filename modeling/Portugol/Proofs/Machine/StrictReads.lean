import Portugol.Proofs.Machine.Companions

/-! # Strict reads

With strict reads a program does what it does without them, up to the first read into an unknown name. There it ends,
where the other run declares the name and goes on. What was written by then is the beginning of what the other run
writes, and what the other run leaves of the input is the end of what is left by then (`Program.run_strict`). -/
namespace Portugol

/-- A run that went on, and one that an unknown name ended at one of the reads. -/
def Outcome.Rejected (among : Statement → Prop) (r r' : Outcome) : Prop :=
  ∃ x p m', among (.read x p) ∧ r' = .failed (.undefinedVariable x p) m' ∧ ∀ m, r.machine? = some m → m'.Onward m

namespace Statement

variable {trace : Bool} {among : Statement → Prop}

theorem pairing_strict (trace : Bool) : Pairing ⟨trace, false⟩ ⟨trace, true⟩ (· = ·) where
  scopes_eq := by
    rintro m _ rfl
    rfl
  withScopes := by
    rintro m _ rfl s
    rfl
  report := by
    rintro m _ rfl step
    rfl

/-- A line for an unknown name is received without strict reads only, and nothing is read or written then. -/
theorem receive_rejected {m : Machine} {x : String} {p : Position} (hamong : among (.read x p))
    (hx : m.scopes.get? x = none) (line : String) :
    Outcome.Rejected among (receive ⟨trace, false⟩ x p line m) (receive ⟨trace, true⟩ x p line m) := by
  refine ⟨x, p, m, hamong, ?_, fun m₁ hm₁ => .of_still (receive_still hm₁)⟩
  simp only [receive, hx]
  rfl

theorem input_strict {m : Machine} {x : String} {p : Position} (hamong : among (.read x p)) :
    Outcome.Together (· = ·) (Outcome.Rejected among) (input ⟨trace, false⟩ x p m) (input ⟨trace, true⟩ x p m) := by
  rw [input, input]
  split
  · exact .failed rfl
  · exact .failed rfl
  · next line rest _ =>
    -- The line is used up in both runs before the mode counts.
    cases hx : m.scopes.get? x with
    | none => exact .apart (receive_rejected (m := { m with input := rest }) hamong hx line)
    | some b => exact (pairing_strict trace).together_receive_bound (m := { m with input := rest }) rfl hx p line

theorem coupling_strict (trace : Bool) (among : Statement → Prop) :
    Coupling ⟨trace, false⟩ ⟨trace, true⟩ among (· = ·) (Outcome.Rejected among) where
  toPairing := pairing_strict trace
  input := by
    rintro m _ x p hamong rfl
    exact input_strict hamong
  print := by
    rintro m _ rfl texts
    cases m.print texts with
    | finished => exact .finished rfl
    | failed => exact .failed rfl
    | unfinished => exact .unfinished
  leaving := by
    rintro r _ ⟨x, p, m', hamong, rfl, hall⟩
    refine ⟨x, p, m'.pop, hamong, rfl, fun m hm => ?_⟩
    rw [Outcome.machine?_map] at hm
    obtain ⟨m₁, hm₁, rfl⟩ := Option.map_eq_some_iff.1 hm
    have honward := hall m₁ hm₁
    exact ⟨honward.input, honward.written⟩
  andThen := by
    rintro r _ ⟨x, p, m', hamong, rfl, hall⟩ next next' hnext
    refine ⟨x, p, m', hamong, rfl, fun m hm => ?_⟩
    cases r with
    | finished m₁ => exact (hall m₁ rfl).trans (hnext m₁ m hm)
    | failed e m₁ => exact hall m hm
    | unfinished => cases hm

end Statement

/-- If a program ends without strict reads, it ends in the same way with them, or at one of its reads because the name
is unknown; then it has written a beginning of what the other run writes, and the other run leaves an end of the input
that it leaves. If it ends with strict reads and no error, both runs are the same. -/
theorem Program.run_strict (program : Program) (trace : Bool) (fuel : Nat) {m m₁ : Machine}
    (hm₁ : (program.run ⟨trace, false⟩ fuel m).machine? = some m₁) :
    (program.run ⟨trace, true⟩ fuel m = program.run ⟨trace, false⟩ fuel m ∨
      ∃ x p m₂, .read x p ∈ program.parts ∧ program.run ⟨trace, true⟩ fuel m = .failed (.undefinedVariable x p) m₂ ∧
        m₂.output.written.toList <+: m₁.output.written.toList ∧ m₁.input <:+ m₂.input) ∧
    ∀ m₂, program.run ⟨trace, true⟩ fuel m = .finished m₂ → program.run ⟨trace, false⟩ fuel m = .finished m₂ := by
  have htogether := (Statement.coupling_strict trace (· ∈ program.parts)).together_execAll fuel program.statements
    (fun _ hs => hs) (rfl : m = m)
  change Outcome.Together _ _ (program.run ⟨trace, false⟩ fuel m) (program.run ⟨trace, true⟩ fuel m) at htogether
  generalize program.run ⟨trace, false⟩ fuel m = r at hm₁ htogether
  generalize program.run ⟨trace, true⟩ fuel m = r' at htogether
  cases htogether with
  | finished h => exact ⟨.inl (congrArg Outcome.finished h.symm), fun m₂ hm₂ => h ▸ hm₂⟩
  | failed h => exact ⟨.inl (congrArg (Outcome.failed _) h.symm), nofun⟩
  | unfinished => cases hm₁
  | apart h =>
    obtain ⟨x, p, m₂, hread, rfl, hall⟩ := h
    have honward := hall m₁ hm₁
    exact ⟨.inr ⟨x, p, m₂, hread, rfl, honward.written, honward.input⟩, nofun⟩

def Program.echoing : Program :=
  ⟨[.block ⟨[.write [.literal (.text "a") ⟨1, 11⟩] ⟨1, 3⟩, .read "x" ⟨1, 17⟩, .write [.name "x" ⟨1, 34⟩] ⟨1, 26⟩,
    .read "y" ⟨1, 38⟩], ⟨1, 1⟩⟩]⟩

theorem Program.run_echoing : echoing.run ⟨false, false⟩ 0 (.start [55, 10, 56, 10, 57] none) =
    .finished ⟨.empty, [57], ⟨#[97, 10, 55, 10], none⟩, #[]⟩ := by
  rfl

/-- With strict reads only the text is written, and one of the two lines is used up. -/
theorem Program.run_strict_echoing : ∃ x p m₂, .read x p ∈ echoing.parts ∧
    echoing.run ⟨false, true⟩ 0 (.start [55, 10, 56, 10, 57] none) = .failed (.undefinedVariable x p) m₂ ∧
    m₂.output.written.toList <+: [97, 10, 55, 10] ∧ [57] <:+ m₂.input := by
  obtain ⟨hsame | hrejected, -⟩ := Program.run_strict echoing false 0 (congrArg Outcome.machine? run_echoing)
  · rw [run_echoing] at hsame
    cases hsame
  · exact hrejected

end Portugol
