import Portugol.Proofs.Machine.Companions

/-! # Output that is full

A program that writes to an output with a limit is run as without the limit, as long as the output goes in. The first
text that does not go in whole ends the run, whatever it stands in: what was written is the beginning of what the run
without the limit writes, up to the limit (`Program.run_limited`). -/
namespace Portugol

/-- The same machine with an output that takes so many bytes in all. -/
def Machine.limited (limit : Nat) (m : Machine) : Machine :=
  { m with output := ⟨m.output.written, some (limit - m.output.written.size)⟩ }

theorem Machine.Onward.size_le {m m₁ : Machine} (h : m.Onward m₁) :
    m.output.written.size ≤ m₁.output.written.size := by
  simpa using h.written.length_le

/-- A machine with an output without limit and one with the limit, after no more than the limit was written. -/
structure Machine.Within (limit : Nat) (m m' : Machine) : Prop where
  room_eq : m.output.room = none
  size_le : m.output.written.size ≤ limit
  eq_limited : m' = m.limited limit

/-- A run that goes on writing and one that stopped because its output was full. -/
def Outcome.Overrun (limit : Nat) (r r' : Outcome) : Prop :=
  ∃ m', r' = .failed (.stream .outputFull) m' ∧ m'.output.written.size = limit ∧
    ∀ m, r.machine? = some m → m'.Onward m ∧ limit < m.output.written.size

namespace Statement

variable {limit : Nat} {m m' : Machine}

theorem pairing_within (o : Options) (limit : Nat) : Pairing o o (Machine.Within limit) where
  scopes_eq h := by
    rw [h.eq_limited]
    rfl
  withScopes h s := ⟨h.room_eq, h.size_le, by rw [h.eq_limited]; rfl⟩
  report {m m'} h step := by
    refine ⟨by simpa using h.room_eq, by simpa using h.size_le, ?_⟩
    rw [h.eq_limited, Machine.report, Machine.report]
    split <;> rfl

theorem input_within (o : Options) {x : String} {p : Position} (h : m.Within limit m') :
    Outcome.Together (Machine.Within limit) (Outcome.Overrun limit) (input o x p m) (input o x p m') := by
  have hrest (rest : List UInt8) : Machine.Within limit { m with input := rest } { m' with input := rest } :=
    ⟨h.room_eq, h.size_le, by rw [h.eq_limited]; rfl⟩
  have hinput : m'.input = m.input := by
    rw [h.eq_limited]
    rfl
  rw [input, input, hinput]
  split
  · exact .failed h
  · exact .failed (hrest _)
  · exact (pairing_within o limit).together_receive (hrest _) rfl x p _

/-- A text that does not go in whole goes in up to the limit. -/
theorem print_within (h : m.Within limit m') (texts : List String) :
    Outcome.Together (Machine.Within limit) (Outcome.Overrun limit) (m.print texts) (m'.print texts) := by
  induction texts generalizing m m' with
  | nil => exact .finished h
  | cons text rest ih =>
    have hsize := h.size_le
    have hwrite : m.output.write text = (⟨m.output.written ++ Output.bytes text, none⟩, none) := by
      rw [Output.write, h.room_eq]
    rw [Machine.print, Machine.print, hwrite, h.eq_limited, Machine.limited]
    simp only [Output.write]
    by_cases hfits : (Output.bytes text).size ≤ limit - m.output.written.size
    · rw [if_pos hfits]
      refine ih ⟨rfl, ?_, ?_⟩
      · rw [Array.size_append]
        omega
      · simp only [Machine.limited, Array.size_append, Nat.sub_sub]
    · -- From here on only the run without the limit writes, behind what is common to both.
      rw [if_neg hfits]
      refine .apart ⟨_, rfl, ?_, fun m₁ hm₁ => ?_⟩
      · simp only [Array.size_append, Array.size_extract]
        omega
      · have honward := (Machine.print_onward hm₁).2
        have hfull := honward.size_le
        simp only [Array.size_append] at hfull
        refine ⟨⟨honward.input, List.IsPrefix.trans ?_ honward.written⟩, by omega⟩
        simp [List.take_prefix]

theorem coupling_within (o : Options) (limit : Nat) :
    Coupling o o (fun _ => True) (Machine.Within limit) (Outcome.Overrun limit) where
  toPairing := pairing_within o limit
  input _ := input_within o
  print := print_within
  leaving := by
    rintro r r' ⟨m', rfl, hsize, hall⟩
    refine ⟨m'.pop, rfl, hsize, fun m hm => ?_⟩
    rw [Outcome.machine?_map] at hm
    obtain ⟨m₁, hm₁, rfl⟩ := Option.map_eq_some_iff.1 hm
    obtain ⟨honward, hover⟩ := hall m₁ hm₁
    exact ⟨⟨honward.input, honward.written⟩, hover⟩
  andThen := by
    rintro r r' ⟨m', rfl, hsize, hall⟩ next next' hnext
    refine ⟨m', rfl, hsize, fun m hm => ?_⟩
    cases r with
    | finished m₁ =>
      obtain ⟨honward, hover⟩ := hall m₁ rfl
      have hrest := hnext m₁ m hm
      exact ⟨honward.trans hrest, Nat.lt_of_lt_of_le hover hrest.size_le⟩
    | failed e m₁ => exact hall m hm
    | unfinished => cases hm

end Statement

/-- If a run without a limit writes no more than the limit, the run with the limit is the same. Otherwise this one ends
because its output is full, just the bytes up to the limit are written, and what the other run leaves of the input is
the end of what this one leaves. -/
theorem Program.run_limited (program : Program) (o : Options) (fuel limit : Nat) {m m₁ : Machine}
    (hroom : m.output.room = none) (hsize : m.output.written.size ≤ limit)
    (hm₁ : (program.run o fuel m).machine? = some m₁) :
    (m₁.output.written.size ≤ limit →
      program.run o fuel (m.limited limit) = (program.run o fuel m).map (Machine.limited limit)) ∧
    (limit < m₁.output.written.size → ∃ m₂, program.run o fuel (m.limited limit) = .failed (.stream .outputFull) m₂ ∧
      m₂.output.written = m₁.output.written.take limit ∧ m₁.input <:+ m₂.input) := by
  have htogether := (Statement.coupling_within o limit).together_execAll fuel program.statements (fun _ _ => trivial)
    ⟨hroom, hsize, rfl⟩
  change Outcome.Together _ _ (program.run o fuel m) (program.run o fuel (m.limited limit)) at htogether
  generalize program.run o fuel m = r at hm₁ htogether
  generalize program.run o fuel (m.limited limit) = r' at htogether
  cases htogether with
  | finished h =>
    cases hm₁
    exact ⟨fun _ => by rw [h.eq_limited]; rfl, fun hover => absurd h.size_le (Nat.not_le_of_lt hover)⟩
  | failed h =>
    cases hm₁
    exact ⟨fun _ => by rw [h.eq_limited]; rfl, fun hover => absurd h.size_le (Nat.not_le_of_lt hover)⟩
  | unfinished => cases hm₁
  | apart h =>
    obtain ⟨m₂, hr', hlimit, hall⟩ := h
    obtain ⟨honward, hover⟩ := hall m₁ hm₁
    refine ⟨fun hle => absurd hover (Nat.not_lt_of_le hle), fun _ => ⟨m₂, hr', ?_, honward.input⟩⟩
    apply Array.toList_inj.1
    have hprefix := List.prefix_iff_eq_take.1 honward.written
    rw [Array.length_toList, hlimit] at hprefix
    simpa using hprefix

theorem Program.run_texts : Program.run ⟨false, false⟩ 0 ⟨[.block ⟨[.write [.literal (.text "ab") ⟨1, 11⟩,
    .literal (.text "cd") ⟨1, 17⟩] ⟨1, 3⟩], ⟨1, 1⟩⟩, .read "x" ⟨1, 24⟩]⟩ (.start [55, 10] none) =
      .finished ⟨⟨[("x", ⟨.integer 7, none⟩)], []⟩, [], ⟨#[97, 98, 99, 100, 10], none⟩, #[]⟩ := by
  rfl

/-- Two texts of which the second goes in by half end the block that they are written in, and nothing is read. -/
theorem Program.run_limited_texts : ∃ (program : Program) (m₁ m₂ : Machine),
    program.run ⟨false, false⟩ 0 (.start [55, 10] none) = .finished m₁ ∧ 3 < m₁.output.written.size ∧
    program.run ⟨false, false⟩ 0 (.start [55, 10] (some 3)) = .failed (.stream .outputFull) m₂ ∧
    m₂.output.written = #[97, 98, 99] ∧ m₁.input <:+ m₂.input := by
  have hover : 3 < #[97, 98, 99, 100, 10].size := by decide
  obtain ⟨m₂, hrun, hwritten, hinput⟩ := (Program.run_limited _ ⟨false, false⟩ 0 3 rfl (by decide)
    (congrArg Outcome.machine? run_texts)).2 hover
  exact ⟨_, _, m₂, run_texts, hover, hrun, hwritten, hinput⟩

end Portugol
