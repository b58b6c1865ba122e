import Portugol.Proofs.Machine.Companions

/-! # What a run takes of its input

A run takes the lines of its input one by one, from the first on: the lines that its reads take and those that it leaves
are the lines that it was given (`Program.lines_of_run`). It depends on no line that it does not take, and it takes as
many as it executes reads, not counting one that is refused for want of input (`Program.run_takes_lines`). -/
namespace Portugol

def Outcome.exhausted : Outcome → Bool
  | .failed (.inputExhausted ..) _ => true
  | .finished _ | .failed .. | .unfinished => false

theorem Outcome.exhausted_map (f : Machine → Machine) (r : Outcome) : (r.map f).exhausted = r.exhausted := by
  cases r with
  | finished => rfl
  | failed e => cases e <;> rfl
  | unfinished => rfl

/-- The lines that are left are the lines that were there without the first so many. -/
structure Machine.Takes (count : Nat) (m m' : Machine) : Prop where
  le : count ≤ (Input.lines m.input).length
  lines_eq : Input.lines m'.input = (Input.lines m.input).drop count

theorem Machine.Takes.of_lines {m m' : Machine} {taken : List (List UInt8)}
    (h : Input.lines m.input = taken ++ Input.lines m'.input) : Takes taken.length m m' := by
  refine ⟨?_, ?_⟩
  · rw [h, List.length_append]
    omega
  · rw [h, List.drop_left]

theorem Machine.Takes.input_eq {m m' : Machine} {count : Nat} (h : Takes count m m') :
    m.input = ((Input.lines m.input).take count).flatten ++ m'.input := by
  conv_lhs => rw [← Input.flatten_lines m.input, ← List.take_append_drop count (Input.lines m.input)]
  rw [List.flatten_append, ← h.lines_eq, Input.flatten_lines]

/-- The same machine, except that after the same whole lines there is other input. -/
def Machine.Ahead (v w : List UInt8) (m m' : Machine) : Prop :=
  ∃ u, Input.Whole u ∧ m.input = u ++ v ∧ m' = { m with input := u ++ w }

/-- A run that took some of the input that is different, if it does not stop for want of it. -/
def Outcome.Beyond (v : List UInt8) (r _ : Outcome) : Prop :=
  ∀ m, r.machine? = some m → r.exhausted = false → m.input.length < v.length

namespace Statement

variable {o : Options} {m m' : Machine} {x : String} {p : Position}

theorem exhausted_receive (line : String) : (receive o x p line m).exhausted = false := by
  simp only [receive]
  split
  · split <;> rfl
  · split
    · rfl
    · split <;> rfl

/-- A read is refused if and only if there is no line. -/
theorem exhausted_input_iff : (input o x p m).exhausted = true ↔ m.input = [] := by
  rw [← Input.nextLine_fst_eq_none_iff, input]
  split
  · next hline => simp [hline, Outcome.exhausted]
  · next hline => simp [hline, Outcome.exhausted]
  · next hline => simp [hline, exhausted_receive]

/-- Whether a statement is a read that is not refused, with the machine that it is begun with. -/
def takesLine (o : Options) : Statement × Machine → Bool
  | (.read x p, m) => !(input o x p m).exhausted
  | (.declaration .., _) | (.assignment .., _) | (.write .., _) | (.conditional .., _) | (.repetition .., _)
  | (.block _, _) => false

def linesTaken (o : Options) (begun : Statement × Machine) : List (List UInt8) :=
  if takesLine o begun then [(Input.cut begun.2.input).1] else []

/-! ## The lines that are taken -/

theorem linesTaken_read : linesTaken o (.read x p, m) = if m.input = [] then [] else [(Input.cut m.input).1] := by
  rw [linesTaken, takesLine]
  by_cases hnil : m.input = []
  · rw [exhausted_input_iff.2 hnil, if_pos hnil]
    rfl
  · rw [Bool.eq_false_iff.2 (mt exhausted_input_iff.1 hnil), if_neg hnil]
    rfl

theorem input_lines (h : (input o x p m).machine? = some m') :
    Input.lines m.input = linesTaken o (.read x p, m) ++ Input.lines m'.input := by
  rw [linesTaken_read, (input_cut h).1]
  split
  · next hnil =>
    rw [hnil]
    rfl
  · next hne => exact Input.lines_eq_cons hne

theorem length_linesTaken (begun : List (Statement × Machine)) :
    (begun.flatMap (linesTaken o)).length = begun.countP (takesLine o) := by
  induction begun with
  | nil => rfl
  | cons first rest ih =>
    rw [List.flatMap_cons, List.length_append, ih, List.countP_cons, linesTaken]
    split <;> simp [Nat.add_comm]

/-- The lines that there were are those that were taken on the way and those that are left. -/
theorem course_lines (o : Options) :
    Course o fun l m m' => Input.lines m.input = l.flatMap (linesTaken o) ++ Input.lines m'.input where
  nil _ := rfl
  append h h' := by rw [h, h', List.flatMap_append, List.append_assoc]
  plain {s m m'} hs h := by
    rw [List.flatMap_singleton]
    cases s with
    | declaration => exact congrArg Input.lines (declare_still (h 0)).input_eq.symm
    | assignment => exact congrArg Input.lines (assign_still (h 0)).input_eq.symm
    | read => exact input_lines (h 0)
    | write => exact congrArg Input.lines (output_onward (h 0)).1.symm
    | conditional | repetition | block => exact hs.elim
  block h := h
  report h := by rwa [Machine.input_report] at h

/-! ## Other input after the lines that are taken -/

theorem pairing_ahead (o : Options) (v w : List UInt8) : Pairing o o (Machine.Ahead v w) where
  scopes_eq := by
    rintro m m' ⟨u, -, -, rfl⟩
    rfl
  withScopes := by
    rintro m m' ⟨u, hwhole, hinput, rfl⟩ s
    exact ⟨u, hwhole, hinput, rfl⟩
  report := by
    rintro m m' ⟨u, hwhole, hinput, rfl⟩ step
    refine ⟨u, hwhole, by simpa using hinput, ?_⟩
    simp only [Machine.report]
    split <;> rfl

theorem input_ahead {v w : List UInt8} (h : Machine.Ahead v w m m') :
    Outcome.Together (Machine.Ahead v w) (Outcome.Beyond v) (input o x p m) (input o x p m') := by
  obtain ⟨u, hwhole, hinput, rfl⟩ := h
  by_cases hu : u = []
  · -- The line is one that differs, unless there is none.
    subst hu
    refine .apart fun m₁ hm₁ hexhausted => ?_
    have hne : v ≠ [] := by
      intro hv
      rw [exhausted_input_iff.2 (by rw [hinput, hv]; rfl)] at hexhausted
      cases hexhausted
    rw [(input_cut hm₁).1, hinput]
    exact Input.length_cut_snd_lt hne
  · have hrest : Machine.Ahead v w { m with input := (Input.nextLine u).2 ++ v }
        { m with input := (Input.nextLine u).2 ++ w } :=
      ⟨_, Input.nextLine_snd u ▸ hwhole.cut_snd, rfl, rfl⟩
    rw [input, input, hinput, Input.nextLine_append hwhole hu, Input.nextLine_append hwhole hu]
    cases (Input.nextLine u).1 with
    | none => exact .failed ⟨u, hwhole, hinput, rfl⟩
    | some read =>
      cases read with
      | error fault => exact .failed hrest
      | ok line => exact (pairing_ahead o v w).together_receive hrest rfl x p line

theorem print_ahead {v w : List UInt8} (h : Machine.Ahead v w m m') (texts : List String) :
    Outcome.Together (Machine.Ahead v w) (Outcome.Beyond v) (m.print texts) (m'.print texts) := by
  induction texts generalizing m m' with
  | nil => exact .finished h
  | cons text rest ih =>
    obtain ⟨u, hwhole, hinput, rfl⟩ := h
    rw [Machine.print, Machine.print]
    dsimp only
    obtain ⟨output, fault⟩ := m.output.write text
    cases fault with
    | none => exact ih ⟨u, hwhole, hinput, rfl⟩
    | some fault => exact .failed ⟨u, hwhole, hinput, rfl⟩

theorem coupling_ahead (o : Options) (v w : List UInt8) :
    Coupling o o (fun _ => True) (Machine.Ahead v w) (Outcome.Beyond v) where
  toPairing := pairing_ahead o v w
  input _ := input_ahead
  print := print_ahead
  leaving {r r'} h := by
    intro m₁ hm₁ hexhausted
    rw [Outcome.machine?_map] at hm₁
    rw [Outcome.exhausted_map] at hexhausted
    obtain ⟨m, hm, rfl⟩ := Option.map_eq_some_iff.1 hm₁
    exact h m hm hexhausted
  andThen {r r'} h next next' hnext := by
    intro m₁ hm₁ hexhausted
    cases r with
    | finished m => exact Nat.lt_of_le_of_lt (hnext m m₁ hm₁).input.length_le (h m rfl rfl)
    | failed e m => exact h m₁ hm₁ hexhausted
    | unfinished => cases hm₁

end Statement

def Program.course (o : Options) (fuel : Nat) (program : Program) (m : Machine) : List (Statement × Machine) :=
  Statement.courseAll o fuel program.statements m

/-- The lines that a run has before it are those that its reads take and those that it leaves. -/
theorem Program.lines_of_run {program : Program} {o : Options} {fuel : Nat} {m m' : Machine}
    (h : (program.run o fuel m).machine? = some m') :
    Input.lines m.input = (program.course o fuel m).flatMap (Statement.linesTaken o) ++ Input.lines m'.input :=
  Statement.course_execAll (Statement.course_lines o) program.statements h

theorem Program.takes_of_run {program : Program} {o : Options} {fuel : Nat} {m m' : Machine}
    (h : (program.run o fuel m).machine? = some m') :
    Machine.Takes ((program.course o fuel m).countP (Statement.takesLine o)) m m' := by
  rw [← Statement.length_linesTaken]
  exact .of_lines (lines_of_run h)

/-- A run that ends, but not for want of input, and leaves just what follows some whole lines, is the same whatever
follows them, and leaves that. Every run that ends takes the first lines of its input, one for each read that it
executes and that is not refused for want of input. -/
theorem Program.run_takes_lines (program : Program) (o : Options) (fuel : Nat) (m : Machine) :
    (∀ u v w m₁, Input.Whole u → (program.run o fuel { m with input := u ++ v }).machine? = some m₁ →
      (program.run o fuel { m with input := u ++ v }).exhausted = false → m₁.input = v →
      program.run o fuel { m with input := u ++ w } =
        (program.run o fuel { m with input := u ++ v }).map fun m => { m with input := w }) ∧
    ∀ m₁, (program.run o fuel m).machine? = some m₁ →
      (program.course o fuel m).countP (Statement.takesLine o) ≤ (Input.lines m.input).length ∧
      m.input = ((Input.lines m.input).take ((program.course o fuel m).countP (Statement.takesLine o))).flatten ++
        m₁.input := by
  constructor
  · intro u v w m₁ hwhole hm₁ hexhausted hleft
    have htogether := (Statement.coupling_ahead o v w).together_execAll fuel program.statements (fun _ _ => trivial)
      (m := { m with input := u ++ v }) ⟨u, hwhole, rfl, rfl⟩
    change Outcome.Together _ _ (program.run o fuel { m with input := u ++ v })
      (program.run o fuel { m with input := u ++ w }) at htogether
    generalize program.run o fuel { m with input := u ++ v } = r at hm₁ hexhausted htogether
    generalize program.run o fuel { m with input := u ++ w } = r' at htogether
    have hsame {m' : Machine} (h : Machine.Ahead v w m₁ m') : m' = { m₁ with input := w } := by
      obtain ⟨u', -, hinput, rfl⟩ := h
      rw [hleft] at hinput
      rw [List.self_eq_append_left.1 hinput, List.nil_append]
    cases htogether with
    | finished h =>
      cases hm₁
      rw [hsame h]
      rfl
    | failed h =>
      cases hm₁
      rw [hsame h]
      rfl
    | unfinished => cases hm₁
    | apart h =>
      -- A run that took some of what differs cannot have left all of it.
      have hlt := h m₁ hm₁ hexhausted
      rw [hleft] at hlt
      exact absurd hlt (Nat.lt_irrefl _)
  · intro m₁ hm₁
    have htakes := takes_of_run hm₁
    exact ⟨htakes.le, htakes.input_eq⟩

theorem Program.run_echo : Program.run ⟨false, false⟩ 0 ⟨[.read "x" ⟨1, 1⟩, .write [.name "x" ⟨1, 17⟩] ⟨1, 9⟩]⟩
    { Machine.start [] none with input := [55, 10] ++ [56] } =
      .finished ⟨⟨[("x", ⟨.integer 7, none⟩)], []⟩, [56], ⟨#[55, 10], none⟩, #[]⟩ := by
  rfl

/-- A program that reads a number and writes it takes one line, and does the same with another one after it. -/
theorem Program.run_takes_lines_echo : Input.Whole [55, 10] ∧ ∃ program : Program,
    program.run ⟨false, false⟩ 0 (.start [55, 10, 57, 57] none) =
      .finished ⟨⟨[("x", ⟨.integer 7, none⟩)], []⟩, [57, 57], ⟨#[55, 10], none⟩, #[]⟩ ∧
    (program.course ⟨false, false⟩ 0 (.start [55, 10, 57, 57] none)).countP (Statement.takesLine ⟨false, false⟩) = 1 ∧
    [55, 10, 57, 57] = ((Input.lines [55, 10, 57, 57]).take 1).flatten ++ [57, 57] := by
  have hwhole : Input.Whole [55, 10] := by
    rintro b hb
    cases hb
    rfl
  have hother := (Program.run_takes_lines ⟨[.read "x" ⟨1, 1⟩, .write [.name "x" ⟨1, 17⟩] ⟨1, 9⟩]⟩ ⟨false, false⟩ 0
    (.start [] none)).1 [55, 10] [56] [57, 57] _ hwhole (congrArg Outcome.machine? run_echo) (by rw [run_echo]; rfl) rfl
  rw [run_echo] at hother
  have hcount : (Program.course ⟨false, false⟩ 0 ⟨[.read "x" ⟨1, 1⟩, .write [.name "x" ⟨1, 17⟩] ⟨1, 9⟩]⟩
      (.start [55, 10, 57, 57] none)).countP (Statement.takesLine ⟨false, false⟩) = 1 := by
    rfl
  have htaken := (Program.run_takes_lines ⟨[.read "x" ⟨1, 1⟩, .write [.name "x" ⟨1, 17⟩] ⟨1, 9⟩]⟩ ⟨false, false⟩ 0
    (.start [55, 10, 57, 57] none)).2 _ (congrArg Outcome.machine? hother)
  rw [hcount] at htaken
  exact ⟨hwhole, _, hother, hcount, htaken.2⟩

end Portugol
