import Portugol.Command.Session
import Portugol.Machine.Iterations
import Portugol.Proofs.Grammar.Parsing
import Portugol.Proofs.Machine.Consumption
import Portugol.Proofs.Machine.ScopeDiscipline

/-! # Rounds of the prompt

The prompt and the programs that are entered at it take the lines of one input. In each round the prompt takes a line,
and the reads of its program take the lines that follow (`Round`). The rounds go on until the prompt meets a blank line
or the end of the input (`Session.Closes`). No line is lost between them and none is taken twice, whatever the programs
do and however they end (`Session.lines_of_rounds`), and the globals stay from each round to the next. -/
namespace Portugol.Command

def Arguments.options (a : Arguments) : Options := ⟨a.trace, a.strictReads⟩

theorem Ending.exists_resumed {r : Ending} (h : r ≠ .unfinished) : ∃ s, r.resumed? = some s := by
  cases r with
  | done s => exact ⟨s, rfl⟩
  | failed f s => exact ⟨_, rfl⟩
  | unfinished => exact absurd rfl h

namespace Session

variable {a : Arguments} {fuel : Nat} {source : String} {program : Program} {s t : Session}

@[simp] theorem input_say (text : String) (s : Session) : (s.say text).machine.input = s.machine.input := rfl

/-! ## Entering a source -/

/-- A session in which a program is about to be run. -/
def ready (a : Arguments) (source : String) (program : Program) (s : Session) : Session :=
  let s := if a.tokens then s.say (listing source) else s
  let s := if a.ast then s.say (program.outline ++ "\n") else s
  match a.dot with
  | none => s
  | some _ => { s with graph := some program.graph }

@[simp] theorem input_ready : (s.ready a source program).machine.input = s.machine.input := by
  rw [ready]
  cases a.dot <;> cases a.ast <;> cases a.tokens <;> rfl

@[simp] theorem scopes_ready : (s.ready a source program).machine.scopes = s.machine.scopes := by
  rw [ready]
  cases a.dot <;> cases a.ast <;> cases a.tokens <;> rfl

theorem enter_of_program (h : Program.parse source = .ok program) : s.enter a none fuel source =
    match program.run a.options fuel (s.ready a source program).machine with
    | .finished m => .done { s.ready a source program with machine := m }
    | .failed e m => .failed (.stopped e) { s.ready a source program with machine := m }
    | .unfinished => .unfinished := by
  simp only [enter, h, keepGraph, ready]
  cases a.dot <;> rfl

/-- A program that came to its end leaves the input and the variables to what is entered next. -/
theorem exists_run (h : Program.parse source = .ok program) (ht : (s.enter a none fuel source).resumed? = some t) :
    ∃ m, (program.run a.options fuel (s.ready a source program).machine).machine? = some m ∧
      t.machine.input = m.input ∧ t.machine.scopes = m.scopes := by
  rw [enter_of_program h] at ht
  split at ht
  · next m hrun =>
    cases ht
    exact ⟨m, by rw [hrun]; rfl, rfl, rfl⟩
  · next e m hrun =>
    cases ht
    exact ⟨m, by rw [hrun]; rfl, rfl, rfl⟩
  · cases ht

theorem foldl_note (errors : List SyntaxError) (s : Session) :
    (errors.foldl (fun s e => s.note e.message) s).machine.input = s.machine.input ∧
      (errors.foldl (fun s e => s.note e.message) s).machine.scopes = s.machine.scopes := by
  induction errors generalizing s with
  | nil => exact ⟨rfl, rfl⟩
  | cons e errors ih => exact ih (s.note e.message)

/-- A source that is no program takes nothing of the input and leaves the variables as they are. -/
theorem still_of_errors {errors : List SyntaxError} (h : Program.parse source = .error errors)
    (ht : (s.enter a none fuel source).resumed? = some t) :
    t.machine.input = s.machine.input ∧ t.machine.scopes = s.machine.scopes := by
  simp only [enter, h] at ht
  cases ht
  obtain ⟨hinput, hscopes⟩ := foldl_note errors (if a.tokens then s.say (listing source) else s)
  constructor
  · refine hinput.trans ?_
    split <;> rfl
  · refine hscopes.trans ?_
    split <;> rfl

/-- The lines that reads take when a source is entered. -/
def linesRead (a : Arguments) (fuel : Nat) (source : String) (s : Session) : List (List UInt8) :=
  match Program.parse source with
  | .error _ => []
  | .ok program =>
    (program.course a.options fuel (s.ready a source program).machine).flatMap (Statement.linesTaken a.options)

theorem lines_of_enter (ht : (s.enter a none fuel source).resumed? = some t) :
    Input.lines s.machine.input = s.linesRead a fuel source ++ Input.lines t.machine.input := by
  rw [linesRead]
  cases hparse : Program.parse source with
  | error errors => rw [(still_of_errors hparse ht).1, List.nil_append]
  | ok program =>
    obtain ⟨m, hrun, hinput, -⟩ := exists_run hparse ht
    have hlines := Program.lines_of_run hrun
    rwa [input_ready, ← hinput] at hlines

theorem kept_of_enter (ht : (s.enter a none fuel source).resumed? = some t) :
    s.machine.scopes.Kept (fun _ => True) t.machine.scopes := by
  cases hparse : Program.parse source with
  | error errors =>
    rw [(still_of_errors hparse ht).2]
    exact .refl _
  | ok program =>
    obtain ⟨m, hrun, -, hscopes⟩ := exists_run hparse ht
    have hkept := Statement.execAll_across Scopes.Kept.discipline program.statements hrun
    rwa [scopes_ready, ← hscopes] at hkept

theorem enter_mono {fuel' : Nat} (hle : fuel ≤ fuel') (h : s.enter a none fuel source ≠ .unfinished) :
    s.enter a none fuel' source = s.enter a none fuel source := by
  cases hparse : Program.parse source with
  | error errors => simp only [enter, hparse]
  | ok program =>
    rw [enter_of_program hparse] at h ⊢
    rw [enter_of_program hparse, Program.run_mono a.options hle]
    intro hunfinished
    rw [hunfinished] at h
    exact h rfl

/-! ## Lines at the prompt -/

def taking (s : Session) : Session :=
  let s := s.say "> "
  { s with machine := { s.machine with input := (Input.cut s.machine.input).2 } }

/-- The prompt ends with a blank line, or without one at the end of the input. -/
inductive Closes (s : Session) : List (List UInt8) → Session → Prop where
  | exhausted (h : s.machine.input = []) : Closes s [] ((s.say "> ").say "Exiting...\n")
  | blank {text : String} (hne : s.machine.input ≠ [])
      (hdecode : Input.decode (Input.cut s.machine.input).1 = some text)
      (hblank : Text.trim text = "") : Closes s [(Input.cut s.machine.input).1] (s.taking.say "Exiting...\n")

end Session

/-- What is done with a line that the prompt takes, and the lines that are read meanwhile. -/
structure Round where
  start : Session
  line : List UInt8
  source : String
  read : List (List UInt8)
  stop : Session

namespace Round

/-- The prompt takes the line, which is not blank, and its program takes the lines that it reads and comes to its
end, with an error or without. -/
structure Runs (a : Arguments) (r : Round) : Prop where
  line_eq : r.line = (Input.cut r.start.machine.input).1
  decode_eq : Input.decode r.line = some r.source
  proper : Text.trim r.source ≠ ""
  ends : ∃ fuel, (r.start.taking.enter a none fuel r.source).resumed? = some r.stop ∧
    r.read = r.start.taking.linesRead a fuel r.source

def lines (r : Round) : List (List UInt8) := r.line :: r.read

end Round

namespace Session

def Rounds (a : Arguments) : Session → List Round → Session → Prop
  | s, [], t => s = t
  | s, r :: rounds, t => r.start = s ∧ r.Runs a ∧ Rounds a r.stop rounds t

end Session

namespace Round.Runs

variable {a : Arguments} {r : Round}

theorem input_ne_nil (h : r.Runs a) : r.start.machine.input ≠ [] := by
  intro hnil
  have hempty : Input.decode [] = some "" := Input.decode_eq_some_iff.2 rfl
  have hdecode := h.decode_eq
  rw [h.line_eq, hnil, Input.cut, hempty] at hdecode
  exact h.proper (by rw [← Option.some.inj hdecode]; rfl)

theorem lines_eq (h : r.Runs a) :
    Input.lines r.start.machine.input = r.lines ++ Input.lines r.stop.machine.input := by
  obtain ⟨fuel, hstop, hread⟩ := h.ends
  have hlines := Session.lines_of_enter hstop
  rw [Input.lines_eq_cons h.input_ne_nil, lines, h.line_eq, hread, List.cons_append, ← hlines]
  rfl

theorem length_lt (h : r.Runs a) : r.stop.machine.input.length < r.start.machine.input.length := by
  have hflatten := congrArg (fun lines => lines.flatten.length) h.lines_eq
  have hline := List.length_pos_of_ne_nil (mt Input.cut_eq_nil_iff.1 h.input_ne_nil)
  simp only [lines, h.line_eq, List.flatten_append, List.flatten_cons, List.length_append,
    Input.flatten_lines] at hflatten
  omega

theorem kept (h : r.Runs a) : r.start.machine.scopes.Kept (fun _ => True) r.stop.machine.scopes := by
  obtain ⟨fuel, hstop, -⟩ := h.ends
  exact Session.kept_of_enter (s := r.start.taking) hstop

/-- A line that is no program takes no other line, and leaves the variables as they are. -/
theorem still (h : r.Runs a) {errors : List SyntaxError} (herrors : Program.parse r.source = .error errors) :
    r.read = [] ∧ r.stop.machine.input = (Input.cut r.start.machine.input).2 ∧
      r.stop.machine.scopes = r.start.machine.scopes := by
  obtain ⟨fuel, hstop, hread⟩ := h.ends
  rw [Session.linesRead, herrors] at hread
  exact ⟨hread, Session.still_of_errors herrors hstop⟩

end Round.Runs

namespace Session

variable {a : Arguments} {fuel count : Nat} {source : String} {s t : Session} {rounds : List Round}

/-- The lines before some rounds are those that are taken in them and those that are left. -/
theorem lines_of_rounds (h : Rounds a s rounds t) :
    Input.lines s.machine.input = rounds.flatMap Round.lines ++ Input.lines t.machine.input := by
  induction rounds generalizing s with
  | nil =>
    cases h
    rfl
  | cons r rounds ih =>
    obtain ⟨rfl, hruns, hrest⟩ := h
    rw [hruns.lines_eq, ih hrest, List.flatMap_cons, List.append_assoc]

theorem lines_of_closes {closing : List (List UInt8)} (h : s.Closes closing t) :
    Input.lines s.machine.input = closing ++ Input.lines t.machine.input := by
  cases h with
  | exhausted => rfl
  | blank hne => exact Input.lines_eq_cons hne

theorem kept_of_rounds (h : Rounds a s rounds t) : ∀ r ∈ rounds,
    r.Runs a ∧ s.machine.scopes.Kept (fun _ => True) r.start.machine.scopes := by
  induction rounds generalizing s with
  | nil => exact fun _ h => nomatch h
  | cons first rounds ih =>
    obtain ⟨rfl, hruns, hrest⟩ := h
    intro r hr
    rcases List.mem_cons.1 hr with rfl | hr
    · exact ⟨hruns, .refl _⟩
    · obtain ⟨hruns', hkept⟩ := ih hrest r hr
      exact ⟨hruns', hruns.kept.trans hkept⟩

theorem prompt_succ : s.prompt a none fuel (count + 1) =
    match (s.say "> ").round a none fuel with
    | .last e => e
    | .entered e =>
      match e.resumed? with
      | some t => t.prompt a none fuel count
      | none => .unfinished := by
  rw [prompt, rounds]
  change (Id.run (match (s.say "> ").round a none fuel with | .last e => _ | .entered e => _)) = _
  cases (s.say "> ").round a none fuel with
  | last e => rfl
  | entered e => cases e <;> rfl

theorem prompt_of_exhausted (h : s.machine.input = []) :
    s.prompt a none fuel (count + 1) = .done ((s.say "> ").say "Exiting...\n") := by
  rw [prompt_succ, round]
  simp only [input_say, h, Input.rawLine_nil]

theorem round_of_line (hne : s.machine.input ≠ []) (h : Input.decode (Input.cut s.machine.input).1 = some source) :
    (s.say "> ").round a none fuel =
      if Text.trim source = "" then .last (.done (s.taking.say "Exiting...\n"))
      else .entered (s.taking.enter a none fuel source) := by
  rw [round]
  simp only [input_say, Input.rawLine_of_decode hne h]
  rfl

theorem prompt_of_line (hne : s.machine.input ≠ []) (h : Input.decode (Input.cut s.machine.input).1 = some source) :
    s.prompt a none fuel (count + 1) =
      if Text.trim source = "" then .done (s.taking.say "Exiting...\n")
      else
        match (s.taking.enter a none fuel source).resumed? with
        | some t => t.prompt a none fuel count
        | none => .unfinished := by
  rw [prompt_succ, round_of_line hne h]
  by_cases hblank : Text.trim source = ""
  · rw [if_pos hblank, if_pos hblank]
  · rw [if_neg hblank, if_neg hblank]

/-- If all lines are texts and the programs that are entered end, the prompt goes through some rounds and then closes,
given iterations enough for each of these programs. -/
theorem exists_rounds (hlines : ∀ line ∈ Input.lines s.machine.input, ∃ text, Input.decode line = some text)
    (hends : ∀ rounds t text, Rounds a s rounds t → Input.decode (Input.cut t.machine.input).1 = some text →
      Text.trim text ≠ "" → ∃ fuel, t.taking.enter a none fuel text ≠ .unfinished) :
    ∃ rounds t closing u, Rounds a s rounds t ∧ t.Closes closing u ∧ ∃ enough, ∀ fuel count, enough ≤ fuel →
      s.machine.input.length ≤ count → s.prompt a none fuel (count + 1) = .done u := by
  induction hn : s.machine.input.length using Nat.strongRecOn generalizing s with
  | ind n ih =>
  by_cases hne : s.machine.input = []
  · exact ⟨[], s, [], _, rfl, .exhausted hne, 0, fun fuel count _ _ => prompt_of_exhausted hne⟩
  obtain ⟨text, htext⟩ := hlines _ (by rw [Input.lines_eq_cons hne]; exact List.mem_cons_self)
  by_cases hblank : Text.trim text = ""
  · refine ⟨[], s, _, _, rfl, .blank hne htext hblank, 0, fun fuel count _ _ => ?_⟩
    rw [prompt_of_line hne htext, if_pos hblank]
  · -- The line is entered, and what is left of the input is shorter by it at least.
    obtain ⟨enough, hentered⟩ := hends [] s text rfl htext hblank
    obtain ⟨next, hnext⟩ := Ending.exists_resumed hentered
    let r : Round := ⟨s, (Input.cut s.machine.input).1, text, s.taking.linesRead a enough text, next⟩
    have hruns : r.Runs a := ⟨rfl, htext, hblank, enough, hnext, rfl⟩
    have hshorter : next.machine.input.length < s.machine.input.length := hruns.length_lt
    have hlater (line) (hline : line ∈ Input.lines next.machine.input) : ∃ text, Input.decode line = some text :=
      hlines line (by rw [hruns.lines_eq]; exact List.mem_append_right _ hline)
    obtain ⟨rounds, t, closing, u, hrounds, hcloses, enough', hprompt⟩ := ih _ (hn ▸ hshorter) hlater
      (fun rounds t text hrounds => hends (r :: rounds) t text ⟨rfl, hruns, hrounds⟩) rfl
    refine ⟨r :: rounds, t, closing, u, ⟨rfl, hruns, hrounds⟩, hcloses, max enough enough', ?_⟩
    intro fuel count hfuel hcount
    obtain ⟨count, rfl⟩ : ∃ k, count = k + 1 := ⟨count - 1, by omega⟩
    have hsame := enter_mono (Nat.le_trans (Nat.le_max_left ..) hfuel) hentered
    rw [prompt_of_line hne htext, if_neg hblank, hsame, hnext]
    exact hprompt fuel count (Nat.le_trans (Nat.le_max_right ..) hfuel) (by omega)

end Session

/-- At the prompt, every line of an input that is a text is taken just once and in order, by the prompt or by a read of
the program that was entered last, if these programs end. The command succeeds at the first line of the prompt that is
blank, or at the end of the input, and leaves the lines that follow. A line that is no program changes neither the
variables nor what is left of the input, and no global is lost, whatever error a program ends with. -/
theorem answer_shares_input {folder : Folder} {args : List String} {a : Arguments} {input : List UInt8} {text : String}
    (hread : Arguments.read args = .run a) (hsource : a.source = none)
    (hdot : ∀ path ∈ a.dot, folder.refusal? path = none) (htext : Input.decode input = some text)
    (hends : ∀ rounds s source, Session.Rounds a (.opening input) rounds s →
      Input.decode (Input.cut s.machine.input).1 = some source → Text.trim source ≠ "" →
      ∃ fuel, s.taking.enter a none fuel source ≠ .unfinished) :
    ∃ rounds s closing t, Session.Rounds a (.opening input) rounds s ∧ s.Closes closing t ∧
      Input.lines input = rounds.flatMap Round.lines ++ closing ++ Input.lines t.machine.input ∧
      (∀ r ∈ rounds,
        (∀ errors, Program.parse r.source = .error errors → r.read = [] ∧
          r.stop.machine.input = (Input.cut r.start.machine.input).2 ∧
          r.stop.machine.scopes = r.start.machine.scopes) ∧
        r.start.machine.scopes.depth = 1 ∧ r.start.machine.scopes.Kept (fun _ => True) r.stop.machine.scopes) ∧
      ∃ enough, ∀ fuel, enough ≤ fuel → runPrompt a none fuel input = .done t ∧
        answer? fuel folder args input = some (.ofSession 0 t) := by
  have hrefusal : a.dot.bind (Folder.refusal? folder) = none := Option.bind_eq_none_iff.2 hdot
  obtain ⟨rounds, s, closing, t, hrounds, hcloses, enough, hprompt⟩ :=
    Session.exists_rounds (s := .opening input) (Input.decode_lines htext) hends
  have hlines := Session.lines_of_rounds hrounds
  rw [Session.lines_of_closes hcloses, ← List.append_assoc] at hlines
  refine ⟨rounds, s, closing, t, hrounds, hcloses, hlines, fun r hr => ?_, enough, fun fuel hfuel => ?_⟩
  · obtain ⟨hruns, hkept⟩ := Session.kept_of_rounds hrounds r hr
    exact ⟨fun errors => hruns.still, hkept.depth_eq, hruns.kept⟩
  · have hrun : runPrompt a none fuel input = .done t := hprompt fuel input.length hfuel (Nat.le_refl _)
    refine ⟨hrun, ?_⟩
    simp only [answer?, hread, hsource, hrefusal, hrun]
    rfl

theorem run_read (o : Options) (fuel : Nat) (x : String) (p : Position) (m : Machine) :
    Program.run o fuel ⟨[.read x p]⟩ m = Statement.input o x p m := by
  rw [Program.run, Statement.execAll, Statement.exec]
  cases Statement.input o x p m <;> rfl

theorem input_ne_unfinished (o : Options) (x : String) (p : Position) (m : Machine) :
    Statement.input o x p m ≠ .unfinished := by
  rw [Statement.input]
  split
  · simp
  · simp
  · simp only [Statement.receive]
    split
    · split <;> simp
    split
    · simp
    · split <;> simp

theorem statements_read : Grammar.statements (tokenize "leia(x);\n").cursor =
    ([.read "x" ⟨1, 1⟩], .start [] ⟨2, 1⟩) := by
  have hcursor : (tokenize "leia(x);\n").cursor = .start
      [⟨.keyword .leia, "leia", ⟨1, 1⟩⟩, ⟨.symbol .openParen, "(", ⟨1, 5⟩⟩, ⟨.name "x", "x", ⟨1, 6⟩⟩,
       ⟨.symbol .closeParen, ")", ⟨1, 7⟩⟩, ⟨.symbol .semicolon, ";", ⟨1, 8⟩⟩]
      ⟨2, 1⟩ :=
    congrArg₂ Grammar.Cursor.start (by decide +kernel) (by decide +kernel)
  rw [hcursor]
  rfl

theorem parse_read : Program.parse "leia(x);\n" = .ok ⟨[.read "x" ⟨1, 1⟩]⟩ :=
  Grammar.programFrom_eq_ok_iff.2 ⟨by decide +kernel, by rw [statements_read]; rfl, by rw [statements_read]⟩

theorem enter_reading {a : Arguments} {s : Session} : s.enter a none 0 "leia(x);\n" ≠ .unfinished := by
  rw [Session.enter_of_program parse_read, run_read]
  split
  · simp
  · simp
  · next hunfinished => exact absurd hunfinished (input_ne_unfinished _ _ _ _)

/-- A program that reads a name, two blank lines, and a word. -/
def readingBlank : List UInt8 := Input.encode "leia(x);\n\n\nresto".toList

theorem decode_readingBlank : Input.decode (Input.cut readingBlank).1 = some "leia(x);\n" :=
  Input.decode_eq_some_iff.2 (by decide)

theorem decode_blank : Input.decode (Input.cut (Input.encode "\nresto".toList)).1 = some "\n" :=
  Input.decode_eq_some_iff.2 (by decide)

/-- What is read at the prompt of this input: the name, with the first blank line for it. -/
theorem rounds_readingBlank {rounds : List Round} {s : Session}
    (h : Session.Rounds .none (.opening readingBlank) rounds s) :
    rounds = [] ∧ s = .opening readingBlank ∨
      ∃ r, rounds = [r] ∧ r.start.machine.input = readingBlank ∧ s = r.stop ∧
        s.machine.input = Input.encode "\nresto".toList := by
  cases rounds with
  | nil => exact .inl ⟨rfl, h.symm⟩
  | cons r rounds =>
    obtain ⟨hstart, hruns, hrest⟩ := h
    have hinput : r.start.machine.input = readingBlank := hstart ▸ rfl
    have hsource : "leia(x);\n" = r.source := by
      have hdecode := hruns.decode_eq
      rw [hruns.line_eq, hinput, decode_readingBlank] at hdecode
      exact Option.some.inj hdecode
    obtain ⟨fuel, hstop, -⟩ := hruns.ends
    rw [← hsource] at hstop
    obtain ⟨m, hrun, hleft, -⟩ := Session.exists_run parse_read hstop
    rw [run_read] at hrun
    rw [(Statement.input_cut hrun).1, Session.input_ready] at hleft
    change r.stop.machine.input = (Input.cut (Input.cut r.start.machine.input).2).2 at hleft
    rw [hinput] at hleft
    cases rounds with
    | nil => exact .inr ⟨r, rfl, hinput, hrest.symm, hrest ▸ hleft⟩
    | cons r' rounds =>
      -- A second round would begin with a blank line.
      obtain ⟨hstart', hruns', -⟩ := hrest
      have hdecode := hruns'.decode_eq
      rw [hruns'.line_eq, hstart', hleft] at hdecode
      replace hdecode := decode_blank.symm.trans hdecode
      exact absurd (Option.some.inj hdecode ▸ by decide) hruns'.proper

/-- The first blank line is read into the name, the second one ends the session, and the word is left. -/
theorem answer_shares_input_readingBlank :
    Input.decode readingBlank = some "leia(x);\n\n\nresto" ∧
    ∃ r t, Session.Rounds .none (.opening readingBlank) [r] r.stop ∧
      r.lines = ["leia(x);\n", "\n"].map (fun text => Input.encode text.toList) ∧
      t.machine.input = Input.encode "resto".toList ∧
      ∃ enough, ∀ fuel, enough ≤ fuel → answer? fuel [] [] readingBlank = some (.ofSession 0 t) := by
  have htext : Input.decode readingBlank = some "leia(x);\n\n\nresto" := Input.decode_eq_some_iff.2 (by decide)
  have hends (rounds s source) (hrounds : Session.Rounds .none (.opening readingBlank) rounds s)
      (hdecode : Input.decode (Input.cut s.machine.input).1 = some source) (hproper : Text.trim source ≠ "") :
      ∃ fuel, s.taking.enter .none none fuel source ≠ .unfinished := by
    obtain ⟨-, rfl⟩ | ⟨r, -, -, -, hinput⟩ := rounds_readingBlank hrounds
    · obtain rfl : "leia(x);\n" = source := Option.some.inj (decode_readingBlank.symm.trans hdecode)
      exact ⟨0, enter_reading⟩
    · rw [hinput, decode_blank] at hdecode
      exact absurd (Option.some.inj hdecode ▸ by decide) hproper
  have hread : Arguments.read [] = .run .none := rfl
  have hdot : ∀ path ∈ Arguments.none.dot, Folder.refusal? [] path = none := nofun
  obtain ⟨rounds, s, closing, t, hrounds, hcloses, -, -, enough, hanswer⟩ :=
    answer_shares_input hread rfl hdot htext hends
  obtain ⟨-, rfl⟩ | ⟨r, rfl, hstart, rfl, hstop⟩ := rounds_readingBlank hrounds
  · cases hcloses with
    | exhausted h => cases h
    | blank _ hdecode hblank =>
      obtain rfl := Option.some.inj (decode_readingBlank.symm.trans hdecode)
      exact absurd hblank (by decide)
  · have hlines := hrounds.2.1.lines_eq
    rw [hstart, hstop] at hlines
    refine ⟨htext, r, t, hrounds, (List.append_cancel_right hlines).symm, ?_, enough, fun fuel hfuel => ?_⟩
    · cases hcloses with
      | exhausted h =>
        rw [hstop] at h
        cases h
      | blank =>
        change (Input.cut r.stop.machine.input).2 = _
        rw [hstop]
        rfl
    · exact (hanswer fuel hfuel).2

end Portugol.Command
