import Portugol.Proofs.Grammar.Boundaries
import Portugol.Proofs.Machine.Moving

/-! # Programs one below the other

Two programs, one put below the other, are one program. It is run as they are run one after the other among the same
globals, except that errors in the second one are told so many lines further down (`Program.parse_and_run_below`). -/
namespace Portugol.Program

/-- Programs in one source are run one after the other, up to the first that does not finish. -/
theorem run_append (o : Options) (fuel : Nat) (first second : Program) (m : Machine) :
    Program.run o fuel ⟨first.statements ++ second.statements⟩ m = match first.run o fuel m with
      | .finished m => second.run o fuel m
      | other => other :=
  Statement.execAll_append fuel first.statements second.statements m

theorem run_moved (f : Position → Position) (o : Options) (fuel : Nat) (program : Program) (m : Machine) :
    Outcome.Moved f (program.run o fuel m) ((program.moved f).run o fuel m) := by
  have hrun : Outcome.Moved f (Statement.execAll o fuel program.statements m)
      (Statement.execAll o fuel (Statement.movedAll f program.statements) m) :=
    Statement.execAll_moved fuel program.statements (.refl m)
  rwa [Statement.movedAll_eq] at hrun

/-- A source below a program has the errors that it has alone, further down. If it is a program too, the two are one
program, and running this one is running the first and then, if that finished, the second: it leaves the same
variables, input and output, and ends in the same way, up to the line of an error in the second. -/
theorem parse_and_run_below {a b : String} {first : Program} (ha : Program.parse a = .ok first)
    (hb : (tokenize b).tokens.head?.map Token.kind ≠ some (.keyword .senao)) :
    (∀ errors, Program.parse b = .error errors →
      Program.parse (a ++ "\n" ++ b) = .error (errors.map (SyntaxError.moved (.lower (height a))))) ∧
    ∀ second, Program.parse b = .ok second → ∃ both, Program.parse (a ++ "\n" ++ b) = .ok both ∧
      both.statements = first.statements ++ (second.moved (.lower (height a))).statements ∧
      ∀ (o : Options) (fuel : Nat) (m : Machine),
        (∀ m₁, first.run o fuel m = .finished m₁ →
          Outcome.Moved (.lower (height a)) (second.run o fuel m₁) (both.run o fuel m)) ∧
        ((∀ m₁, first.run o fuel m ≠ .finished m₁) → both.run o fuel m = first.run o fuel m) := by
  have hparse := parse_below ha hb
  refine ⟨fun errors herrors => by rw [hparse, herrors], fun second hsecond => ?_⟩
  refine ⟨⟨first.statements ++ (second.moved (.lower (height a))).statements⟩, by rw [hparse, hsecond], rfl, ?_⟩
  intro o fuel m
  rw [run_append]
  constructor
  · intro m₁ hfirst
    rw [hfirst]
    exact second.run_moved _ o fuel m₁
  · intro hfirst
    cases hrun : first.run o fuel m with
    | finished m₁ => exact absurd hrun (hfirst m₁)
    | failed e m₁ => rfl
    | unfinished => rfl

theorem statements_output : Grammar.statements (tokenize "escreva(y);").cursor =
    ([.write [.name "y" ⟨1, 9⟩] ⟨1, 1⟩], .start [] ⟨1, 12⟩) := by
  have hcursor : (tokenize "escreva(y);").cursor = .start
      [⟨.keyword .escreva, "escreva", ⟨1, 1⟩⟩, ⟨.symbol .openParen, "(", ⟨1, 8⟩⟩, ⟨.name "y", "y", ⟨1, 9⟩⟩,
       ⟨.symbol .closeParen, ")", ⟨1, 10⟩⟩, ⟨.symbol .semicolon, ";", ⟨1, 11⟩⟩]
      ⟨1, 12⟩ :=
    congrArg₂ Grammar.Cursor.start (by decide +kernel) (by decide +kernel)
  rw [hcursor]
  rfl

/-- An unknown name in the first line of a source below a line is told in the second line. -/
theorem parse_and_run_below_unknown_name :
    Program.parse "var x = 1;" = .ok ⟨[.declaration "x" none (some (.literal (.integer 1) ⟨1, 9⟩)) ⟨1, 1⟩]⟩ ∧
    (tokenize "escreva(y);").tokens.head?.map Token.kind ≠ some (.keyword .senao) ∧
    ∃ both m, Program.parse ("var x = 1;" ++ "\n" ++ "escreva(y);") = .ok both ∧
      both.run ⟨false, false⟩ 0 (.start [] none) = .failed (.undefinedVariable "y" ⟨2, 9⟩) m ∧
      m.scopes = ⟨[("x", ⟨.integer 1, none⟩)], []⟩ := by
  have hsecond : Program.parse "escreva(y);" = .ok ⟨[.write [.name "y" ⟨1, 9⟩] ⟨1, 1⟩]⟩ :=
    Grammar.programFrom_eq_ok_iff.2 ⟨by decide +kernel, by rw [statements_output]; rfl, by rw [statements_output]⟩
  have hhead : (tokenize "escreva(y);").tokens.head?.map Token.kind ≠ some (.keyword .senao) := by decide +kernel
  obtain ⟨both, hboth, -, hrun⟩ := (parse_and_run_below parse_line hhead).2 _ hsecond
  have hmoved := (hrun ⟨false, false⟩ 0 (.start [] none)).1 _ rfl
  refine ⟨parse_line, hhead, both, ?_⟩
  generalize both.run ⟨false, false⟩ 0 (.start [] none) = r at hmoved
  cases hmoved with
  | @failed e m m' h => exact ⟨m', hboth, rfl, h.scopes_eq⟩

end Portugol.Program
