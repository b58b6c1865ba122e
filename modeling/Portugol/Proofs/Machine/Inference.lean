import Portugol.Proofs.Machine.Courses
import Portugol.Proofs.Machine.TypedStore

/-! # Reading without a wanted type

Without a wanted type a line is recognised in another way than with one. Case by case of both it has the value that
the first type makes of it that takes it (`Value.findSome?_candidates`). So a variable that takes its type from its
value can read an equal line again: the line has the form of this type, and stands for the value that is there
already (`Statement.read_repeated`). -/
namespace Portugol

/-- The types that a line is tried with, one after the other. It is not tried as a real number if it has no digit. -/
def Value.candidates (line : String) : List DataType :=
  if (Text.trim line).toList.any Char.isDigit then [.integer, .real, .boolean, .text] else [.integer, .boolean, .text]

/-- A line that is no number is a truth value if a truth value takes it, and a text otherwise. -/
theorem Value.findSome?_words (line : String) :
    [DataType.boolean, .text].findSome? (ofLine? line) =
      some (if Text.trim line = "verdadeiro" then .boolean true
        else if Text.trim line = "falso" then .boolean false
        else .text (String.ofList (Text.strip (· = '"') line.toList))) := by
  have hword : ofLine? line .boolean = if Text.trim line = "verdadeiro" then some (.boolean true)
    else if Text.trim line = "falso" then some (.boolean false) else none := rfl
  rw [List.findSome?_cons, List.findSome?_singleton, hword]
  by_cases htrue : Text.trim line = "verdadeiro"
  · rw [if_pos htrue, if_pos htrue]
  by_cases hfalse : Text.trim line = "falso"
  · rw [if_neg htrue, if_neg htrue, if_pos hfalse, if_pos hfalse]
  · rw [if_neg htrue, if_neg htrue, if_neg hfalse, if_neg hfalse]
    rfl

/-- What a line stands for where no type is wanted is what the first type makes of it that takes it. -/
theorem Value.findSome?_candidates (line : String) :
    (candidates line).findSome? (ofLine? line) = some (infer line) := by
  have hinteger : ofLine? line .integer = (Integer.read? (Text.trim line).toList).map .integer := rfl
  have hreal : ofLine? line .real = (Decimal.readReal (Text.trim line).toList).map .real := rfl
  rw [candidates, infer]
  cases hn : Integer.read? (Text.trim line).toList with
  | some n =>
    rw [hn, Option.map_some] at hinteger
    rw [Option.map_some, Option.some_or, Option.getD_some]
    split <;> rw [List.findSome?_cons, hinteger]
  | none =>
    rw [hn, Option.map_none] at hinteger
    rw [Option.map_none, Option.none_or]
    by_cases hdigit : (Text.trim line).toList.any Char.isDigit
    · rw [if_pos hdigit, if_pos hdigit, List.findSome?_cons, hinteger, List.findSome?_cons, hreal]
      cases Decimal.readReal (Text.trim line).toList with
      | some x => rfl
      | none =>
        rw [Option.map_none, Option.getD_none]
        exact findSome?_words line
    · rw [if_neg hdigit, if_neg hdigit, List.findSome?_cons, hinteger, Option.getD_none]
      exact findSome?_words line

/-! ## Storing what is there -/

theorem Frame.insert_of_get? {f : Frame} {x : String} {b : Binding} (h : f.get? x = some b) : f.insert x b = f := by
  induction f with
  | nil => cases h
  | cons entry f ih =>
    obtain ⟨y, c⟩ := entry
    rw [get?_cons] at h
    rw [insert]
    by_cases hy : y = x
    · subst hy
      rw [if_pos rfl] at h
      cases h
      rw [if_pos rfl]
    · rw [if_neg (Ne.symm hy)] at h
      rw [if_neg hy, ih h]

namespace Scopes

variable {x : String} {b : Binding}

theorem assignIn_value {frames : List Frame} (h : (frames.findSome? fun f => f.get? x) = some b) :
    assignIn x b.value frames = frames := by
  induction frames with
  | nil => cases h
  | cons f rest ih =>
    rw [List.findSome?_cons] at h
    rw [assignIn]
    cases hf : f.get? x with
    | some c =>
      rw [hf] at h
      cases h
      simp only [Frame.insert_of_get? hf]
    | none =>
      rw [hf] at h
      simp only [ih h]

/-- To assign to a variable the value that it has changes nothing. -/
theorem assign_value {s : Scopes} {v : Value} {type : Option DataType} (h : s.get? x = some ⟨v, type⟩) :
    s.assign x v = s := by
  have hframes := s.frames_assign x v
  rw [assignIn_value h, frames, frames, List.cons.injEq] at hframes
  exact congrArg₂ mk hframes.1 hframes.2

end Scopes

/-! ## Reading -/

namespace Statement

variable {o : Options} {x line : String} {p : Position} {m : Machine}

theorem exec_read_line {rest : List UInt8} (h : Input.nextLine m.input = (some (.ok line), rest)) (o : Options)
    (fuel : Nat) (x : String) (p : Position) :
    exec o fuel (.read x p) m = receive o x p line { m with input := rest } := by
  simp only [exec, input, h]

/-- A variable that wants a type takes the value of a line that has its form. -/
theorem receive_wanted {b : Binding} (hx : m.scopes.get? x = some b) {t : DataType} (ht : wanted b = some t) {v : Value}
    (hv : Value.ofLine? line t = some v) : ∃ m', receive o x p line m = .finished m' ∧
      m'.scopes = m.scopes.assign x v ∧ m'.input = m.input := by
  refine ⟨(m.report o ("leitura: " ++ x ++ " = " ++ v.render)).store x v, ?_, ?_, Machine.input_report ..⟩
  · simp only [receive, hx, ht, hv]
  · simp only [Machine.store, Machine.scopes_report]

/-- A variable without a type, or one that is declared by being read, takes what the line stands for by itself. -/
theorem receive_inferred (hlax : o.strictReads = false)
    (hx : m.scopes.get? x = none ∨ m.scopes.get? x = some ⟨.undefined, none⟩) :
    ∃ m', receive o x p line m = .finished m' ∧
      m'.scopes.get? x = some ⟨Value.infer line, none⟩ ∧ m'.input = m.input := by
  let told := m.report o ("leitura: " ++ x ++ " = " ++ (Value.infer line).render)
  have hscopes : told.scopes = m.scopes := Machine.scopes_report ..
  rcases hx with hx | hx
  · refine ⟨told.declare x (Value.infer line) none, ?_, ?_, Machine.input_report ..⟩
    · simp only [receive, hx, hlax, Bool.false_eq_true, if_false, told]
    · rw [Machine.declare, hscopes, Scopes.get?_declare, if_pos rfl]
  · refine ⟨told.store x (Value.infer line), ?_, ?_, Machine.input_report ..⟩
    · have hwanted : wanted ⟨.undefined, none⟩ = none := rfl
      simp only [receive, hx, hwanted, told]
    · rw [Machine.store, hscopes, Scopes.get?_assign _ hx]

/-- A line stands for what it stands for as the first of the types that takes it; so a variable that had no type and is
read twice from equal lines is the same after the second as after the first. -/
theorem read_repeated (line : String) :
    (∃ t before behind, (Value.infer line).type? = some t ∧ Value.ofLine? line t = some (Value.infer line) ∧
      Value.candidates line = before ++ t :: behind ∧ ∀ other ∈ before, Value.ofLine? line other = none) ∧
    ∀ o fuel x p q (m : Machine) rest left, o.strictReads = false →
      m.scopes.get? x = none ∨ m.scopes.get? x = some ⟨.undefined, none⟩ →
      Input.nextLine m.input = (some (.ok line), rest) → Input.nextLine rest = (some (.ok line), left) →
      ∃ m₁ m₂, exec o fuel (.read x p) m = .finished m₁ ∧ exec o fuel (.read x q) m₁ = .finished m₂ ∧
        m₁.scopes.get? x = some ⟨Value.infer line, none⟩ ∧ m₂.scopes = m₁.scopes ∧
        m₁.input = rest ∧ m₂.input = left := by
  obtain ⟨before, t, behind, hcandidates, hline, hbefore⟩ :=
    List.findSome?_eq_some_iff.1 (Value.findSome?_candidates line)
  have htype : (Value.infer line).type? = some t := Value.type?_ofLine? hline
  refine ⟨⟨t, before, behind, htype, hline, hcandidates, hbefore⟩, ?_⟩
  intro o fuel x p q m rest left hlax hx hfirst hsecond
  obtain ⟨m₁, hread, hvalue, hinput⟩ := @receive_inferred o x line p { m with input := rest } hlax hx
  have hwanted : wanted ⟨Value.infer line, none⟩ = some t := by
    rw [wanted, htype]
    rfl
  obtain ⟨m₂, hagain, hscopes, hleft⟩ :=
    receive_wanted (o := o) (p := q) (m := { m₁ with input := left }) hvalue hwanted hline
  have hsame := Scopes.assign_value hvalue
  refine ⟨m₁, m₂, ?_, ?_, hvalue, hscopes.trans hsame, hinput, hleft⟩
  · rw [exec_read_line hfirst, hread]
  · rw [exec_read_line (by rw [hinput]; exact hsecond), hagain]

/-- A number in quotes is a text, also where it is read the second time without the quotes being there any more, and
although it has the digit that a real number needs. -/
theorem read_repeated_quoted :
    let m : Machine := .start (Input.encode "\"7\"\r\n\"7\"".toList) none
    m.scopes.get? "x" = none ∧ Value.infer "\"7\"" = .text "7" ∧
    (∃ before behind, Value.candidates "\"7\"" = before ++ .text :: behind ∧
      ∀ other ∈ before, Value.ofLine? "\"7\"" other = none) ∧
    ∃ m₁ m₂, exec ⟨true, false⟩ 0 (.read "x" ⟨1, 1⟩) m = .finished m₁ ∧
      exec ⟨true, false⟩ 0 (.read "x" ⟨1, 10⟩) m₁ = .finished m₂ ∧
      m₁.scopes.get? "x" = some ⟨.text "7", none⟩ ∧ m₂.scopes = m₁.scopes ∧ m₂.input = [] := by
  intro m
  have hvalue : Value.infer "\"7\"" = .text "7" := by decide +kernel
  have hfirst : Input.nextLine m.input = (some (.ok "\"7\""), Input.encode "\"7\"".toList) := by decide +kernel
  have hsecond : Input.nextLine (Input.encode "\"7\"".toList) = (some (.ok "\"7\""), []) := by decide +kernel
  obtain ⟨⟨t, before, behind, htype, -, hcandidates, hbefore⟩, hread⟩ := read_repeated "\"7\""
  obtain ⟨m₁, m₂, hrun, hagain, hbound, hsame, -, hleft⟩ :=
    hread ⟨true, false⟩ 0 "x" ⟨1, 1⟩ ⟨1, 10⟩ m _ _ rfl (.inl rfl) hfirst hsecond
  rw [hvalue] at htype hbound
  cases htype
  exact ⟨rfl, hvalue, ⟨before, behind, hcandidates, hbefore⟩, m₁, m₂, hrun, hagain, hbound, hsame, hleft⟩

end Statement
end Portugol
