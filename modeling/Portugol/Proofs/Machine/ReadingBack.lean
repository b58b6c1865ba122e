import Portugol.Proofs.Machine.Inference
import Portugol.Proofs.Machine.Numerals
import Portugol.Proofs.Machine.SuccessiveLines

/-! # Reading what was written

A value is written as a line: its text, and a line feed. Of whole numbers and truth values this line is read as the
value that was written, by a variable of the type. A text comes back only if reading takes nothing off it: it must be
one line, without a carriage return at its end, and without a quote at either end (`Statement.read_written`). -/
namespace Portugol

/-! ## The line that is written -/

theorem Output.bytes_eq (text : String) : Output.bytes text = (Input.encode text.toList).toArray :=
  congrArg ByteArray.data (Input.toByteArray_eq text)

theorem Output.written_of_write {o o' : Output} {text : String} (h : o.write text = (o', none)) :
    o'.written = o.written ++ Output.bytes text := by
  simp only [write] at h
  split at h
  · cases h
    rfl
  · split at h
    · cases h
      rfl
    · cases h

namespace Machine

variable {texts : List String} {m m' : Machine}

/-- Texts that are all written stand one behind the other. -/
theorem written_of_print (h : m.print texts = .finished m') :
    m'.output.written = m.output.written ++ (Input.encode (texts.flatMap String.toList)).toArray := by
  induction texts generalizing m with
  | nil =>
    cases h
    exact Array.append_empty.symm
  | cons text rest ih =>
    rw [print] at h
    split at h
    · next output hwrite =>
      rw [ih h, Output.written_of_write hwrite, Output.bytes_eq, List.flatMap_cons, Input.encode_append,
        Array.append_assoc, ← List.append_toArray]
    · cases h

theorem exists_print (h : m.output.room = none) (texts : List String) : ∃ m', m.print texts = .finished m' := by
  induction texts generalizing m with
  | nil => exact ⟨m, rfl⟩
  | cons text rest ih =>
    have hwrite : m.output.write text = ({ m.output with written := m.output.written ++ Output.bytes text }, none) := by
      simp only [Output.write, h]
    rw [print, hwrite]
    exact ih h

end Machine

/-! ## The text without what is taken off -/

namespace Text

variable {d : Char} {text : List Char}

theorem dropWhile_eq_self_iff : text.dropWhile (· = d) = text ↔ text.head? ≠ some d := by
  rw [List.dropWhile_eq_self_iff]
  cases text <;> simp

theorem rdropWhile_eq_self_iff : text.rdropWhile (· = d) = text ↔ text.getLast? ≠ some d := by
  rw [List.rdropWhile_eq_self_iff]
  cases text using List.reverseRecOn <;> simp

theorem strip_infix (p : Char → Bool) (text : List Char) : strip p text <:+: text :=
  (List.rdropWhile_prefix p _).isInfix.trans (List.dropWhile_suffix p).isInfix

/-- Nothing is taken off a text just when neither of its ends is to be taken off. -/
theorem strip_eq_self_iff : strip (· = d) text = text ↔ text.head? ≠ some d ∧ text.getLast? ≠ some d := by
  rw [← dropWhile_eq_self_iff, ← rdropWhile_eq_self_iff]
  change (text.dropWhile (· = d)).rdropWhile (· = d) = text ↔ _
  constructor
  · intro h
    have hdrop : text.dropWhile (· = d) = text := by
      refine (List.dropWhile_suffix _).eq_of_length_le ?_
      have hlength := (List.rdropWhile_prefix (· = d) (text.dropWhile (· = d))).length_le
      rwa [h] at hlength
    rw [hdrop] at h
    exact ⟨hdrop, h⟩
  · rintro ⟨hdrop, hrdrop⟩
    rw [hdrop, hrdrop]

end Text

/-! ## The line that is read -/

/-- Bytes that are read as a value of a type: whatever comes behind them, and whatever the variable held, reading them
into a variable that was declared with the type makes this its value. -/
def Input.ReadAs (bytes : List UInt8) (type : DataType) (v : Value) : Prop :=
  ∀ o fuel x p b more (m : Machine), m.scopes.get? x = some b → b.declared = some type → m.input = bytes ++ more →
    ∃ m', (Statement.read x p).exec o fuel m = .finished m' ∧ m'.scopes.get? x = some { b with value := v }

theorem Input.readAs_of_ofLine? {line rest : List Char} {type : DataType} {v : Value} (hline : '\n' ∉ line)
    (hv : Value.ofLine? (String.ofList (line.rdropWhile (· = '\r'))) type = some v) :
    ReadAs (encode (line ++ '\n' :: rest)) type v := by
  intro o fuel x p b more m hx hdeclared hinput
  have hfirst : nextLine m.input = (some (.ok (String.ofList (line.rdropWhile (· = '\r')))), encode rest ++ more) := by
    rw [hinput, ← nextLine_encode hline, encode_append, List.append_assoc]
    rfl
  have hwanted : Statement.wanted b = some type := by
    rw [Statement.wanted, hdeclared]
    rfl
  obtain ⟨m', hread, hscopes, -⟩ :=
    Statement.receive_wanted (o := o) (p := p) (m := { m with input := encode rest ++ more }) hx hwanted hv
  refine ⟨m', ?_, ?_⟩
  · rw [Statement.exec_read_line hfirst, hread]
  · rw [hscopes]
    exact Scopes.get?_assign v hx

/-- A line without blanks is read as it is. -/
theorem Input.readAs_of_not_isBlank {line : List Char} {type : DataType} {v : Value}
    (hline : ∀ c ∈ line, Text.isBlank c = false) (hv : Value.ofLine? (String.ofList line) type = some v) :
    ReadAs (encode (line ++ ['\n'])) type v := by
  have hne {c d : Char} (hc : c ∈ line) (hd : Text.isBlank d) : c ≠ d := (Text.ne_of_isBlank hd (hline c hc)).symm
  refine readAs_of_ofLine? (fun hmem => hne hmem (by decide) rfl) ?_
  have hend : line.rdropWhile (· = '\r') = line := by
    rw [List.rdropWhile_eq_self_iff]
    intro hnil
    simpa using hne (List.getLast_mem hnil) (d := '\r') (by decide)
  rw [hend, hv]

/-- A word is written as a line that shows it. -/
theorem Integer.exists_render (n : Int64) : ∃ sign,
    Signed (Decimal.placeValue (Nat.toDigits 10 n.toInt.natAbs)) sign n.toInt ∧
      render n = String.ofList (sign ++ Nat.toDigits 10 n.toInt.natAbs) := by
  have hvalue (k : Nat) : Decimal.placeValue (Nat.toDigits 10 k) = k := by
    rw [← Decimal.ofDigitChars_eq_placeValue, Nat.ofDigitChars_ten_toDigits]
  rw [render, hvalue]
  cases n.toInt with
  | ofNat k => exact ⟨[], .unsigned, rfl⟩
  | negSucc k =>
    refine ⟨['-'], .minus, ?_⟩
    rw [String.ofList_append]
    rfl

theorem Integer.readAs_render (n : Int64) :
    Input.ReadAs (Input.encode ((render n).toList ++ ['\n'])) .integer (.integer n) := by
  obtain ⟨sign, hsign, hrender⟩ := exists_render n
  have hdigits : ∀ d ∈ Nat.toDigits 10 n.toInt.natAbs, d.isDigit :=
    fun d hd => Nat.isDigit_of_mem_toDigits (by decide) (by decide) hd
  have hshows : Shows (Nat.toDigits 10 n.toInt.natAbs) n.toInt (render n) := by
    rw [hrender]
    simpa using @Shows.line _ [] sign [] _ nofun hsign nofun
  refine Input.readAs_of_not_isBlank ?_ ?_
  · rw [hrender, String.toList_ofList]
    exact hsign.not_isBlank_append hdigits
  · rw [String.ofList_toList, hshows.ofLine?_eq Nat.toDigits_ne_nil hdigits, fit?_eq_some_iff.2 rfl, Option.map_some]

theorem Value.readAs_truthWord (b : Bool) :
    Input.ReadAs (Input.encode ((truthWord b).toList ++ ['\n'])) .boolean (.boolean b) := by
  have hword : (truthWord b).toList.all fun c => Text.isBlank c = false := by
    cases b <;> decide
  refine Input.readAs_of_not_isBlank (fun c hc => of_decide_eq_true (List.all_eq_true.1 hword c hc)) ?_
  cases b <;> decide +kernel

/-- Of a text there comes back its first line, without the carriage returns at its end and then without the quotes at
both, which is the whole text only if none of it is gone. -/
theorem Value.exists_readAs_text (s : String) : ∃ t : String,
    Input.ReadAs (Input.encode (s.toList ++ ['\n'])) .text (.text t) ∧
      (t = s ↔ '\n' ∉ s.toList ∧ s.toList.getLast? ≠ some '\r' ∧
        s.toList.head? ≠ some '"' ∧ s.toList.getLast? ≠ some '"') := by
  obtain ⟨line, rest, hsplit, hline⟩ :=
    List.eq_append_cons_of_mem (List.mem_append_right s.toList (List.mem_singleton.2 (rfl : '\n' = '\n')))
  have hread : ofLine? (String.ofList (line.rdropWhile (· = '\r'))) .text = some (.text _) := rfl
  refine ⟨_, hsplit ▸ Input.readAs_of_ofLine? hline hread, ?_⟩
  rw [unquoted, String.toList_ofList, ← String.toList_inj, String.toList_ofList]
  have hwhole (h : '\n' ∉ s.toList) : line = s.toList :=
    ((List.append_cons_inj_of_notMem h List.not_mem_nil).1 hsplit).1.symm
  have hwithin := Text.strip_infix (· = '"') (line.rdropWhile (· = '\r'))
  constructor
  · intro h
    rw [h] at hwithin
    have hmem : '\n' ∉ s.toList := fun hmem => hline ((List.rdropWhile_prefix _ _).subset (hwithin.subset hmem))
    rw [hwhole hmem] at h hwithin
    have hend : s.toList.rdropWhile (· = '\r') = s.toList :=
      (List.rdropWhile_prefix _ _).eq_of_length_le hwithin.length_le
    rw [hend] at h
    exact ⟨hmem, Text.rdropWhile_eq_self_iff.1 hend, Text.strip_eq_self_iff.1 h⟩
  · rintro ⟨hmem, hreturn, hquotes⟩
    rw [hwhole hmem, Text.rdropWhile_eq_self_iff.2 hreturn, Text.strip_eq_self_iff.2 hquotes]

namespace Statement

variable {m m' : Machine} {e : Expr} {v : Value}

theorem exec_write (he : e.eval m.scopes = .ok v) (o : Options) (fuel : Nat) (p : Position) :
    exec o fuel (.write [e] p) m =
      match m.print [v.render, "\n"] with
      | .finished m => .finished (m.report o ("escrita: " ++ toString 1 ++ " valor(es)"))
      | other => other := by
  have hvalues : values m.scopes [e] = .ok [v] := by simp only [values, he]; rfl
  rw [exec, output, hvalues]
  rfl

/-- A value is written as one line: its text and a line feed. -/
theorem written_of_write (he : e.eval m.scopes = .ok v) {o : Options} {fuel : Nat} {p : Position}
    (h : exec o fuel (.write [e] p) m = .finished m') :
    m'.output.written = m.output.written ++ (Input.encode (v.render.toList ++ ['\n'])).toArray := by
  rw [exec_write he] at h
  split at h
  · next m₁ hprint =>
    cases h
    rw [Machine.output_report, Machine.written_of_print hprint]
    rfl
  · next hother => exact absurd h (hother m')

theorem exists_write (he : e.eval m.scopes = .ok v) (hroom : m.output.room = none) (o : Options) (fuel : Nat)
    (p : Position) : ∃ m', exec o fuel (.write [e] p) m = .finished m' := by
  obtain ⟨m₁, hprint⟩ := Machine.exists_print hroom [v.render, "\n"]
  rw [exec_write he, hprint]
  exact ⟨_, rfl⟩

/-- What is written of a whole number or a truth value is read as the same value by a variable of this type. Of a text
it is read as some text, which is the same exactly if it is one line, does not end in a carriage return, and neither
begins nor ends with a quote. -/
theorem read_written {m : Machine} {e : Expr} {v : Value} (he : e.eval m.scopes = .ok v) (o : Options) (fuel : Nat)
    (p : Position) :
    (m.output.room = none → ∃ m', exec o fuel (.write [e] p) m = .finished m') ∧
    ∃ bytes : List UInt8,
      (∀ m', exec o fuel (.write [e] p) m = .finished m' →
        m'.output.written = m.output.written ++ bytes.toArray) ∧
      (∀ n, v = .integer n → Input.ReadAs bytes .integer v) ∧
      (∀ b, v = .boolean b → Input.ReadAs bytes .boolean v) ∧
      ∀ s, v = .text s → ∃ t, Input.ReadAs bytes .text (.text t) ∧
        (t = s ↔ '\n' ∉ s.toList ∧ s.toList.getLast? ≠ some '\r' ∧
          s.toList.head? ≠ some '"' ∧ s.toList.getLast? ≠ some '"') := by
  refine ⟨fun hroom => exists_write he hroom o fuel p, _, fun m' h => written_of_write he h, ?_, ?_, ?_⟩
  · rintro n rfl
    exact Integer.readAs_render n
  · rintro b rfl
    exact Value.readAs_truthWord b
  · rintro s rfl
    exact Value.exists_readAs_text s

/-- The least word, which a program cannot name but compute, and a text that is all quotes: the one comes back, the
other does not. -/
theorem read_written_least :
    let m : Machine := .start [] none
    let least : Expr := .binary (.unary .negate (.literal (.integer Int64.maxValue) ⟨1, 10⟩) ⟨1, 9⟩)
      (.arithmetic .subtract) (.literal (.integer 1) ⟨1, 32⟩) ⟨1, 30⟩
    let quotes : Expr := .literal (.text "\"\"") ⟨1, 9⟩
    least.eval m.scopes = .ok (.integer Int64.minValue) ∧ quotes.eval m.scopes = .ok (.text "\"\"") ∧
    (∃ m' bytes, exec ⟨false, false⟩ 0 (.write [least] ⟨1, 1⟩) m = .finished m' ∧ m'.output.written = bytes.toArray ∧
      Input.ReadAs bytes .integer (.integer Int64.minValue)) ∧
    ∃ m' bytes t, exec ⟨false, false⟩ 0 (.write [quotes] ⟨1, 1⟩) m = .finished m' ∧ m'.output.written = bytes.toArray ∧
      Input.ReadAs bytes .text (.text t) ∧ t ≠ "\"\"" := by
  intro m least quotes
  have hleast : least.eval m.scopes = .ok (.integer Int64.minValue) := rfl
  have hquotes : quotes.eval m.scopes = .ok (.text "\"\"") := rfl
  obtain ⟨hfinishes, bytes, hwritten, hinteger, -, -⟩ := read_written hleast ⟨false, false⟩ 0 ⟨1, 1⟩
  obtain ⟨hfinishes', bytes', hwritten', -, -, htext⟩ := read_written hquotes ⟨false, false⟩ 0 ⟨1, 1⟩
  obtain ⟨m₁, hrun⟩ := hfinishes rfl
  obtain ⟨m₂, hrun'⟩ := hfinishes' rfl
  obtain ⟨t, hread, hsame⟩ := htext _ rfl
  refine ⟨hleast, hquotes, ⟨m₁, bytes, hrun, ?_, hinteger _ rfl⟩, m₂, bytes', t, hrun', ?_, hread, ?_⟩
  · rw [hwritten m₁ hrun]
    exact Array.empty_append
  · rw [hwritten' m₂ hrun']
    exact Array.empty_append
  · rw [Ne, hsame]
    decide

end Statement
end Portugol
