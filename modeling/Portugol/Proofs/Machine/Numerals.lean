import Mathlib.Data.Nat.Digits.Defs
import Portugol.Proofs.Machine.Steps
import Portugol.Proofs.Token.Accounts
import Portugol.Proofs.Token.Spelling

/-! # Whole numbers in programs and in input

Digits have a value by their places, however many they are. In a program they are a whole number if this value is at
most the greatest word, and a malformed number otherwise; a sign in front of them is no part of them there. In a line
of input there may be a sign, and blanks around it all: then the line is a whole number exactly if the signed value
is a word, so that the least word can be read although it cannot be written in a program (`read_digits`). -/
namespace Portugol

def Decimal.placeValue (digits : List Char) : Nat :=
  Nat.ofDigits 10 (digits.reverse.map fun d => d.toNat - '0'.toNat)

theorem Decimal.ofDigitChars_eq_placeValue (digits : List Char) : Nat.ofDigitChars 10 digits 0 = placeValue digits := by
  induction digits using List.reverseRecOn with
  | nil => rfl
  | append_singleton digits d ih =>
    rw [placeValue, List.reverse_append, List.reverse_singleton, List.singleton_append, List.map_cons,
      Nat.ofDigits_cons, ← placeValue, ← ih, Nat.ofDigitChars_append, Nat.ofDigitChars_cons, Nat.ofDigitChars_nil,
      Nat.add_comm]

/-- A sign in front of a number, if there is one, and the number that both are. -/
inductive Signed (n : Nat) : List Char → Int → Prop where
  | unsigned : Signed n [] n
  | plus : Signed n ['+'] n
  | minus : Signed n ['-'] (-n)

theorem Signed.not_isBlank {n : Nat} {sign : List Char} {z : Int} (h : Signed n sign z) :
    ∀ c ∈ sign, Text.isBlank c = false := by
  cases h with
  | unsigned => nofun
  | plus | minus => exact List.forall_mem_singleton.2 rfl

/-- There is no blank in a number with its sign. -/
theorem Signed.not_isBlank_append {n : Nat} {sign digits : List Char} {z : Int} (h : Signed n sign z)
    (hdigits : ∀ d ∈ digits, d.isDigit) : ∀ c ∈ sign ++ digits, Text.isBlank c = false := by
  intro c hc
  rcases List.mem_append.1 hc with hc | hc
  · exact h.not_isBlank c hc
  · rw [Bool.eq_false_iff]
    intro hblank
    have hdigit := hdigits c hc
    rw [Piece.not_isDigit_of_isBlank hblank] at hdigit
    cases hdigit

/-- A line of input that shows a number: digits, a sign in front of them, and blanks around both. -/
inductive Shows (digits : List Char) : Int → String → Prop where
  | line {before sign behind z} (hbefore : ∀ c ∈ before, Text.isBlank c)
      (hsign : Signed (Decimal.placeValue digits) sign z) (hbehind : ∀ c ∈ behind, Text.isBlank c) :
      Shows digits z (String.ofList (before ++ (sign ++ digits) ++ behind))

/-! ## Words -/

namespace Integer

variable {z : Int}

theorem exists_fit? (h : -2 ^ 63 ≤ z ∧ z ≤ 2 ^ 63 - 1) : ∃ n : Int64, n.toInt = z ∧ fit? z = some n := by
  have hfit : fit? z = some (Int64.ofInt z) := if_pos h
  exact ⟨_, fit?_eq_some_iff.1 hfit, hfit⟩

theorem fit?_eq_none (h : ¬ (-2 ^ 63 ≤ z ∧ z ≤ 2 ^ 63 - 1)) : fit? z = none := if_neg h

end Integer

/-! ## Numbers in a program -/

/-- Digits in front of what is neither a digit nor a point are reported alone, and what is behind them after them. -/
theorem scan_digits {digits rest : List Char} (hne : digits ≠ []) (hdigits : ∀ d ∈ digits, d.isDigit)
    (hrest : ∀ c ∈ rest.head?, c.isDigit = false ∧ c ≠ '.') :
    scan (String.ofList (digits ++ rest)) =
      (match Integer.fit? (Decimal.placeValue digits) with
        | some n => .token ⟨.integer n, String.ofList digits, .start⟩
        | none => .error ⟨.malformedNumber (String.ofList digits), .start⟩) ::
      Report.ofPieces (.behind digits) (pieces rest) := by
  obtain ⟨c, digits, rfl⟩ := List.exists_cons_of_ne_nil hne
  obtain ⟨hc, hbody⟩ := List.forall_mem_cons.1 hdigits
  have hmunch := Piece.number_digits c hbody hrest
  rw [← Piece.munch_eq_number hc, Decimal.ofDigitChars_eq_placeValue] at hmunch
  rw [scan, String.toList_ofList, List.cons_append, Piece.pieces_munched hmunch, Report.ofPieces, Position.after_start]
  cases Integer.fit? (Decimal.placeValue (c :: digits)) <;> rfl

/-! ## Numbers in a line of input -/

section Lines

variable {digits : List Char} (hne : digits ≠ []) (hdigits : ∀ d ∈ digits, d.isDigit)
include hne hdigits

theorem Decimal.readNat_digits : readNat digits = some (placeValue digits) := by
  rw [readNat, if_pos ⟨hne, List.all_eq_true.2 hdigits⟩, ofDigitChars_eq_placeValue]

theorem Decimal.readInt_signed {sign : List Char} {z : Int} (h : Signed (placeValue digits) sign z) :
    readInt (sign ++ digits) = some z := by
  have hvalue := readNat_digits hne hdigits
  cases h with
  | unsigned =>
    obtain ⟨d, rest, rfl⟩ := List.exists_cons_of_ne_nil hne
    have hd := hdigits d (.head _)
    have hsign : takeSign (d :: rest) = (false, d :: rest) := by
      unfold takeSign
      split
      · next heq =>
        cases heq
        exact absurd hd (by decide)
      · next heq =>
        cases heq
        exact absurd hd (by decide)
      · rfl
    simp only [List.nil_append, readInt, hsign, hvalue]
    rfl
  | plus | minus =>
    simp only [List.singleton_append, readInt, takeSign, hvalue]
    rfl

theorem Shows.trim_eq {line : String} {z : Int} (h : Shows digits z line) :
    Decimal.readInt (Text.trim line).toList = some z := by
  obtain ⟨hbefore, hsign, hbehind⟩ := h
  rename_i before sign behind
  rw [Text.trim, String.toList_ofList, String.toList_ofList, Text.strip_append hbefore
    (hsign.not_isBlank_append hdigits) hbehind]
  exact Decimal.readInt_signed hne hdigits hsign

theorem Shows.ofLine?_eq {line : String} {z : Int} (h : Shows digits z line) :
    Value.ofLine? line .integer = (Integer.fit? z).map .integer := by
  rw [Value.ofLine?, Integer.read?, h.trim_eq hne hdigits, Option.bind_some]

end Lines

/-- A line without a wanted type is a whole number only if it is one where a whole number is wanted. -/
theorem Value.infer_eq_integer_iff {line : String} {n : Int64} :
    infer line = .integer n ↔ ofLine? line .integer = some (.integer n) := by
  rw [infer, ofLine?]
  cases Integer.read? (Text.trim line).toList with
  | some m => simp
  | none =>
    have hword : (if Text.trim line = "verdadeiro" then .boolean true
        else if Text.trim line = "falso" then .boolean false
        else .text (String.ofList (Text.strip (· = '"') line.toList)) : Value) ≠ .integer n := by
      split
      · simp
      split <;> simp
    simp only [Option.map_none, Option.none_or, reduceCtorEq, iff_false]
    by_cases hdigit : (Text.trim line).toList.any Char.isDigit
    · rw [if_pos hdigit]
      cases Decimal.readReal (Text.trim line).toList with
      | some x => simp
      | none =>
        rw [Option.map_none, Option.getD_none]
        exact hword
    · rw [if_neg hdigit, Option.getD_none]
      exact hword

/-- Digits are the same whole number in a program and in input, up to the greatest word; with a minus sign input goes
down to the least one. -/
theorem read_digits {digits : List Char} (hne : digits ≠ []) (hdigits : ∀ d ∈ digits, d.isDigit) :
    (∀ rest, (∀ c ∈ rest.head?, c.isDigit = false ∧ c ≠ '.') →
      (Decimal.placeValue digits ≤ 2 ^ 63 - 1 → ∃ n : Int64, n.toInt = Decimal.placeValue digits ∧
        scan (String.ofList (digits ++ rest)) = .token ⟨.integer n, String.ofList digits, .start⟩ ::
          Report.ofPieces (.behind digits) (pieces rest)) ∧
      (2 ^ 63 - 1 < Decimal.placeValue digits →
        scan (String.ofList (digits ++ rest)) = .error ⟨.malformedNumber (String.ofList digits), .start⟩ ::
          Report.ofPieces (.behind digits) (pieces rest))) ∧
    ∀ line z, Shows digits z line →
      (-2 ^ 63 ≤ z ∧ z ≤ 2 ^ 63 - 1 → ∃ n : Int64, n.toInt = z ∧
        Value.ofLine? line .integer = some (.integer n) ∧ Value.infer line = .integer n) ∧
      (¬ (-2 ^ 63 ≤ z ∧ z ≤ 2 ^ 63 - 1) → Value.ofLine? line .integer = none ∧ (∀ n, Value.infer line ≠ .integer n) ∧
        ∀ o x p (m : Machine) binding, m.scopes.get? x = some binding → Statement.wanted binding = some .integer →
          Statement.receive o x p line m = .failed (.type (.read line .integer) p) m) := by
  refine ⟨fun rest hrest => ?_, fun line z h => ?_⟩
  · have hscan := scan_digits hne hdigits hrest
    refine ⟨fun hle => ?_, fun hlt => ?_⟩
    · obtain ⟨n, hn, hfit⟩ := Integer.exists_fit? (z := Decimal.placeValue digits) (by omega)
      rw [hfit] at hscan
      exact ⟨n, hn, hscan⟩
    · rwa [Integer.fit?_eq_none (by omega)] at hscan
  · have hline := h.ofLine?_eq hne hdigits
    refine ⟨fun hword => ?_, fun hword => ?_⟩
    · obtain ⟨n, hn, hfit⟩ := Integer.exists_fit? hword
      rw [hfit, Option.map_some] at hline
      exact ⟨n, hn, hline, Value.infer_eq_integer_iff.2 hline⟩
    · rw [Integer.fit?_eq_none hword, Option.map_none] at hline
      refine ⟨hline, fun n hn => ?_, fun o x p m binding hx hwanted => ?_⟩
      · rw [Value.infer_eq_integer_iff, hline] at hn
        cases hn
      · simp only [Statement.receive, hx, hwanted, hline]

theorem placeValue_padded : Decimal.placeValue "009223372036854775808".toList = 2 ^ 63 := by
  decide

/-- One more than the greatest word, with zeros in front: malformed in a program, the least word behind a minus sign in
a line of input, and no whole number behind a plus sign, where it is refused by a variable of that type. -/
theorem read_digits_padded :
    let digits := "009223372036854775808".toList
    let m := (Machine.start [] none).declare "x" .undefined (some .integer)
    digits ≠ [] ∧ (∀ d ∈ digits, d.isDigit) ∧
    scan "009223372036854775808;" = [.error ⟨.malformedNumber "009223372036854775808", .start⟩,
      .token ⟨.symbol .semicolon, ";", ⟨1, 22⟩⟩, .finish ⟨1, 23⟩] ∧
    (Value.ofLine? "\t-009223372036854775808 " .integer = some (.integer Int64.minValue) ∧
      Value.infer "\t-009223372036854775808 " = .integer Int64.minValue) ∧
    Value.ofLine? "+009223372036854775808" .integer = none ∧
    (∀ n, Value.infer "+009223372036854775808" ≠ .integer n) ∧
    ∀ o p, Statement.receive o "x" p "+009223372036854775808" m =
      .failed (.type (.read "+009223372036854775808" .integer) p) m := by
  intro digits m
  have hne : digits ≠ [] := by decide
  have hdigits : ∀ d ∈ digits, d.isDigit := List.all_eq_true.1 (by decide)
  have hvalue : Decimal.placeValue digits = 2 ^ 63 := placeValue_padded
  obtain ⟨hscan, hread⟩ := read_digits hne hdigits
  have hrest : ∀ c ∈ [';'].head?, c.isDigit = false ∧ c ≠ '.' := by
    rintro _ ⟨⟩
    decide
  have hsource : String.ofList (digits ++ [';']) = "009223372036854775808;" := by decide
  have hsemicolon : Report.ofPieces (.behind digits) (pieces [';']) =
      [.token ⟨.symbol .semicolon, ";", ⟨1, 22⟩⟩, .finish ⟨1, 23⟩] := by
    decide +kernel
  have hmalformed := (hscan _ hrest).2 (by omega)
  rw [hsource, hsemicolon, String.ofList_toList] at hmalformed
  have hminus : Signed (Decimal.placeValue digits) ['-'] (-(2 ^ 63 : Nat)) := hvalue ▸ .minus
  have hplus : Signed (Decimal.placeValue digits) ['+'] (2 ^ 63 : Nat) := hvalue ▸ .plus
  have hleast : Shows digits (-(2 ^ 63 : Nat)) "\t-009223372036854775808 " :=
    @Shows.line digits ['\t'] ['-'] [' '] _ (List.all_eq_true.1 rfl) hminus (List.all_eq_true.1 rfl)
  have hbeyond : Shows digits (2 ^ 63 : Nat) "+009223372036854775808" :=
    @Shows.line digits [] ['+'] [] _ nofun hplus nofun
  obtain ⟨n, hn, hline, hinfer⟩ := (hread _ _ hleast).1 (by omega)
  obtain ⟨hnone, hnever, hfailed⟩ := (hread _ _ hbeyond).2 (by omega)
  obtain rfl : n = Int64.minValue := Int64.toInt_inj.1 hn
  exact ⟨hne, hdigits, hmalformed, ⟨hline, hinfer⟩, hnone, hnever, fun o p => hfailed o "x" p m _ rfl rfl⟩

end Portugol
