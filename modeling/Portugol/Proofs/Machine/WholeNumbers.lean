import Mathlib.Data.Int.Basic
import Portugol.Machine.Evaluation

/-! # Expressions of whole numbers

An expression of whole numbers, variables that hold whole numbers, groups, minus signs and arithmetic operators has an
exact value among the integers, unless a divisor is zero. Quotients are taken toward zero, and a remainder is what the
quotient leaves. Evaluation gives the exact value if it and those of all subexpressions are words, except that the least
word has no remainder by minus one. Otherwise it fails, at the first operator whose result is at fault: operands come
before their operator, and the left one before the right one (`Expr.eval_exactly`). -/
namespace Portugol

def ArithmeticOp.exactResult? (op : ArithmeticOp) (a b : Int) : Option Int :=
  match op with
  | .add => some (a + b)
  | .subtract => some (a - b)
  | .multiply => some (a * b)
  | .divide => if b = 0 then none else some (a.tdiv b)
  | .modulo => if b = 0 then none else some (a - a.tdiv b * b)

def Value.whole? : Value → Option Int
  | .integer n => some n.toInt
  | .undefined | .real _ | .boolean _ | .text _ => none

namespace Expr

/-- Only whole numbers, variables that hold some, groups, minus signs and arithmetic operators. -/
def OnWholeNumbers (scopes : Scopes) : Expr → Prop
  | .literal value _ => ∃ n, value = .integer n
  | .name x _ => ∃ n declared, scopes.get? x = some ⟨.integer n, declared⟩
  | .group inner => inner.OnWholeNumbers scopes
  | .unary op operand _ => op = .negate ∧ operand.OnWholeNumbers scopes
  | .binary lhs op rhs _ =>
    (∃ operation, op = .arithmetic operation) ∧ lhs.OnWholeNumbers scopes ∧ rhs.OnWholeNumbers scopes

def exactValue? (scopes : Scopes) : Expr → Option Int
  | .literal value _ => value.whole?
  | .name x _ => (scopes.get? x).bind fun binding => binding.value.whole?
  | .group inner => inner.exactValue? scopes
  | .unary .negate operand _ => (operand.exactValue? scopes).map fun a => -a
  | .binary lhs (.arithmetic op) rhs _ =>
    match lhs.exactValue? scopes, rhs.exactValue? scopes with
    | some a, some b => op.exactResult? a b
    | _, _ => none
  | .unary .not .. | .binary .. => none

/-- An expression and all that is in it, in the order of evaluation: operands first, from left to right. -/
def inOrder : Expr → List Expr
  | .literal value p => [.literal value p]
  | .name x p => [.name x p]
  | .group inner => inner.inOrder ++ [.group inner]
  | .unary op operand p => operand.inOrder ++ [.unary op operand p]
  | .binary lhs op rhs p => lhs.inOrder ++ (rhs.inOrder ++ [.binary lhs op rhs p])

def IsOperation : Expr → Prop
  | .unary .. | .binary .. => True
  | .literal .. | .name .. | .group _ => False

/-- Whether it is the remainder of the least word by minus one, which is refused although it is a word. -/
def IsRefusedRemainder (scopes : Scopes) : Expr → Prop
  | .binary lhs (.arithmetic .modulo) rhs _ =>
    lhs.exactValue? scopes = some Int64.minValue.toInt ∧ rhs.exactValue? scopes = some (-1)
  | _ => False

def Fits (scopes : Scopes) (e : Expr) : Prop :=
  (∃ n, e.exactValue? scopes = some n ∧ Int64.minValue.toInt ≤ n ∧ n ≤ Int64.maxValue.toInt) ∧
    ¬ e.IsRefusedRemainder scopes

end Expr

/-! ## Operators on words -/

namespace Integer

theorem div?_eq_some_iff {a b q : Int64} : div? a b = some q ↔ b ≠ 0 ∧ q.toInt = a.toInt.tdiv b.toInt := by
  rw [div?]
  by_cases hb : b = 0 <;> simp [hb, fit?_eq_some_iff]

/-- There is a quotient of words unless the divisor is zero or the least word is divided by minus one. -/
theorem exists_div?_iff {a b : Int64} : (∃ q, div? a b = some q) ↔ b ≠ 0 ∧ ¬ (a = Int64.minValue ∧ b = -1) := by
  simp only [div?_eq_some_iff, exists_and_left, and_congr_right_iff]
  intro hb
  constructor
  · rintro ⟨q, hq⟩ ⟨rfl, rfl⟩
    have hle := q.toInt_le
    rw [hq] at hle
    exact absurd hle (by decide)
  · intro h
    by_cases ha : a = Int64.minValue
    · exact ⟨a / b, Int64.toInt_div_of_ne_right a b fun hb => h ⟨ha, hb⟩⟩
    · exact ⟨a / b, Int64.toInt_div_of_ne_left a b ha⟩

/-- The remainder of words is there along with the quotient. -/
theorem mod?_eq_some_iff {a b r : Int64} :
    mod? a b = some r ↔ b ≠ 0 ∧ ¬ (a = Int64.minValue ∧ b = -1) ∧ r.toInt = a.toInt.tmod b.toInt := by
  rw [mod?, ← and_assoc, ← exists_div?_iff]
  cases div? a b with
  | none => simp
  | some q => simp [fit?_eq_some_iff]

end Integer

namespace ArithmeticOp

/-- On words an operator has the exact result if that is a word, but there is no remainder of the least word by minus
one. -/
theorem onIntegers_eq_some_iff {op : ArithmeticOp} {a b n : Int64} :
    op.onIntegers a b = some n ↔
      op.exactResult? a.toInt b.toInt = some n.toInt ∧ ¬ (op = .modulo ∧ a = Int64.minValue ∧ b = -1) := by
  have hzero : b.toInt = 0 ↔ b = 0 := by rw [← Int64.toInt_zero, Int64.toInt_inj]
  cases op with
  | add =>
    rw [onIntegers, Integer.add?, Integer.fit?_eq_some_iff]
    simp [exactResult?, eq_comm]
  | subtract =>
    rw [onIntegers, Integer.sub?, Integer.fit?_eq_some_iff]
    simp [exactResult?, eq_comm]
  | multiply =>
    rw [onIntegers, Integer.mul?, Integer.fit?_eq_some_iff]
    simp [exactResult?, eq_comm]
  | divide =>
    rw [onIntegers, Integer.div?_eq_some_iff]
    by_cases hb : b = 0 <;> simp [exactResult?, hzero, hb, eq_comm]
  | modulo =>
    have hmod : a.toInt.tmod b.toInt = a.toInt - a.toInt.tdiv b.toInt * b.toInt := by
      rw [Int.tmod_def, Int.mul_comm]
    rw [onIntegers, Integer.mod?_eq_some_iff, hmod]
    by_cases hb : b = 0 <;> simp [exactResult?, hzero, hb, eq_comm, and_comm]

/-- On two whole numbers an operator gives a whole number, or it fails at its own place. -/
theorem apply_integers (op : ArithmeticOp) (a b : Int64) (p : Position) :
    (∃ n, op.onIntegers a b = some n ∧ op.apply (.integer a) (.integer b) p = .ok (.integer n)) ∨
      op.onIntegers a b = none ∧ ∃ fault, op.apply (.integer a) (.integer b) p = .error (.arithmetic fault p) := by
  rw [apply]
  cases hfault : if b = 0 then op.zeroFault? else none with
  | some fault =>
    have hb : b = 0 := by
      by_contra hb
      rw [if_neg hb] at hfault
      cases hfault
    subst hb
    refine .inr ⟨?_, fault, rfl⟩
    cases op with
    | add | subtract | multiply => cases hfault
    | divide | modulo => rfl
  | none =>
    cases hn : op.onIntegers a b with
    | some n => exact .inl ⟨n, rfl, rfl⟩
    | none => exact .inr ⟨rfl, _, rfl⟩

end ArithmeticOp

/-! ## Evaluation -/

namespace Expr

variable {scopes : Scopes}

theorem fits_iff {e : Expr} :
    e.Fits scopes ↔ (∃ n : Int64, e.exactValue? scopes = some n.toInt) ∧ ¬ e.IsRefusedRemainder scopes := by
  refine and_congr_left fun _ => ⟨?_, ?_⟩
  · rintro ⟨n, hn, hle, hge⟩
    have hword : (Int64.ofInt n).toInt = n := Int64.toInt_ofInt_of_le hle (Int.lt_add_one_of_le hge)
    exact ⟨Int64.ofInt n, hword.symm ▸ hn⟩
  · rintro ⟨n, hn⟩
    exact ⟨n.toInt, hn, n.minValue_le_toInt, n.toInt_le⟩

/-- The exact value is a word and is what evaluation gives, and so it is with everything inside. -/
structure Succeeds (scopes : Scopes) (e : Expr) (n : Int64) : Prop where
  eval_eq : e.eval scopes = .ok (.integer n)
  exactValue?_eq : e.exactValue? scopes = some n.toInt
  fits : ∀ s ∈ e.inOrder, s.Fits scopes

/-- The first thing inside that does not fit is an operation, and there evaluation fails. -/
def Fails (scopes : Scopes) (e : Expr) : Prop :=
  ∃ before s after fault, e.inOrder = before ++ s :: after ∧ (∀ t ∈ before, t.Fits scopes) ∧ ¬ s.Fits scopes ∧
    s.IsOperation ∧ e.eval scopes = .error (.arithmetic fault s.position)

/-- An expression fails with one of its operands if what is evaluated before that fits. -/
theorem Fails.of_operand {e operand : Expr} (h : operand.Fails scopes) (before : List Expr) {after : List Expr}
    (horder : e.inOrder = before ++ (operand.inOrder ++ after)) (hbefore : ∀ t ∈ before, t.Fits scopes)
    (heval : ∀ error, operand.eval scopes = .error error → e.eval scopes = .error error) : e.Fails scopes := by
  obtain ⟨before', s, after', fault, horder', hbefore', hs, hop, herror⟩ := h
  refine ⟨before ++ before', s, after' ++ after, fault, ?_, ?_, hs, hop, heval _ herror⟩
  · rw [horder, horder']
    simp
  · exact List.forall_mem_append.2 ⟨hbefore, hbefore'⟩

/-- An operation whose operands fit succeeds if it fits itself, and otherwise it is the first that does not. -/
theorem succeeds_or_fails_of_operands {e : Expr} (hop : e.IsOperation) {operands : List Expr}
    (horder : e.inOrder = operands ++ [e]) (hoperands : ∀ t ∈ operands, t.Fits scopes)
    (heval : (∃ n : Int64, e.eval scopes = .ok (.integer n) ∧ e.exactValue? scopes = some n.toInt ∧
        ¬ e.IsRefusedRemainder scopes) ∨
      ¬ e.Fits scopes ∧ ∃ fault, e.eval scopes = .error (.arithmetic fault e.position)) :
    (∃ n, e.Succeeds scopes n) ∨ e.Fails scopes := by
  obtain ⟨n, hok, hexact, hrefused⟩ | ⟨hfit, fault, herror⟩ := heval
  · refine .inl ⟨n, hok, hexact, ?_⟩
    rw [horder, List.forall_mem_append, List.forall_mem_singleton]
    exact ⟨hoperands, fits_iff.2 ⟨⟨n, hexact⟩, hrefused⟩⟩
  · exact .inr ⟨operands, e, [], fault, horder, hoperands, hfit, hop, herror⟩

theorem negate_succeeds_or_fails {operand : Expr} {a : Int64} (h : operand.Succeeds scopes a) (p : Position) :
    (∃ n, (unary .negate operand p).Succeeds scopes n) ∨ (unary .negate operand p).Fails scopes := by
  refine succeeds_or_fails_of_operands trivial rfl h.fits ?_
  have heval : (unary .negate operand p).eval scopes = UnaryOp.negate.apply (.integer a) p := by
    rw [eval, h.eval_eq]
  have hexact : (unary .negate operand p).exactValue? scopes = some (-a.toInt) := by
    rw [exactValue?, h.exactValue?_eq, Option.map_some]
  rw [heval, UnaryOp.apply]
  cases hn : Integer.neg? a with
  | some n => exact .inl ⟨n, rfl, by rw [hexact, Integer.fit?_eq_some_iff.1 hn], id⟩
  | none =>
    refine .inr ⟨fun hfits => ?_, _, rfl⟩
    obtain ⟨⟨n, hn'⟩, -⟩ := fits_iff.1 hfits
    rw [hexact, Option.some.injEq] at hn'
    rw [Integer.neg?, Integer.fit?_eq_some_iff.2 hn'.symm] at hn
    cases hn

theorem arithmetic_succeeds_or_fails {lhs rhs : Expr} {a b : Int64} (hl : lhs.Succeeds scopes a)
    (hr : rhs.Succeeds scopes b) (op : ArithmeticOp) (p : Position) :
    (∃ n, (binary lhs (.arithmetic op) rhs p).Succeeds scopes n) ∨
      (binary lhs (.arithmetic op) rhs p).Fails scopes := by
  refine succeeds_or_fails_of_operands trivial (List.append_assoc ..).symm
    (List.forall_mem_append.2 ⟨hl.fits, hr.fits⟩) ?_
  have heval : (binary lhs (.arithmetic op) rhs p).eval scopes = op.apply (.integer a) (.integer b) p := by
    simp only [eval, hl.eval_eq, hr.eval_eq, BinaryOp.apply, Value.joined?, ite_self]
  have hexact : (binary lhs (.arithmetic op) rhs p).exactValue? scopes = op.exactResult? a.toInt b.toInt := by
    simp only [exactValue?, hl.exactValue?_eq, hr.exactValue?_eq]
  have hrefused : (binary lhs (.arithmetic op) rhs p).IsRefusedRemainder scopes ↔
      op = .modulo ∧ a = Int64.minValue ∧ b = -1 := by
    have hone : b.toInt = -1 ↔ b = -1 := by
      rw [← Int64.toInt_inj]
      rfl
    cases op <;> simp only [IsRefusedRemainder, hl.exactValue?_eq, hr.exactValue?_eq, Option.some.injEq,
      Int64.toInt_inj, hone, true_and, reduceCtorEq, false_and]
  rw [heval, hexact, fits_iff, hexact, hrefused, ← exists_and_right]
  simp only [← ArithmeticOp.onIntegers_eq_some_iff]
  obtain ⟨n, hn, hok⟩ | ⟨hnone, hfault⟩ := op.apply_integers a b p
  · exact .inl ⟨n, hok, hn⟩
  · exact .inr ⟨by simp [hnone], hfault⟩

/-- The evaluation of an expression of whole numbers gives the exact value, or fails at the first operation that does
not fit. -/
theorem succeeds_or_fails {e : Expr} (h : e.OnWholeNumbers scopes) :
    (∃ n, e.Succeeds scopes n) ∨ e.Fails scopes := by
  induction e with
  | literal value p =>
    obtain ⟨n, rfl⟩ := h
    exact .inl ⟨n, rfl, rfl, List.forall_mem_singleton.2 (fits_iff.2 ⟨⟨n, rfl⟩, id⟩)⟩
  | name x p =>
    obtain ⟨n, declared, hx⟩ := h
    have hexact : (name x p).exactValue? scopes = some n.toInt := by
      rw [exactValue?, hx]
      rfl
    refine .inl ⟨n, ?_, hexact, List.forall_mem_singleton.2 (fits_iff.2 ⟨⟨n, hexact⟩, id⟩)⟩
    rw [eval, hx]
  | group inner ih =>
    obtain ⟨n, hn⟩ | hfails := ih h
    · refine .inl ⟨n, hn.eval_eq, hn.exactValue?_eq, List.forall_mem_append.2 ⟨hn.fits, ?_⟩⟩
      exact List.forall_mem_singleton.2 (fits_iff.2 ⟨⟨n, hn.exactValue?_eq⟩, id⟩)
    · exact .inr (hfails.of_operand [] rfl nofun fun error herror => herror)
  | unary op operand p ih =>
    obtain ⟨rfl, hoperand⟩ := h
    obtain ⟨a, ha⟩ | hfails := ih hoperand
    · exact negate_succeeds_or_fails ha p
    · refine .inr (hfails.of_operand [] rfl nofun fun error herror => ?_)
      rw [eval, herror]
  | binary lhs op rhs p ihl ihr =>
    obtain ⟨⟨operation, rfl⟩, hlhs, hrhs⟩ := h
    obtain ⟨a, ha⟩ | hfails := ihl hlhs
    · obtain ⟨b, hb⟩ | hfails := ihr hrhs
      · exact arithmetic_succeeds_or_fails ha hb operation p
      · refine .inr (hfails.of_operand _ rfl ha.fits fun error herror => ?_)
        simp only [eval, ha.eval_eq, herror]
    · refine .inr (hfails.of_operand [] rfl nofun fun error herror => ?_)
      rw [eval, herror]

/-- An expression of whole numbers has a value if and only if everything inside fits, and this is the exact value.
Otherwise evaluation fails at the first operation that does not fit. -/
theorem eval_exactly {e : Expr} (h : e.OnWholeNumbers scopes) :
    (∀ n : Int64, e.eval scopes = .ok (.integer n) ↔
      (∀ s ∈ e.inOrder, s.Fits scopes) ∧ e.exactValue? scopes = some n.toInt) ∧
    (¬ (∀ s ∈ e.inOrder, s.Fits scopes) → ∃ before s after fault, e.inOrder = before ++ s :: after ∧
      (∀ t ∈ before, t.Fits scopes) ∧ ¬ s.Fits scopes ∧ s.IsOperation ∧
      e.eval scopes = .error (.arithmetic fault s.position)) := by
  obtain ⟨m, hm⟩ | hfails := succeeds_or_fails h
  · refine ⟨fun n => ⟨fun hn => ?_, fun ⟨_, hn⟩ => ?_⟩, fun hnot => absurd hm.fits hnot⟩
    · rw [hm.eval_eq, Except.ok.injEq, Value.integer.injEq] at hn
      exact ⟨hm.fits, hn ▸ hm.exactValue?_eq⟩
    · rw [hm.exactValue?_eq, Option.some.injEq, Int64.toInt_inj] at hn
      rw [hm.eval_eq, hn]
  · refine ⟨fun n => ?_, fun _ => hfails⟩
    obtain ⟨before, s, after, fault, horder, -, hs, -, herror⟩ := hfails
    refine ⟨fun hn => ?_, fun ⟨hfits, _⟩ => absurd (hfits s ?_) hs⟩
    · rw [herror] at hn
      cases hn
    · rw [horder]
      simp

/-- Of a division by zero and a sum that is no word behind it, the division is where evaluation fails; the remainder of
a number below zero is below zero. -/
theorem eval_exactly_division :
    let scopes : Scopes := ⟨[("x", ⟨.integer 7, some .integer⟩)], [[("y", ⟨.integer Int64.maxValue, none⟩)]]⟩
    let division : Expr := .binary (.name "x" ⟨1, 1⟩) (.arithmetic .divide)
      (.group (.binary (.name "x" ⟨1, 6⟩) (.arithmetic .subtract) (.name "x" ⟨1, 10⟩) ⟨1, 8⟩)) ⟨1, 3⟩
    let sum : Expr := .binary (.name "y" ⟨1, 15⟩) (.arithmetic .add) (.name "x" ⟨1, 19⟩) ⟨1, 17⟩
    let remainder : Expr := .binary (.unary .negate (.name "x" ⟨1, 2⟩) ⟨1, 1⟩) (.arithmetic .modulo)
      (.literal (.integer 3) ⟨1, 6⟩) ⟨1, 4⟩
    (∃ before s after, (binary division (.arithmetic .multiply) sum ⟨1, 13⟩).inOrder = before ++ s :: after ∧
      (∀ t ∈ before, t.Fits scopes) ∧ ¬ s.Fits scopes ∧ s.position = ⟨1, 3⟩) ∧
    (∀ s ∈ remainder.inOrder, s.Fits scopes) ∧ remainder.exactValue? scopes = some (-1) := by
  intro scopes division sum remainder
  have hwhole : (binary division (.arithmetic .multiply) sum ⟨1, 13⟩).OnWholeNumbers scopes :=
    ⟨⟨_, rfl⟩, ⟨⟨_, rfl⟩, ⟨7, _, rfl⟩, ⟨_, rfl⟩, ⟨7, _, rfl⟩, 7, _, rfl⟩, ⟨_, rfl⟩, ⟨Int64.maxValue, _, rfl⟩, 7, _, rfl⟩
  have hnot : ¬ ∀ s ∈ (binary division (.arithmetic .multiply) sum ⟨1, 13⟩).inOrder, s.Fits scopes := by
    intro hfits
    have hdivision : division ∈ (binary division (.arithmetic .multiply) sum ⟨1, 13⟩).inOrder := by
      simp [inOrder, division]
    obtain ⟨⟨n, hn, -⟩, -⟩ := hfits division hdivision
    cases hn
  obtain ⟨before, s, after, fault, horder, hbefore, hs, -, herror⟩ := (eval_exactly hwhole).2 hnot
  have hplace : (binary division (.arithmetic .multiply) sum ⟨1, 13⟩).eval scopes =
      .error (.arithmetic .divisionByZero ⟨1, 3⟩) := rfl
  rw [hplace] at herror
  injection herror with herror
  injection herror with _ hposition
  have hremainder : remainder.OnWholeNumbers scopes := ⟨⟨_, rfl⟩, ⟨rfl, 7, _, rfl⟩, 3, rfl⟩
  exact ⟨⟨before, s, after, horder, hbefore, hs, hposition.symm⟩, ((eval_exactly hremainder).1 (-1)).1 rfl⟩

end Expr
end Portugol
