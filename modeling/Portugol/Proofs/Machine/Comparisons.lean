import Mathlib.Data.List.Lex
import Mathlib.Data.String.Basic
import Portugol.Machine.Evaluation
import Portugol.Proofs.Machine.InputLines

/-! # Comparing values

Two values are compared by their order or by their equality, and either decides for itself which values it compares. Yet
the six operators of comparison agree: on whole numbers, and on texts, they tell one total order, which on texts is that
of the numbers of their characters, and that of their bytes in UTF-8 as well. On all other values they depend on the
types alone, in either order: two numbers are compared, two truth values are equal or not, and everything else is a type
error (`BinaryOp.comparisons_coherent`). -/
namespace Portugol

/-! ## The order of texts -/

/-- A character before another one has bytes before those of the other one, whatever follows. -/
theorem Input.utf8EncodeChar_append_lt {c d : Char} (h : c < d) (r s : List UInt8) :
    String.utf8EncodeChar c ++ r < String.utf8EncodeChar d ++ s := by
  have hval : c.val.toNat < d.val.toNat := h
  have hmax : d.val.toNat < 0x110000 := d.valid.elim (fun h => by omega) And.right
  have hless (m n : Nat) : UInt8.ofNat m < UInt8.ofNat n ↔ m % 256 < n % 256 := by
    rw [UInt8.lt_iff_toNat_lt, UInt8.toNat_ofNat', UInt8.toNat_ofNat']
  have hsame (m n : Nat) : UInt8.ofNat m = UInt8.ofNat n ↔ m % 256 = n % 256 := by
    rw [← UInt8.toNat_inj, UInt8.toNat_ofNat', UInt8.toNat_ofNat']
  -- The bytes after the first one are the digits to base 64, so they are told by dividing step by step.
  have htwo (m : Nat) : m / 4096 = m / 64 / 64 := (Nat.div_div_eq_div_mul m 64 64).symm
  have hthree (m : Nat) : m / 262144 = m / 64 / 64 / 64 := by
    rw [← htwo, Nat.div_div_eq_div_mul]
  simp only [String.utf8EncodeChar, htwo, hthree]
  generalize c.val.toNat = m at *
  generalize d.val.toNat = n at *
  split_ifs
  all_goals
    first
    | omega
    | simp only [List.cons_append, List.nil_append, List.cons_lt_cons_iff, hless, hsame]
      omega

theorem Input.encode_lt_of_lt {cs ds : List Char} (h : cs < ds) : encode cs < encode ds := by
  have hlex : List.Lex (· < ·) cs ds := (List.lt_iff_lex_lt cs ds).1 h
  clear h
  induction hlex with
  | @nil d ds =>
    obtain ⟨b, bytes, hb⟩ := List.exists_cons_of_ne_nil (mt encode_eq_nil_iff.1 (List.cons_ne_nil d ds))
    rw [hb]
    exact List.nil_lt_cons b bytes
  | cons _ ih => exact List.append_left_lt ih
  | rel h => exact utf8EncodeChar_append_lt h _ _

/-- What keeps the order of characters shows the order of texts. -/
theorem Text.lt_iff_of_lt {β : Type} [LT β] [Std.Asymm (α := β) (· < ·)] {f : List Char → List β}
    (hf : ∀ cs ds, cs < ds → f cs < f ds) (s t : String) : s < t ↔ f s.toList < f t.toList := by
  rw [String.lt_iff_toList_lt]
  refine ⟨hf _ _, fun h => ?_⟩
  rcases lt_trichotomy s.toList t.toList with hlt | heq | hgt
  · exact hlt
  · rw [heq] at h
    exact absurd h (List.lt_asymm h)
  · exact absurd h (List.lt_asymm (hf _ _ hgt))

namespace BinaryOp

/-! ## What is said of two values -/

/-- The operator is evaluated on two values, wherever it stands, and is true. -/
def States (op : BinaryOp) (a b : Value) : Prop := ∀ p, op.apply a b p = .ok (.boolean true)

def Denies (op : BinaryOp) (a b : Value) : Prop := ∀ p, op.apply a b p = .ok (.boolean false)

def Decides (op : BinaryOp) (a b : Value) : Prop := op.States a b ∨ op.Denies a b

/-- The operator is not evaluated on two values: wherever it stands, their types are at fault. -/
def Refuses (op : BinaryOp) (a b : Value) : Prop :=
  ∀ p, op.apply a b p = .error (.type (.operands op a.type? b.type?) p)

structure TellOrder (a b c : Value) : Prop where
  decides : ∀ op : BinaryOp, op.level = .comparison → op.Decides a b
  one_of_three :
    ((order .less).States a b ∧ (equality .equal).Denies a b ∧ (order .greater).Denies a b) ∨
    ((order .less).Denies a b ∧ (equality .equal).States a b ∧ (order .greater).Denies a b) ∨
    ((order .less).Denies a b ∧ (equality .equal).Denies a b ∧ (order .greater).States a b)
  lessEqual : (order .lessEqual).States a b ↔ (order .less).States a b ∨ (equality .equal).States a b
  greaterEqual : (order .greaterEqual).States a b ↔ (order .greater).States a b ∨ (equality .equal).States a b
  notEqual : (equality .notEqual).States a b ↔ (equality .equal).Denies a b
  greater : (order .greater).States a b ↔ (order .less).States b a
  equal : (equality .equal).States a b ↔ a = b
  less_trans : (order .less).States a b → (order .less).States b c → (order .less).States a c

end BinaryOp

/-! ## The types of the values -/

def BothNumbers (s t : Option DataType) : Prop :=
  (s = some .integer ∨ s = some .real) ∧ (t = some .integer ∨ t = some .real)

namespace Value

theorem equal?_ne_none_iff (a b : Value) : a.equal? b ≠ none ↔
    (a.type? = some .text ∧ b.type? = some .text) ∨ (a.type? = some .boolean ∧ b.type? = some .boolean) ∨
      BothNumbers a.type? b.type? := by
  cases a <;> cases b <;> simp [equal?, numbers?, number?, type?, BothNumbers]

theorem order?_ne_none_iff (a b : Value) : a.order? b ≠ none ↔
    (a.type? = some .text ∧ b.type? = some .text) ∨ BothNumbers a.type? b.type? := by
  cases a <;> cases b <;> simp [order?, numbers?, number?, type?, BothNumbers]

end Value

namespace BinaryOp

variable {op : BinaryOp} {a b : Value}

/-- Where an operator is evaluated it is false if it is not true. -/
theorem Decides.denies_iff (h : op.Decides a b) : op.Denies a b ↔ ¬ op.States a b := by
  constructor
  · intro hfalse htrue
    cases (hfalse .start).symm.trans (htrue .start)
  · exact h.resolve_left

theorem not_decides_of_refuses (h : op.Refuses a b) : ¬ op.Decides a b := by
  rintro (hstates | hdenies)
  · cases (h .start).symm.trans (hstates .start)
  · cases (h .start).symm.trans (hdenies .start)

theorem equality_decides_or_refuses (relation : EqualityOp) (a b : Value) :
    (a.equal? b ≠ none ∧ (equality relation).Decides a b) ∨ (a.equal? b = none ∧ (equality relation).Refuses a b) := by
  cases hequal : a.equal? b with
  | none => exact .inr ⟨rfl, fun p => by simp only [apply, hequal]⟩
  | some same =>
    refine .inl ⟨nofun, ?_⟩
    rw [Decides, States, Denies]
    simp only [apply, hequal]
    cases if relation = .equal then same else !same <;> simp

theorem order_decides_or_refuses (relation : OrderOp) (a b : Value) :
    (a.order? b ≠ none ∧ (order relation).Decides a b) ∨ (a.order? b = none ∧ (order relation).Refuses a b) := by
  cases horder : a.order? b with
  | none => exact .inr ⟨rfl, fun p => by simp only [apply, horder]⟩
  | some o =>
    refine .inl ⟨nofun, ?_⟩
    rw [Decides, States, Denies]
    simp only [apply, horder]
    cases o.any relation.holds <;> simp

def Compares : BinaryOp → Option DataType → Option DataType → Prop
  | .equality _, s, t =>
    (s = some .text ∧ t = some .text) ∨ (s = some .boolean ∧ t = some .boolean) ∨ BothNumbers s t
  | .order _, s, t => (s = some .text ∧ t = some .text) ∨ BothNumbers s t
  | .logic _, _, _ | .arithmetic _, _, _ => False

theorem Compares.symm {s t : Option DataType} (h : op.Compares s t) : op.Compares t s := by
  cases op with
  | equality => exact h.imp And.symm (Or.imp And.symm And.symm)
  | order => exact h.imp And.symm And.symm
  | logic | arithmetic => exact h

/-- The types of two values tell whether they are compared. -/
theorem decides_or_refuses (hop : op.level = .comparison) (a b : Value) :
    (op.Compares a.type? b.type? ∧ op.Decides a b) ∨ (¬ op.Compares a.type? b.type? ∧ op.Refuses a b) := by
  cases op with
  | logic => cases hop
  | arithmetic op => cases op <;> cases hop
  | equality relation =>
    rw [Compares, ← Value.equal?_ne_none_iff, not_not]
    exact equality_decides_or_refuses relation a b
  | order relation =>
    rw [Compares, ← Value.order?_ne_none_iff, not_not]
    exact order_decides_or_refuses relation a b

theorem decides_iff (hop : op.level = .comparison) (a b : Value) : op.Decides a b ↔ op.Compares a.type? b.type? := by
  rcases decides_or_refuses hop a b with ⟨htypes, hdecides⟩ | ⟨htypes, hrefuses⟩
  · exact iff_of_true hdecides htypes
  · exact iff_of_false (not_decides_of_refuses hrefuses) htypes

end BinaryOp

/-! ## Values that are ranked -/

def OrderOp.Relates {β : Type} [LinearOrder β] : OrderOp → β → β → Prop
  | .less, x, y => x < y
  | .lessEqual, x, y => x ≤ y
  | .greater, x, y => y < x
  | .greaterEqual, x, y => y ≤ x

theorem OrderOp.holds_compare_iff {β : Type} [LinearOrder β] (relation : OrderOp) (x y : β) :
    relation.holds (compare x y) ↔ relation.Relates x y := by
  cases relation with
  | less => simp [holds, Relates, compare_lt_iff_lt]
  | lessEqual => simp [holds, Relates, compare_gt_iff_gt]
  | greater => simp [holds, Relates, compare_gt_iff_gt]
  | greaterEqual => simp [holds, Relates, compare_lt_iff_lt]

structure Value.RankedBy {α β : Type} [DecidableEq α] [LinearOrder β] (value : α → Value) (rank : α → β) : Prop where
  injective : Function.Injective rank
  order?_eq : ∀ x y, (value x).order? (value y) = some (some (compare (rank x) (rank y)))
  equal?_eq : ∀ x y, (value x).equal? (value y) = some (decide (x = y))

namespace Value

theorem rankedBy_integer : RankedBy integer Int64.toInt where
  injective _ _ := Int64.toInt_inj.1
  order?_eq _ _ := rfl
  equal?_eq _ _ := rfl

theorem rankedBy_text : RankedBy text id where
  injective := Function.injective_id
  order?_eq _ _ := rfl
  equal?_eq _ _ := rfl

namespace RankedBy

open BinaryOp

variable {α β : Type} [DecidableEq α] [LinearOrder β] {value : α → Value} {rank : α → β} (h : RankedBy value rank)
include h

theorem value_injective : Function.Injective value := by
  intro x y hxy
  have hsame := h.equal?_eq x y
  rw [← hxy, h.equal?_eq, Option.some.injEq, decide_eq_decide] at hsame
  exact hsame.1 rfl

theorem decides (op : BinaryOp) (hop : op.level = .comparison) (x y : α) : op.Decides (value x) (value y) := by
  cases op with
  | logic => cases hop
  | arithmetic op => cases op <;> cases hop
  | equality relation =>
    have hdecides := equality_decides_or_refuses relation (value x) (value y)
    rw [h.equal?_eq] at hdecides
    exact (hdecides.resolve_right nofun).2
  | order relation =>
    have hdecides := order_decides_or_refuses relation (value x) (value y)
    rw [h.order?_eq] at hdecides
    exact (hdecides.resolve_right nofun).2

theorem states_order_iff (relation : OrderOp) (x y : α) :
    (order relation).States (value x) (value y) ↔ relation.Relates (rank x) (rank y) := by
  simp [States, BinaryOp.apply, h.order?_eq, OrderOp.holds_compare_iff]

theorem states_equal_iff (x y : α) : (equality .equal).States (value x) (value y) ↔ rank x = rank y := by
  simp [States, BinaryOp.apply, h.equal?_eq, h.injective.eq_iff]

theorem states_notEqual_iff (x y : α) : (equality .notEqual).States (value x) (value y) ↔ rank x ≠ rank y := by
  simp [States, BinaryOp.apply, h.equal?_eq, h.injective.eq_iff]

/-- The order that the operators tell is that of the ranks. -/
theorem tellOrder (x y z : α) : TellOrder (value x) (value y) (value z) where
  decides op hop := h.decides op hop x y
  one_of_three := by
    simp only [(h.decides (order .less) rfl x y).denies_iff, (h.decides (equality .equal) rfl x y).denies_iff,
      (h.decides (order .greater) rfl x y).denies_iff, h.states_order_iff, h.states_equal_iff, OrderOp.Relates]
    rcases lt_trichotomy (rank x) (rank y) with hlt | heq | hgt
    · exact .inl ⟨hlt, hlt.ne, hlt.asymm⟩
    · exact .inr (.inl ⟨heq.not_lt, heq, heq.not_gt⟩)
    · exact .inr (.inr ⟨hgt.asymm, hgt.ne', hgt⟩)
  lessEqual := by
    simp only [h.states_order_iff, h.states_equal_iff, OrderOp.Relates]
    exact le_iff_lt_or_eq
  greaterEqual := by
    simp only [h.states_order_iff, h.states_equal_iff, OrderOp.Relates]
    exact le_iff_lt_or_eq.trans (or_congr_right eq_comm)
  notEqual := by
    rw [(h.decides (equality .equal) rfl x y).denies_iff, h.states_notEqual_iff, h.states_equal_iff]
  greater := by
    simp only [h.states_order_iff, OrderOp.Relates]
  equal := by
    rw [h.states_equal_iff, h.injective.eq_iff, h.value_injective.eq_iff]
  less_trans := by
    simp only [h.states_order_iff, OrderOp.Relates]
    exact lt_trans

end RankedBy
end Value

namespace BinaryOp

/-! ## One order -/

/-- On whole numbers, and on texts, the operators of comparison tell one total order, which on texts is that of the
numbers of their characters, and that of their bytes. On other values they depend on the types only, in either order:
two numbers are compared, two truth values are equal or not, and on everything else each operator is a type error. -/
theorem comparisons_coherent :
    (∀ (type : DataType) (a b c : Value), type = .integer ∨ type = .text →
      a.type? = some type → b.type? = some type → c.type? = some type → TellOrder a b c) ∧
    (∀ m n : Int64, (order .less).States (.integer m) (.integer n) ↔ m.toInt < n.toInt) ∧
    (∀ s t : String,
      ((order .less).States (.text s) (.text t) ↔ s.toList.map Char.toNat < t.toList.map Char.toNat) ∧
      ((order .less).States (.text s) (.text t) ↔ Input.encode s.toList < Input.encode t.toList)) ∧
    ∀ a b : Value, ¬ (a.type? = some .integer ∧ b.type? = some .integer) →
      ¬ (a.type? = some .text ∧ b.type? = some .text) →
      (∀ relation, (equality relation).Decides a b ↔
        (a.type? = some .boolean ∧ b.type? = some .boolean) ∨ BothNumbers a.type? b.type?) ∧
      (∀ relation, (order relation).Decides a b ↔ BothNumbers a.type? b.type?) ∧
      ∀ op : BinaryOp, op.level = .comparison →
        (¬ op.Decides a b → op.Refuses a b) ∧ (op.Decides b a ↔ op.Decides a b) ∧
        ∀ c d : Value, c.type? = a.type? → d.type? = b.type? → (op.Decides c d ↔ op.Decides a b) := by
  refine ⟨fun type a b c htype ha hb hc => ?_, Value.rankedBy_integer.states_order_iff .less, fun s t => ?_,
    fun a b _ htexts => ⟨?_, ?_, ?_⟩⟩
  · rcases htype with rfl | rfl
    · cases a <;> cases ha
      cases b <;> cases hb
      cases c <;> cases hc
      exact Value.rankedBy_integer.tellOrder _ _ _
    · cases a <;> cases ha
      cases b <;> cases hb
      cases c <;> cases hc
      exact Value.rankedBy_text.tellOrder _ _ _
  · have hless : (order .less).States (.text s) (.text t) ↔ s < t := Value.rankedBy_text.states_order_iff .less s t
    rw [hless, ← Text.lt_iff_of_lt (fun _ _ => Input.encode_lt_of_lt)]
    exact ⟨Text.lt_iff_of_lt (f := List.map Char.toNat) (fun _ _ => List.map_lt fun _ _ h => h) s t, Iff.rfl⟩
  · intro relation
    rw [decides_iff rfl, Compares, or_iff_right htexts]
  · intro relation
    rw [decides_iff rfl, Compares, or_iff_right htexts]
  · intro op hop
    refine ⟨fun hnot => ?_, ?_, fun c d hc hd => ?_⟩
    · exact ((decides_or_refuses hop a b).resolve_left fun h => hnot h.2).2
    · rw [decides_iff hop, decides_iff hop]
      exact ⟨Compares.symm, Compares.symm⟩
    · rw [decides_iff hop, decides_iff hop, hc, hd]

/-- A letter with an accent comes after all letters without one, whole numbers are compared, and no text is compared
with a number. -/
theorem comparisons_coherent_mixed :
    TellOrder (.integer (-3)) (.integer 2) (.integer 2) ∧
    (order .less).States (.text "maz") (.text "maçã") ∧
    (order .lessEqual).Refuses (.text "1") (.integer 1) := by
  refine ⟨comparisons_coherent.1 .integer _ _ _ (.inl rfl) rfl rfl rfl, ?_, ?_⟩
  · exact (comparisons_coherent.2.2.1 "maz" "maçã").1.2 (by decide)
  · obtain ⟨-, horder, hall⟩ := comparisons_coherent.2.2.2 (.text "1") (.integer 1) nofun nofun
    refine (hall (order .lessEqual) rfl).1 fun hdecides => ?_
    rcases ((horder .lessEqual).1 hdecides).1 with h | h <;> cases h

end BinaryOp
end Portugol
