import Portugol.Proofs.Grammar.RoundTrip
import Portugol.Proofs.Syntax.Heights

/-! # How high the expressions of a source are

The nesting limit bounds what an expression costs, and so how high it is: no expression that is read is higher than
`(2 * maxNesting + 1) * (maxNesting + 1)` (`Program.heights_of_parse`), and there is a source with one as high as that
(`Program.exists_highest`). An expression is at most one higher than the limit if the cost of each operation reaches the
height of its left operand. Otherwise it may be higher, as the first operand of a chain may be as deep as the limit
allows and the operators of the chain come on top of it (`Program.higher_than_nesting`). -/
namespace Portugol

/-! ## Expressions of a source -/

/-- Every expression of a program that is read keeps the levels and costs no more than nesting may be deep. -/
theorem Program.expressions_of_parse {source : String} {program : Program} (h : Program.parse source = .ok program) :
    ∀ s ∈ program.parts, ∀ e ∈ s.exprs, e.Leveled ∧ e.cost ≤ Grammar.maxNesting := by
  obtain ⟨-, n, hn, hall⟩ := Grammar.flattens_of_programFrom h
  intro s hs e he
  have hshaped := hall.shaped s hs
  exact ⟨hshaped.wellShaped.1 e he, Nat.le_trans (hshaped.cost_le e he) hn⟩

/-! ## Sources with a given expression -/

namespace Expr

theorem height_unplaced (e : Expr) : e.unplaced.height = e.height := by
  induction e with
  | literal | name => rfl
  | group inner ih => rw [unplaced, height, height, ih]
  | unary op operand p ih => rw [unplaced, height, height, ih]
  | binary lhs op rhs p ihl ihr => rw [unplaced, height, height, ihl, ihr]

theorem height_eq_of_unplaced_eq {e e' : Expr} (h : e'.unplaced = e.unplaced) : e'.height = e.height := by
  rw [← height_unplaced, h, height_unplaced]

theorem printable_extended (op : BinaryOp) {e : Expr} (h : e.Printable) (n : Nat) : (e.extended op n).Printable := by
  induction n with
  | zero => exact h
  | succ n ih =>
    have hone : 0 ≤ (1 : Int64).toInt := by decide
    exact ⟨ih, hone⟩

theorem printable_tallest (n : Nat) : (tallest n).Printable := by
  induction n with
  | zero =>
    have hone : 0 ≤ (1 : Int64).toInt := by decide
    exact hone
  | succ n ih =>
    have hgroup : (group (tallest n)).Printable := ih
    exact printable_extended _ (printable_extended _ (printable_extended _ (printable_extended _ hgroup _) _) _) _

theorem height_negated (n : Nat) : (negated n).height = n + 1 := by
  induction n with
  | zero => rfl
  | succ n ih => rw [negated, height, ih]

end Expr

theorem Statement.unplacedAll_eq (ss : List Statement) : unplacedAll ss = ss.map Statement.unplaced := by
  induction ss with
  | nil => rw [unplacedAll, List.map_nil]
  | cons s rest ih => rw [unplacedAll, ih, List.map_cons]

/-- What differs from a write of one value in its positions alone writes that value. -/
theorem Statement.exists_of_unplaced_eq_write {s : Statement} {e : Expr} {p : Position}
    (h : s.unplaced = (write [e] p).unplaced) : ∃ e' ∈ s.exprs, e'.unplaced = e.unplaced := by
  cases s with
  | write exprs q =>
    simp only [unplaced, write.injEq, and_true, List.map_cons, List.map_nil] at h
    obtain ⟨e', rfl, he'⟩ := List.map_eq_singleton_iff.1 h
    exact ⟨e', List.mem_singleton_self _, he'⟩
  | declaration | assignment | read | conditional | repetition | block => simp only [unplaced, reduceCtorEq] at h

def Program.writing (e : Expr) : Program := ⟨[.write [e] .start]⟩

/-- The text of a program that writes a value is read if the expression is not nested too deep, and what is read is as
high. -/
theorem Program.exists_height_of_writing {e : Expr} (hlevel : e.Leveled) (hprint : e.Printable)
    (hcost : e.cost ≤ Grammar.maxNesting) : ∃ program, Program.parse (writing e).text = .ok program ∧
      ∃ s ∈ program.parts, ∃ e' ∈ s.exprs, e'.height = e.height := by
  have hprintable : (writing e).Printable := by
    refine List.forall_mem_singleton.2 ⟨⟨?_, nofun⟩, ?_, nofun⟩
    · exact List.forall_mem_singleton.2 hlevel
    · exact List.forall_mem_singleton.2 hprint
  have hnesting : Statement.nestingAll (writing e).statements = e.cost := by
    simp [writing, Statement.nestingAll, Statement.nesting, Expr.costs]
  obtain ⟨ss, hflat, hsame, hparse⟩ := exists_flattens_text hprintable
  rw [hnesting] at hflat
  have hread := (Grammar.programFrom_flattens hflat (tokenize (writing e).text).stop).1 hcost
  refine ⟨⟨ss⟩, hparse.trans hread, ?_⟩
  rw [Statement.unplacedAll_eq, Statement.unplacedAll_eq] at hsame
  obtain ⟨s, rfl, hs⟩ := List.map_eq_singleton_iff.1 hsame
  obtain ⟨e', he', hunplaced⟩ := Statement.exists_of_unplaced_eq_write hs
  have hpart : s ∈ Program.parts ⟨[s]⟩ := by
    rw [parts, Statement.partsAll, Statement.partsAll, List.append_nil]
    exact s.mem_parts
  exact ⟨s, hpart, e', he', Expr.height_eq_of_unplaced_eq hunplaced⟩

/-! ## Bounds -/

/-- An expression that is read is at most one higher than nesting may be deep if each of its operations costs as much as
its left operand is high, and in any case it keeps to a greater bound. -/
theorem Program.heights_of_parse {source : String} {program : Program} (h : Program.parse source = .ok program) :
    ∀ s ∈ program.parts, ∀ e ∈ s.exprs, (e.Counted → e.height ≤ Grammar.maxNesting + 1) ∧
      e.height ≤ (2 * Grammar.maxNesting + 1) * (Grammar.maxNesting + 1) := by
  intro s hs e he
  obtain ⟨hlevel, hcost⟩ := expressions_of_parse h s hs e he
  constructor
  · intro hcounted
    exact Nat.le_trans (Expr.height_le_of_counted hcounted) (Nat.succ_le_succ hcost)
  · calc e.height
      _ ≤ (2 * e.cost + 1) * (e.cost + 1) := Expr.height_le hlevel
      _ ≤ (2 * Grammar.maxNesting + 1) * (Grammar.maxNesting + 1) := Nat.mul_le_mul (by omega) (by omega)

theorem Program.statements_negated_sum : Grammar.statements (tokenize "escreva(-(y + z));").cursor =
    ([.write [.unary .negate (.group (.binary (.name "y" ⟨1, 11⟩) (.arithmetic .add) (.name "z" ⟨1, 15⟩) ⟨1, 13⟩))
      ⟨1, 9⟩] ⟨1, 1⟩], .start [] ⟨1, 19⟩) := by
  have hcursor : (tokenize "escreva(-(y + z));").cursor = .start
      [⟨.keyword .escreva, "escreva", ⟨1, 1⟩⟩, ⟨.symbol .openParen, "(", ⟨1, 8⟩⟩, ⟨.symbol .minus, "-", ⟨1, 9⟩⟩,
       ⟨.symbol .openParen, "(", ⟨1, 10⟩⟩, ⟨.name "y", "y", ⟨1, 11⟩⟩, ⟨.symbol .plus, "+", ⟨1, 13⟩⟩,
       ⟨.name "z", "z", ⟨1, 15⟩⟩, ⟨.symbol .closeParen, ")", ⟨1, 16⟩⟩, ⟨.symbol .closeParen, ")", ⟨1, 17⟩⟩,
       ⟨.symbol .semicolon, ";", ⟨1, 18⟩⟩]
      ⟨1, 19⟩ :=
    congrArg₂ Grammar.Cursor.start (by decide +kernel) (by decide +kernel)
  rw [hcursor]
  rfl

/-- The sum of two names, negated. -/
theorem Program.heights_of_parse_negated_sum : ∃ program, Program.parse "escreva(-(y + z));" = .ok program ∧
    ∃ s ∈ program.parts, ∃ e ∈ s.exprs, e.Counted ∧ e.height = 4 ∧ e.height ≤ Grammar.maxNesting + 1 := by
  let e : Expr := .unary .negate (.group (.binary (.name "y" ⟨1, 11⟩) (.arithmetic .add) (.name "z" ⟨1, 15⟩)
    ⟨1, 13⟩)) ⟨1, 9⟩
  have hparse : Program.parse "escreva(-(y + z));" = .ok ⟨[.write [e] ⟨1, 1⟩]⟩ :=
    Grammar.programFrom_eq_ok_iff.2
      ⟨by decide +kernel, by rw [statements_negated_sum]; rfl, by rw [statements_negated_sum]⟩
  have hpart : .write [e] ⟨1, 1⟩ ∈ Program.parts ⟨[.write [e] ⟨1, 1⟩]⟩ := List.mem_cons_self
  have he : e ∈ Statement.exprs (.write [e] ⟨1, 1⟩) := List.mem_cons_self
  have hcounted : e.Counted := ⟨trivial, trivial, by decide⟩
  exact ⟨_, hparse, _, hpart, e, he, hcounted, rfl, (Program.heights_of_parse hparse _ hpart e he).1 hcounted⟩

/-- One hundred minus signs are as many as can be read, and a sum comes on top of them. -/
theorem Program.higher_than_nesting :
    ∃ program, Program.parse ("escreva ( " ++ String.join (List.replicate 100 "- ") ++ "1 + 1 ) ;") = .ok program ∧
      ∃ s ∈ program.parts, ∃ e ∈ s.exprs, e.height = 102 ∧ Grammar.maxNesting + 1 < e.height := by
  have hone : 0 ≤ (1 : Int64).toInt := by decide
  obtain ⟨htight, hlevel, hprint, hcost⟩ := Expr.negated_spec 100
  have hoperand : (Expr.negated 100).links .sum = 0 := Expr.links_eq_zero (htight.symm ▸ (by decide))
  obtain ⟨program, hparse, s, hs, e, he, hheight⟩ := exists_height_of_writing
    (e := .binary (.negated 100) (.arithmetic .add) (.literal (.integer 1) .start) .start)
    ⟨htight.symm ▸ (by decide), by decide, hlevel, trivial⟩ ⟨hprint, hone⟩
    (by rw [Expr.cost, BinaryOp.level, hoperand, hcost]; decide)
  have htext : (writing (.binary (.negated 100) (.arithmetic .add) (.literal (.integer 1) .start) .start)).text =
      "escreva ( " ++ String.join (List.replicate 100 "- ") ++ "1 + 1 ) ;" := by
    decide +kernel
  rw [Expr.height, Expr.height_negated] at hheight
  rw [htext] at hparse
  exact ⟨program, hparse, s, hs, e, he, hheight, hheight ▸ by decide⟩

/-- The greater bound is reached. -/
theorem Program.exists_highest : ∃ source program, Program.parse source = .ok program ∧
    ∃ s ∈ program.parts, ∃ e ∈ s.exprs,
      e.height = (2 * Grammar.maxNesting + 1) * (Grammar.maxNesting + 1) := by
  obtain ⟨hlevel, hcost, hheight⟩ := Expr.tallest_spec Grammar.maxNesting
  obtain ⟨program, hparse, s, hs, e, he, hsame⟩ :=
    exists_height_of_writing hlevel (Expr.printable_tallest _) (Nat.le_of_eq hcost)
  exact ⟨_, program, hparse, s, hs, e, he, hsame.trans hheight⟩

end Portugol
