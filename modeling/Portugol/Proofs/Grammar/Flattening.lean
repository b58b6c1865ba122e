import Portugol.Grammar.Statement
import Portugol.Proofs.Syntax.Parts

/-! # The grammar of the language

A tree flattens to a list of tokens if the grammar derives the tree from exactly these tokens: none is left out,
none is used twice, and they stand in the order of the tree. Each node is where the token is that it is named
after: an operator or a leaf at itself, a statement at its first word or name, a block at its opening brace, and a
block that only holds the conditional behind an "else" at that word.

A sign of assignment can be either of the two. What is done otherwise is a block or one more conditional. The
number beside a tree is the nesting that its derivation takes: a block counts one, an expression its cost, and a
conditional behind an "else" nothing of its own.

Whatever is in a tree is derived too, from some tokens of the tree that stand in a row and with no more nesting
(`Statement.FlattensAll.parts`, `Statement.Flattens.exprs`). -/
namespace Portugol

def typeKeyword : Option DataType → Keyword
  | none => .var
  | some .integer => .inteiro
  | some .real => .real
  | some .boolean => .booleano
  | some .text => .texto

/-- The token that a value is written as; the undefined value cannot be written. -/
def Value.token? : Value → Option TokenKind
  | .undefined => none
  | .integer n => some (.integer n)
  | .real x => some (.real x)
  | .boolean true => some (.keyword .verdadeiro)
  | .boolean false => some (.keyword .falso)
  | .text s => some (.text s)

/-- The tokens of an expression that is at least so tight. -/
inductive Expr.Flattens : Nat → Expr → List Token → Prop where
  | literal {τ v t} (ht : v.token? = some t.kind) : Flattens τ (.literal v t.position) [t]
  | name {τ x t} (ht : t.kind = .name x) : Flattens τ (.name x t.position) [t]
  | group {τ e l ts r} (hl : l.kind = .symbol .openParen) (he : Flattens 0 e ts)
      (hr : r.kind = .symbol .closeParen) : Flattens τ (.group e) (l :: (ts ++ [r]))
  | unary {τ op e t ts} (ht : t.kind = .symbol op.symbol) (he : Flattens tightest e ts) :
      Flattens τ (.unary op e t.position) (t :: ts)
  | binary {τ lhs op rhs ls t rs} (hτ : τ ≤ op.level.rank) (hl : Flattens op.level.rank lhs ls)
      (ht : t.kind = .symbol op.symbol) (hr : Flattens (op.level.rank + 1) rhs rs) :
      Flattens τ (.binary lhs op rhs t.position) (ls ++ t :: rs)

namespace Statement

inductive FlattensInit : Option Expr → Nat → List Token → Prop where
  | none : FlattensInit none 0 []
  | some {e sign ts} (hsign : sign.kind = .symbol .arrow ∨ sign.kind = .symbol .becomes)
      (he : e.Flattens 0 ts) : FlattensInit (some e) e.cost (sign :: ts)

inductive FlattensMore : List Expr → Nat → List Token → Prop where
  | nil : FlattensMore [] 0 []
  | cons {e es n comma ts us} (hcomma : comma.kind = .symbol .comma) (he : e.Flattens 0 ts)
      (hes : FlattensMore es n us) : FlattensMore (e :: es) (max e.cost n) (comma :: (ts ++ us))

def IsConditional : Statement → Prop
  | .conditional .. => True
  | _ => False

end Statement

mutual

/-- The tokens of a statement, and the nesting that they take. -/
inductive Statement.Flattens : Statement → Nat → List Token → Prop where
  | declaration {x type init n word name ts semicolon} (hword : word.kind = .keyword (typeKeyword type))
      (hname : name.kind = .name x) (hinit : Statement.FlattensInit init n ts)
      (hend : semicolon.kind = .symbol .semicolon) :
      Statement.Flattens (.declaration x type init word.position) n (word :: name :: (ts ++ [semicolon]))
  | assignment {x value n name ts semicolon} (hname : name.kind = .name x)
      (hvalue : Statement.FlattensInit (some value) n ts) (hend : semicolon.kind = .symbol .semicolon) :
      Statement.Flattens (.assignment x value name.position) n (name :: (ts ++ [semicolon]))
  | read {x word l name r semicolon} (hword : word.kind = .keyword .leia) (hl : l.kind = .symbol .openParen)
      (hname : name.kind = .name x) (hr : r.kind = .symbol .closeParen)
      (hend : semicolon.kind = .symbol .semicolon) :
      Statement.Flattens (.read x word.position) 0 [word, l, name, r, semicolon]
  | write {e es n word l ts us r semicolon} (hword : word.kind = .keyword .escreva)
      (hl : l.kind = .symbol .openParen) (he : e.Flattens 0 ts) (hes : Statement.FlattensMore es n us)
      (hr : r.kind = .symbol .closeParen) (hend : semicolon.kind = .symbol .semicolon) :
      Statement.Flattens (.write (e :: es) word.position) (max e.cost n) (word :: l :: (ts ++ (us ++ [r, semicolon])))
  | conditional {e b other m n word l ts r us vs} (hword : word.kind = .keyword .se)
      (hl : l.kind = .symbol .openParen) (he : e.Flattens 0 ts) (hr : r.kind = .symbol .closeParen)
      (hthen : Block.Flattens b m us) (helse : Statement.FlattensElse other n vs) :
      Statement.Flattens (.conditional e b other word.position) (max e.cost (max m n))
        (word :: l :: (ts ++ r :: (us ++ vs)))
  | repetition {e b n word l ts r us} (hword : word.kind = .keyword .enquanto)
      (hl : l.kind = .symbol .openParen) (he : e.Flattens 0 ts) (hr : r.kind = .symbol .closeParen)
      (hbody : Block.Flattens b n us) :
      Statement.Flattens (.repetition e b word.position) (max e.cost n) (word :: l :: (ts ++ r :: us))
  | block {b n ts} (hb : Block.Flattens b n ts) : Statement.Flattens (.block b) n ts

inductive Block.Flattens : Block → Nat → List Token → Prop where
  | mk {statements n l ts r} (hl : l.kind = .symbol .openBrace) (hall : Statement.FlattensAll statements n ts)
      (hr : r.kind = .symbol .closeBrace) : Block.Flattens ⟨statements, l.position⟩ (n + 1) (l :: (ts ++ [r]))

inductive Statement.FlattensElse : Option Block → Nat → List Token → Prop where
  | none : Statement.FlattensElse none 0 []
  | block {b n word ts} (hword : word.kind = .keyword .senao) (hb : Block.Flattens b n ts) :
      Statement.FlattensElse (some b) n (word :: ts)
  | conditional {s n word ts} (hword : word.kind = .keyword .senao) (hs : Statement.Flattens s n ts)
      (hc : s.IsConditional) : Statement.FlattensElse (some ⟨[s], word.position⟩) n (word :: ts)

inductive Statement.FlattensAll : List Statement → Nat → List Token → Prop where
  | nil : Statement.FlattensAll [] 0 []
  | cons {s rest m n ts us} (hs : Statement.Flattens s m ts) (hrest : Statement.FlattensAll rest n us) :
      Statement.FlattensAll (s :: rest) (max m n) (ts ++ us)

end

/-- The tokens of a program that is not nested too deep. -/
def Program.Flattens (program : Program) (tokens : List Token) : Prop :=
  ∃ n ≤ Grammar.maxNesting, Statement.FlattensAll program.statements n tokens

/-! ## What is in a tree -/

/-- An expression is where one of its tokens is. -/
theorem Expr.Flattens.exists_position {τ : Nat} {e : Expr} {ts : List Token} (h : e.Flattens τ ts) :
    ∃ t ∈ ts, t.position = e.position := by
  induction h with
  | literal | name => exact ⟨_, List.mem_singleton_self _, rfl⟩
  | group _ _ _ ih =>
    obtain ⟨t, ht, hposition⟩ := ih
    exact ⟨t, by simp [ht], hposition⟩
  | unary => exact ⟨_, .head _, rfl⟩
  | @binary _ _ _ _ _ t => exact ⟨t, by simp, rfl⟩

/-- A statement is where one of its tokens is. -/
theorem Statement.Flattens.exists_position {s : Statement} {n : Nat} {ts : List Token} (h : s.Flattens n ts) :
    ∃ t ∈ ts, t.position = s.position := by
  cases h with
  | declaration | assignment | read | write | conditional | repetition => exact ⟨_, .head _, rfl⟩
  | block hb =>
    cases hb
    exact ⟨_, .head _, rfl⟩

/-- An expression is derived from some of these tokens that stand in a row, and costs no more than this nesting. -/
def Expr.DerivedWithin (n : Nat) (ts : List Token) (e : Expr) : Prop := e.cost ≤ n ∧ ∃ us, us <:+: ts ∧ e.Flattens 0 us

/-- A statement is derived from some of these tokens that stand in a row, with no more than this nesting. -/
def Statement.DerivedWithin (n : Nat) (ts : List Token) (s : Statement) : Prop :=
  ∃ k us, k ≤ n ∧ us <:+: ts ∧ s.Flattens k us

theorem Expr.DerivedWithin.mono {m n : Nat} {ts us : List Token} {e : Expr} (h : e.DerivedWithin m ts) (hle : m ≤ n)
    (hin : ts <:+: us) : e.DerivedWithin n us := by
  obtain ⟨hcost, vs, hvs, he⟩ := h
  exact ⟨Nat.le_trans hcost hle, vs, hvs.trans hin, he⟩

theorem Statement.DerivedWithin.mono {m n : Nat} {ts us : List Token} {s : Statement} (h : s.DerivedWithin m ts)
    (hle : m ≤ n) (hin : ts <:+: us) : s.DerivedWithin n us := by
  obtain ⟨k, vs, hk, hvs, hs⟩ := h
  exact ⟨k, vs, Nat.le_trans hk hle, hvs.trans hin, hs⟩

namespace Statement

theorem FlattensInit.exprs {init : Option Expr} {n : Nat} {ts : List Token} (h : FlattensInit init n ts) :
    ∀ e ∈ init.toList, e.DerivedWithin n ts := by
  cases h with
  | none => exact nofun
  | @some e sign ts _ he =>
    exact List.forall_mem_singleton.2 ⟨Nat.le_refl _, ts, (List.suffix_cons sign ts).isInfix, he⟩

theorem FlattensMore.exprs {es : List Expr} {n : Nat} {ts : List Token} (h : FlattensMore es n ts) :
    ∀ e ∈ es, e.DerivedWithin n ts := by
  induction h with
  | nil => exact nofun
  | @cons e es n comma ts us _ he _ ih =>
    refine List.forall_mem_cons.2 ⟨⟨Nat.le_max_left _ _, ts, ⟨[comma], us, rfl⟩, he⟩, fun e hmem => ?_⟩
    exact (ih e hmem).mono (Nat.le_max_right _ _) ⟨comma :: ts, [], by simp⟩

/-- The expressions that belong to a statement are derived from its tokens. -/
theorem Flattens.exprs {s : Statement} {n : Nat} {ts : List Token} (h : s.Flattens n ts) :
    ∀ e ∈ s.exprs, e.DerivedWithin n ts := by
  cases h with
  | @declaration _ _ _ _ word name us semicolon _ _ hinit _ =>
    exact fun e he => (hinit.exprs e he).mono (Nat.le_refl _) ⟨[word, name], [semicolon], by simp⟩
  | @assignment _ _ _ name us semicolon _ hvalue _ =>
    exact fun e he => (hvalue.exprs e he).mono (Nat.le_refl _) ⟨[name], [semicolon], by simp⟩
  | read => exact nofun
  | @write e es n word l us vs r semicolon _ _ he hes _ _ =>
    refine List.forall_mem_cons.2 ⟨⟨Nat.le_max_left _ _, us, ⟨[word, l], vs ++ [r, semicolon], by simp⟩, he⟩, ?_⟩
    exact fun e he => (hes.exprs e he).mono (Nat.le_max_right _ _) ⟨word :: l :: us, [r, semicolon], by simp⟩
  | @conditional e b other m n word l us r vs ws _ _ he _ _ _ =>
    exact List.forall_mem_singleton.2 ⟨Nat.le_max_left _ _, us, ⟨[word, l], r :: (vs ++ ws), by simp⟩, he⟩
  | @repetition e b n word l us r vs _ _ he _ _ =>
    exact List.forall_mem_singleton.2 ⟨Nat.le_max_left _ _, us, ⟨[word, l], r :: vs, by simp⟩, he⟩
  | block => exact nofun

end Statement

mutual

/-- The parts of a statement are derived from its tokens. -/
theorem Statement.Flattens.parts {s : Statement} {n : Nat} {ts : List Token} (h : s.Flattens n ts) :
    ∀ part ∈ s.parts, part.DerivedWithin n ts := by
  have hself : s.DerivedWithin n ts := ⟨n, ts, Nat.le_refl n, List.infix_rfl, h⟩
  match h with
  | .declaration .. | .assignment .. | .read .. | .write .. =>
    rw [Statement.parts, List.forall_mem_singleton]
    exact hself
  | @Statement.Flattens.conditional _ _ _ m n word l us r vs ws _ _ _ _ hthen helse =>
    rw [Statement.parts, List.forall_mem_cons, List.forall_mem_append]
    refine ⟨hself, fun part hpart => ?_, fun part hpart => ?_⟩
    · exact (Block.Flattens.parts hthen part hpart).mono (by omega) ⟨word :: l :: (us ++ [r]), ws, by simp⟩
    · exact (Statement.FlattensElse.parts helse part hpart).mono (by omega)
        ⟨word :: l :: (us ++ r :: vs), [], by simp⟩
  | @Statement.Flattens.repetition _ _ n word l us r vs _ _ _ _ hbody =>
    rw [Statement.parts, List.forall_mem_cons]
    refine ⟨hself, fun part hpart => ?_⟩
    exact (Block.Flattens.parts hbody part hpart).mono (Nat.le_max_right _ _) ⟨word :: l :: (us ++ [r]), [], by simp⟩
  | .block hb =>
    rw [Statement.parts, List.forall_mem_cons]
    exact ⟨hself, Block.Flattens.parts hb⟩

theorem Block.Flattens.parts {b : Block} {n : Nat} {ts : List Token} (h : b.Flattens n ts) :
    ∀ part ∈ b.parts, part.DerivedWithin n ts := by
  match h with
  | @Block.Flattens.mk _ _ l us r _ hall _ =>
    rw [Block.parts]
    exact fun part hpart => (Statement.FlattensAll.parts hall part hpart).mono (Nat.le_succ _) ⟨[l], [r], by simp⟩

theorem Statement.FlattensElse.parts {other : Option Block} {n : Nat} {ts : List Token}
    (h : Statement.FlattensElse other n ts) : ∀ part ∈ Statement.partsElse other, part.DerivedWithin n ts := by
  match h with
  | .none =>
    rw [Statement.partsElse]
    exact nofun
  | @Statement.FlattensElse.block _ _ word us _ hb =>
    rw [Statement.partsElse]
    exact fun part hpart =>
      (Block.Flattens.parts hb part hpart).mono (Nat.le_refl _) (List.suffix_cons word us).isInfix
  | @Statement.FlattensElse.conditional _ _ word us _ hs _ =>
    rw [Statement.partsElse, Block.parts, Statement.partsAll, Statement.partsAll, List.append_nil]
    exact fun part hpart =>
      (Statement.Flattens.parts hs part hpart).mono (Nat.le_refl _) (List.suffix_cons word us).isInfix

/-- The parts of statements in a row are derived from their tokens. -/
theorem Statement.FlattensAll.parts {ss : List Statement} {n : Nat} {ts : List Token}
    (h : Statement.FlattensAll ss n ts) : ∀ part ∈ Statement.partsAll ss, part.DerivedWithin n ts := by
  match h with
  | .nil =>
    rw [Statement.partsAll]
    exact nofun
  | @Statement.FlattensAll.cons _ _ _ _ us vs hs hss =>
    rw [Statement.partsAll, List.forall_mem_append]
    refine ⟨fun part hpart => ?_, fun part hpart => ?_⟩
    · exact (Statement.Flattens.parts hs part hpart).mono (Nat.le_max_left _ _) (List.prefix_append us vs).isInfix
    · exact (Statement.FlattensAll.parts hss part hpart).mono (Nat.le_max_right _ _) (List.suffix_append us vs).isInfix

end

end Portugol
