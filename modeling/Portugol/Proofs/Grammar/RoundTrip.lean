import Portugol.Proofs.Grammar.Parsing
import Portugol.Proofs.Grammar.Printing

/-! # Reading what was printed

A printed program is read again, without a change but for its positions, if it is not nested too deep; otherwise the
first error is that it is (`Program.parse_text`). The tokens of the printed text flatten from a program that differs
from the printed one in its positions alone, those of the tokens: it is found by giving each node the place of its
token (`exists_flattens`). -/
namespace Portugol

/-! ## Printed tokens are spelled so that they are found again -/

theorem Value.exists_token {v : Value} (h : v.Printable) : ∃ kind, v.token? = some kind ∧ kind.Spellable := by
  cases v with
  | integer n => exact ⟨.integer n, rfl, h⟩
  | boolean b => cases b <;> exact ⟨_, rfl, trivial⟩
  | text s => exact ⟨.text s, rfl, trivial⟩
  | real | undefined => exact h.elim

theorem Expr.spellable {e : Expr} (h : e.Printable) : ∀ kind ∈ e.kinds, kind.Spellable := by
  induction e with
  | literal v p =>
    obtain ⟨kind, hkind, hspell⟩ := Value.exists_token h
    simpa [kinds, hkind] using hspell
  | name x p => exact List.forall_mem_singleton.2 h
  | group inner ih =>
    rw [kinds, List.forall_mem_cons, List.forall_mem_append, List.forall_mem_singleton]
    exact ⟨trivial, ih h, trivial⟩
  | unary op operand p ih =>
    rw [kinds, List.forall_mem_cons]
    exact ⟨trivial, ih h⟩
  | binary lhs op rhs p ihl ihr =>
    rw [kinds, List.forall_mem_append, List.forall_mem_cons]
    exact ⟨ihl h.1, trivial, ihr h.2⟩

namespace Statement

theorem spellable_init {init : Option Expr} (h : ∀ e ∈ init, e.Printable) :
    ∀ kind ∈ initKinds init, kind.Spellable := by
  cases init with
  | none => exact nofun
  | some e => exact List.forall_mem_cons.2 ⟨trivial, Expr.spellable (h e rfl)⟩

theorem spellable_more {es : List Expr} (h : ∀ e ∈ es, e.Printable) :
    ∀ kind ∈ moreKinds es, kind.Spellable := by
  induction es with
  | nil => exact nofun
  | cons e es ih =>
    obtain ⟨he, hes⟩ := List.forall_mem_cons.1 h
    rw [moreKinds, List.forall_mem_cons, List.forall_mem_append]
    exact ⟨trivial, Expr.spellable he, ih hes⟩

theorem spellable_list {es : List Expr} (h : ∀ e ∈ es, e.Printable) :
    ∀ kind ∈ listKinds es, kind.Spellable := by
  cases es with
  | nil => exact nofun
  | cons e es =>
    obtain ⟨he, hes⟩ := List.forall_mem_cons.1 h
    rw [listKinds, List.forall_mem_append]
    exact ⟨Expr.spellable he, spellable_more hes⟩

end Statement

mutual

theorem Statement.spellable (s : Statement) (h : ∀ part ∈ s.parts, part.Printable) :
    ∀ kind ∈ s.kinds, kind.Spellable := by
  match s with
  | .declaration x type init p =>
    rw [Statement.parts, List.forall_mem_singleton] at h
    have hx : IsName x := h.target x rfl
    have hinit := Statement.spellable_init fun e he => h.exprs e (Option.mem_toList.2 he)
    simp only [Statement.kinds, List.forall_mem_cons, List.forall_mem_append]
    exact ⟨trivial, hx, hinit, trivial, nofun⟩
  | .assignment x value p =>
    rw [Statement.parts, List.forall_mem_singleton] at h
    have hx : IsName x := h.target x rfl
    have hvalue := Expr.spellable (h.exprs value (.head _))
    simp only [Statement.kinds, Statement.initKinds, List.forall_mem_cons, List.forall_mem_append]
    exact ⟨hx, ⟨trivial, hvalue⟩, trivial, nofun⟩
  | .read x p =>
    rw [Statement.parts, List.forall_mem_singleton] at h
    have hx : IsName x := h.target x rfl
    simp only [Statement.kinds, List.forall_mem_cons]
    exact ⟨trivial, trivial, hx, trivial, trivial, nofun⟩
  | .write exprs p =>
    rw [Statement.parts, List.forall_mem_singleton] at h
    have hexprs := Statement.spellable_list h.exprs
    simp only [Statement.kinds, List.forall_mem_cons, List.forall_mem_append]
    exact ⟨trivial, trivial, hexprs, trivial, trivial, nofun⟩
  | .conditional condition thenBlock elseBlock p =>
    rw [Statement.parts, List.forall_mem_cons, List.forall_mem_append] at h
    have hcondition := Expr.spellable (h.1.exprs condition (.head _))
    have hthen := Block.spellable thenBlock h.2.1
    have helse := Statement.spellable_else elseBlock h.2.2
    simp only [Statement.kinds, List.forall_mem_cons, List.forall_mem_append]
    exact ⟨trivial, trivial, hcondition, trivial, hthen, helse⟩
  | .repetition condition body p =>
    rw [Statement.parts, List.forall_mem_cons] at h
    have hcondition := Expr.spellable (h.1.exprs condition (.head _))
    have hbody := Block.spellable body h.2
    simp only [Statement.kinds, List.forall_mem_cons, List.forall_mem_append]
    exact ⟨trivial, trivial, hcondition, trivial, hbody⟩
  | .block inner =>
    rw [Statement.parts, List.forall_mem_cons] at h
    exact Block.spellable inner h.2

theorem Block.spellable (b : Block) (h : ∀ part ∈ b.parts, part.Printable) :
    ∀ kind ∈ b.kinds, kind.Spellable := by
  match b with
  | ⟨statements, p⟩ =>
    rw [Block.kinds, List.forall_mem_cons, List.forall_mem_append, List.forall_mem_singleton]
    exact ⟨trivial, Statement.spellable_all statements h, trivial⟩

theorem Statement.spellable_else (other : Option Block)
    (h : ∀ part ∈ Statement.partsElse other, part.Printable) :
    ∀ kind ∈ Statement.kindsElse other, kind.Spellable := by
  match other with
  | none =>
    rw [Statement.kindsElse]
    exact nofun
  | some b =>
    rw [Statement.kindsElse, List.forall_mem_cons]
    exact ⟨trivial, Block.spellable b h⟩

theorem Statement.spellable_all (ss : List Statement) (h : ∀ part ∈ Statement.partsAll ss, part.Printable) :
    ∀ kind ∈ Statement.kindsAll ss, kind.Spellable := by
  match ss with
  | [] =>
    rw [Statement.kindsAll]
    exact nofun
  | s :: rest =>
    rw [Statement.partsAll, List.forall_mem_append] at h
    rw [Statement.kindsAll, List.forall_mem_append]
    exact ⟨Statement.spellable s h.1, Statement.spellable_all rest h.2⟩

end

/-! ## Giving each node the place of its token -/

theorem Expr.exists_flattens {e : Expr} (hlevel : e.Leveled) (hprint : e.Printable) {τ : Nat}
    (hτ : τ ≤ e.tightness) {ts : List Token} (hts : ts.map Token.kind = e.kinds) :
    ∃ e' : Expr, e'.Flattens τ ts ∧ e'.unplaced = e.unplaced := by
  induction e generalizing τ ts with
  | literal v p =>
    obtain ⟨kind, hkind, -⟩ := Value.exists_token hprint
    rw [kinds, hkind] at hts
    obtain ⟨t, rfl, ht⟩ := List.map_eq_singleton_iff.1 hts
    exact ⟨.literal v t.position, .literal (hkind.trans (congrArg some ht.symm)), rfl⟩
  | name x p =>
    obtain ⟨t, rfl, ht⟩ := List.map_eq_singleton_iff.1 hts
    exact ⟨.name x t.position, .name ht, rfl⟩
  | group inner ih =>
    obtain ⟨l, us, rfl, hl, hus⟩ := List.map_eq_cons_iff.1 hts
    obtain ⟨ts, rs, rfl, hinner, hrs⟩ := List.map_eq_append_iff.1 hus
    obtain ⟨r, rfl, hr⟩ := List.map_eq_singleton_iff.1 hrs
    obtain ⟨inner', hflat, hsame⟩ := ih hlevel hprint (Nat.zero_le _) hinner
    exact ⟨.group inner', .group hl hflat hr, congrArg Expr.group hsame⟩
  | unary op operand p ih =>
    obtain ⟨t, us, rfl, ht, hus⟩ := List.map_eq_cons_iff.1 hts
    obtain ⟨operand', hflat, hsame⟩ := ih hlevel.2 hprint (Nat.le_of_eq hlevel.1.symm) hus
    exact ⟨.unary op operand' t.position, .unary ht hflat, by rw [unplaced, unplaced, hsame]⟩
  | binary lhs op rhs p ihl ihr =>
    obtain ⟨hl, hr, hll, hlr⟩ := hlevel
    obtain ⟨ls, us, rfl, hls, hus⟩ := List.map_eq_append_iff.1 hts
    obtain ⟨t, rs, rfl, ht, hrs⟩ := List.map_eq_cons_iff.1 hus
    obtain ⟨lhs', hflatl, hsamel⟩ := ihl hll hprint.1 hl hls
    obtain ⟨rhs', hflatr, hsamer⟩ := ihr hlr hprint.2 hr hrs
    exact ⟨.binary lhs' op rhs' t.position, .binary hτ hflatl ht hflatr, by rw [unplaced, unplaced, hsamel, hsamer]⟩

/-- As the last lemma, with the cost that reading takes. -/
theorem Expr.exists_flattens_cost {e : Expr} (hlevel : e.Leveled) (hprint : e.Printable) {ts : List Token}
    (hts : ts.map Token.kind = e.kinds) :
    ∃ e' : Expr, e'.Flattens 0 ts ∧ e'.unplaced = e.unplaced ∧ e'.cost = e.cost := by
  obtain ⟨e', hflat, hsame⟩ := exists_flattens hlevel hprint (Nat.zero_le _) hts
  exact ⟨e', hflat, hsame, cost_eq_of_unplaced_eq hsame⟩

namespace Statement

theorem exists_flattens_init {init : Option Expr} (hlevel : ∀ e ∈ init, e.Leveled)
    (hprint : ∀ e ∈ init, e.Printable) {ts : List Token} (hts : ts.map Token.kind = initKinds init) :
    ∃ init', FlattensInit init' (Expr.costs init.toList) ts ∧
      init'.map Expr.unplaced = init.map Expr.unplaced := by
  cases init with
  | none =>
    obtain rfl := List.map_eq_nil_iff.1 hts
    exact ⟨none, .none, rfl⟩
  | some e =>
    obtain ⟨sign, us, rfl, hsign, hus⟩ := List.map_eq_cons_iff.1 hts
    obtain ⟨e', hflat, hsame, hcost⟩ := Expr.exists_flattens_cost (hlevel e rfl) (hprint e rfl) hus
    have hinit : FlattensInit (some e') e'.cost (sign :: us) := .some (.inl hsign) hflat
    exact ⟨some e', by simpa [Expr.costs, hcost] using hinit, congrArg some hsame⟩

theorem exists_flattens_more {es : List Expr} (hlevel : ∀ e ∈ es, e.Leveled) (hprint : ∀ e ∈ es, e.Printable)
    {ts : List Token} (hts : ts.map Token.kind = moreKinds es) :
    ∃ es', FlattensMore es' (Expr.costs es) ts ∧ es'.map Expr.unplaced = es.map Expr.unplaced := by
  induction es generalizing ts with
  | nil =>
    obtain rfl := List.map_eq_nil_iff.1 hts
    exact ⟨[], .nil, rfl⟩
  | cons e es ih =>
    obtain ⟨hle, hles⟩ := List.forall_mem_cons.1 hlevel
    obtain ⟨hpe, hpes⟩ := List.forall_mem_cons.1 hprint
    obtain ⟨comma, us, rfl, hcomma, hus⟩ := List.map_eq_cons_iff.1 hts
    obtain ⟨ts, us, rfl, hts, hus⟩ := List.map_eq_append_iff.1 hus
    obtain ⟨e', hflat, hsame, hcost⟩ := Expr.exists_flattens_cost hle hpe hts
    obtain ⟨es', hmore, hsames⟩ := ih hles hpes hus
    refine ⟨e' :: es', ?_, by rw [List.map_cons, List.map_cons, hsame, hsames]⟩
    rw [Expr.costs, ← hcost]
    exact .cons hcomma hflat hmore

/-- The tokens of a condition, up to its closing parenthesis, and those behind it. -/
theorem exists_flattens_condition {e : Expr} (hlevel : e.Leveled) (hprint : e.Printable) {ts : List Token}
    {rest : List TokenKind}
    (hts : ts.map Token.kind = .symbol .openParen :: (e.kinds ++ .symbol .closeParen :: rest)) :
    ∃ l us r vs, ∃ e' : Expr, ts = l :: (us ++ r :: vs) ∧ l.kind = .symbol .openParen ∧
      r.kind = .symbol .closeParen ∧ vs.map Token.kind = rest ∧ e'.Flattens 0 us ∧
      e'.unplaced = e.unplaced ∧ e'.cost = e.cost := by
  obtain ⟨l, us, rfl, hl, hus⟩ := List.map_eq_cons_iff.1 hts
  obtain ⟨us, vs, rfl, hcondition, hvs⟩ := List.map_eq_append_iff.1 hus
  obtain ⟨r, vs, rfl, hr, hvs⟩ := List.map_eq_cons_iff.1 hvs
  obtain ⟨e', hflat, hsame, hcost⟩ := Expr.exists_flattens_cost hlevel hprint hcondition
  exact ⟨l, us, r, vs, e', rfl, hl, hr, hvs, hflat, hsame, hcost⟩

theorem exists_flattens_write {e : Expr} {es : List Expr} {p : Position} (h : (write (e :: es) p).Printable)
    {ts : List Token} (hts : ts.map Token.kind = (write (e :: es) p).kinds) :
    ∃ s' : Statement, s'.Flattens (write (e :: es) p).nesting ts ∧ s'.unplaced = (write (e :: es) p).unplaced := by
  obtain ⟨hle, hles⟩ := List.forall_mem_cons.1 h.wellShaped.1
  obtain ⟨hpe, hpes⟩ := List.forall_mem_cons.1 h.exprs
  obtain ⟨word, us, rfl, hword, hus⟩ := List.map_eq_cons_iff.1 hts
  obtain ⟨l, us, rfl, hl, hus⟩ := List.map_eq_cons_iff.1 hus
  obtain ⟨us, rs, rfl, hlist, hrs⟩ := List.map_eq_append_iff.1 hus
  obtain ⟨r, rs, rfl, hr, hrs⟩ := List.map_eq_cons_iff.1 hrs
  obtain ⟨semicolon, rfl, hend⟩ := List.map_eq_singleton_iff.1 hrs
  obtain ⟨ts, us, rfl, he, hes⟩ := List.map_eq_append_iff.1 hlist
  obtain ⟨e', hflat, hsame, hcost⟩ := Expr.exists_flattens_cost hle hpe he
  obtain ⟨es', hmore, hsames⟩ := exists_flattens_more hles hpes hes
  refine ⟨.write (e' :: es') word.position, ?_, ?_⟩
  · rw [Statement.nesting, Expr.costs, ← hcost, List.append_assoc]
    exact .write hword hl hflat hmore hr hend
  · rw [Statement.unplaced, Statement.unplaced, List.map_cons, List.map_cons, hsame, hsames]

end Statement

mutual

theorem Statement.exists_flattens (s : Statement) (h : ∀ part ∈ s.parts, part.Printable) {ts : List Token}
    (hts : ts.map Token.kind = s.kinds) : ∃ s' : Statement, s'.Flattens s.nesting ts ∧ s'.unplaced = s.unplaced := by
  match s with
  | .declaration x type init p =>
    rw [Statement.parts, List.forall_mem_singleton] at h
    obtain ⟨word, us, rfl, hword, hus⟩ := List.map_eq_cons_iff.1 hts
    obtain ⟨name, us, rfl, hname, hus⟩ := List.map_eq_cons_iff.1 hus
    obtain ⟨ts, rs, rfl, hinit, hr⟩ := List.map_eq_append_iff.1 hus
    obtain ⟨semicolon, rfl, hend⟩ := List.map_eq_singleton_iff.1 hr
    have hlevel : ∀ e ∈ init, e.Leveled := fun e he => h.wellShaped.1 e (Option.mem_toList.2 he)
    have hprint : ∀ e ∈ init, e.Printable := fun e he => h.exprs e (Option.mem_toList.2 he)
    obtain ⟨init', hflat, hsame⟩ := Statement.exists_flattens_init hlevel hprint hinit
    refine ⟨.declaration x type init' word.position, .declaration hword hname hflat hend, ?_⟩
    rw [Statement.unplaced, Statement.unplaced, hsame]
  | .assignment x value p =>
    rw [Statement.parts, List.forall_mem_singleton] at h
    obtain ⟨name, us, rfl, hname, hus⟩ := List.map_eq_cons_iff.1 hts
    obtain ⟨ts, rs, rfl, hvalue, hr⟩ := List.map_eq_append_iff.1 hus
    obtain ⟨semicolon, rfl, hend⟩ := List.map_eq_singleton_iff.1 hr
    obtain ⟨sign, us, rfl, hsign, hus⟩ := List.map_eq_cons_iff.1 hvalue
    have hlevel : value.Leveled := h.wellShaped.1 value (.head _)
    have hprint : value.Printable := h.exprs value (.head _)
    obtain ⟨value', hflat, hsame, hcost⟩ := Expr.exists_flattens_cost hlevel hprint hus
    refine ⟨.assignment x value' name.position, ?_, by rw [Statement.unplaced, Statement.unplaced, hsame]⟩
    rw [Statement.nesting, ← hcost]
    exact .assignment hname (.some (.inl hsign) hflat) hend
  | .read x p =>
    obtain ⟨word, us, rfl, hword, hus⟩ := List.map_eq_cons_iff.1 hts
    obtain ⟨l, us, rfl, hl, hus⟩ := List.map_eq_cons_iff.1 hus
    obtain ⟨name, us, rfl, hname, hus⟩ := List.map_eq_cons_iff.1 hus
    obtain ⟨r, us, rfl, hr, hus⟩ := List.map_eq_cons_iff.1 hus
    obtain ⟨semicolon, rfl, hend⟩ := List.map_eq_singleton_iff.1 hus
    exact ⟨.read x word.position, .read hword hl hname hr hend, rfl⟩
  | .write [] p =>
    rw [Statement.parts, List.forall_mem_singleton] at h
    exact absurd rfl (h.wellShaped.2 p)
  | .write (e :: es) p =>
    rw [Statement.parts, List.forall_mem_singleton] at h
    exact Statement.exists_flattens_write h hts
  | .conditional condition thenBlock elseBlock p =>
    rw [Statement.parts, List.forall_mem_cons, List.forall_mem_append] at h
    obtain ⟨hself, hthen, helse⟩ := h
    obtain ⟨word, us, rfl, hword, hus⟩ := List.map_eq_cons_iff.1 hts
    have hlevel : condition.Leveled := hself.wellShaped.1 condition (.head _)
    have hprint : condition.Printable := hself.exprs condition (.head _)
    obtain ⟨l, ts, r, us, condition', rfl, hl, hr, hus, hflat, hsame, hcost⟩ :=
      Statement.exists_flattens_condition hlevel hprint hus
    obtain ⟨us, vs, rfl, hus, hvs⟩ := List.map_eq_append_iff.1 hus
    obtain ⟨then', hflatThen, hsameThen⟩ := Block.exists_flattens thenBlock hthen hus
    obtain ⟨else', hflatElse, hsameElse⟩ := Statement.exists_flattens_else elseBlock helse hvs
    refine ⟨.conditional condition' then' else' word.position, ?_, ?_⟩
    · rw [Statement.nesting, ← hcost]
      exact .conditional hword hl hflat hr hflatThen hflatElse
    · rw [Statement.unplaced, Statement.unplaced, hsame, hsameThen, hsameElse]
  | .repetition condition body p =>
    rw [Statement.parts, List.forall_mem_cons] at h
    obtain ⟨hself, hbody⟩ := h
    obtain ⟨word, us, rfl, hword, hus⟩ := List.map_eq_cons_iff.1 hts
    have hlevel : condition.Leveled := hself.wellShaped.1 condition (.head _)
    have hprint : condition.Printable := hself.exprs condition (.head _)
    obtain ⟨l, ts, r, us, condition', rfl, hl, hr, hus, hflat, hsame, hcost⟩ :=
      Statement.exists_flattens_condition hlevel hprint hus
    obtain ⟨body', hflatBody, hsameBody⟩ := Block.exists_flattens body hbody hus
    refine ⟨.repetition condition' body' word.position, ?_, ?_⟩
    · rw [Statement.nesting, ← hcost]
      exact .repetition hword hl hflat hr hflatBody
    · rw [Statement.unplaced, Statement.unplaced, hsame, hsameBody]
  | .block inner =>
    rw [Statement.parts, List.forall_mem_cons] at h
    obtain ⟨inner', hflat, hsame⟩ := Block.exists_flattens inner h.2 hts
    exact ⟨.block inner', .block hflat, by rw [Statement.unplaced, Statement.unplaced, hsame]⟩

theorem Block.exists_flattens (b : Block) (h : ∀ part ∈ b.parts, part.Printable) {ts : List Token}
    (hts : ts.map Token.kind = b.kinds) : ∃ b' : Block, b'.Flattens b.nesting ts ∧ b'.unplaced = b.unplaced := by
  match b with
  | ⟨statements, p⟩ =>
    obtain ⟨l, us, rfl, hl, hus⟩ := List.map_eq_cons_iff.1 hts
    obtain ⟨ts, rs, rfl, hall, hrs⟩ := List.map_eq_append_iff.1 hus
    obtain ⟨r, rfl, hr⟩ := List.map_eq_singleton_iff.1 hrs
    obtain ⟨statements', hflat, hsame⟩ := Statement.exists_flattens_all statements h hall
    exact ⟨⟨statements', l.position⟩, .mk hl hflat hr, by rw [Block.unplaced, Block.unplaced, hsame]⟩

theorem Statement.exists_flattens_else (other : Option Block)
    (h : ∀ part ∈ Statement.partsElse other, part.Printable) {ts : List Token}
    (hts : ts.map Token.kind = Statement.kindsElse other) :
    ∃ other', Statement.FlattensElse other' (Statement.nestingElse other) ts ∧
      Statement.unplacedElse other' = Statement.unplacedElse other := by
  match other with
  | none =>
    obtain rfl := List.map_eq_nil_iff.1 hts
    exact ⟨none, .none, rfl⟩
  | some b =>
    obtain ⟨word, us, rfl, hword, hus⟩ := List.map_eq_cons_iff.1 hts
    obtain ⟨b', hflat, hsame⟩ := Block.exists_flattens b h hus
    exact ⟨some b', .block hword hflat, by rw [Statement.unplacedElse, Statement.unplacedElse, hsame]⟩

theorem Statement.exists_flattens_all (ss : List Statement)
    (h : ∀ part ∈ Statement.partsAll ss, part.Printable) {ts : List Token}
    (hts : ts.map Token.kind = Statement.kindsAll ss) :
    ∃ ss', Statement.FlattensAll ss' (Statement.nestingAll ss) ts ∧
      Statement.unplacedAll ss' = Statement.unplacedAll ss := by
  match ss with
  | [] =>
    obtain rfl := List.map_eq_nil_iff.1 hts
    exact ⟨[], .nil, rfl⟩
  | s :: rest =>
    rw [Statement.partsAll, List.forall_mem_append] at h
    obtain ⟨ts, us, rfl, hts, hus⟩ := List.map_eq_append_iff.1 hts
    obtain ⟨s', hflat, hsame⟩ := Statement.exists_flattens s h.1 hts
    obtain ⟨rest', hall, hsames⟩ := Statement.exists_flattens_all rest h.2 hus
    exact ⟨s' :: rest', .cons hflat hall, by rw [Statement.unplacedAll, Statement.unplacedAll, hsame, hsames]⟩

end

/-! ## The printed text -/

/-- The tokens of a printed text are those of the printed program in other places, and there is no lexical error. -/
theorem Program.exists_flattens_text {program : Program} (h : program.Printable) :
    ∃ ss, Statement.FlattensAll ss (Statement.nestingAll program.statements) (tokenize program.text).tokens ∧
      Statement.unplacedAll ss = Statement.unplacedAll program.statements ∧
      Program.parse program.text =
        Grammar.programFrom [] (.start (tokenize program.text).tokens (tokenize program.text).stop) := by
  obtain ⟨htokens, herrors⟩ := tokenize_spaced (Statement.spellable_all program.statements h)
  obtain ⟨ss, hflat, hsame⟩ := Statement.exists_flattens_all program.statements h htokens
  refine ⟨ss, hflat, hsame, ?_⟩
  rw [Program.parse, Tokens.cursor, Program.text, Program.kinds, herrors]

/-- The text of a program that is not nested too deep parses to the same program in other places; that of one
nested deeper does not parse, and the first error tells that shallower nesting was expected. -/
theorem Program.parse_text {program : Program} (h : program.Printable) :
    (program.Fits → ∃ program', Program.parse program.text = .ok program' ∧
      program'.unplaced = program.unplaced) ∧
    (¬ program.Fits → ∃ e errors, Program.parse program.text = .error (.unexpected e :: errors) ∧
      e.expected = .shallowerNesting) := by
  obtain ⟨ss, hflat, hsame, hparse⟩ := Program.exists_flattens_text h
  obtain ⟨hfit, hdeep⟩ := Grammar.programFrom_flattens hflat (tokenize program.text).stop
  rw [hparse, program.fits_iff, Nat.not_le]
  exact ⟨fun hn => ⟨⟨ss⟩, hfit hn, by rw [Program.unplaced, Program.unplaced, hsame]⟩, hdeep⟩

/-- The number one behind so many minus signs. -/
def Expr.negated : Nat → Expr
  | 0 => .literal (.integer 1) .start
  | n + 1 => .unary .negate (negated n) .start

theorem Expr.negated_spec (n : Nat) :
    (negated n).tightness = tightest ∧ (negated n).Leveled ∧ (negated n).Printable ∧ (negated n).cost = n := by
  induction n with
  | zero =>
    have hone : 0 ≤ (1 : Int64).toInt := by decide
    exact ⟨rfl, trivial, hone, rfl⟩
  | succ n ih =>
    obtain ⟨htight, hlevel, hprint, hcost⟩ := ih
    exact ⟨rfl, ⟨htight, hlevel⟩, hprint, congrArg (· + 1) hcost⟩

def Program.negating (n : Nat) : Program := ⟨[.write [.negated n] .start]⟩

theorem Program.printable_negating (n : Nat) : (Program.negating n).Printable := by
  obtain ⟨-, hlevel, hprint, -⟩ := Expr.negated_spec n
  refine List.forall_mem_singleton.2 ⟨⟨?_, nofun⟩, ?_, nofun⟩
  · exact List.forall_mem_singleton.2 hlevel
  · exact List.forall_mem_singleton.2 hprint

theorem Program.fits_negating_iff (n : Nat) : (Program.negating n).Fits ↔ n ≤ Grammar.maxNesting := by
  obtain ⟨-, -, -, hcost⟩ := Expr.negated_spec n
  rw [Program.fits_iff, Program.negating]
  simp [Statement.nestingAll, Statement.nesting, Expr.costs, hcost]

/-- One hundred signs are as many as can be read. -/
theorem Program.parse_text_negating :
    (∃ program', Program.parse (Program.negating 100).text = .ok program' ∧
      program'.unplaced = (Program.negating 100).unplaced) ∧
    (∃ e errors, Program.parse (Program.negating 101).text = .error (.unexpected e :: errors) ∧
      e.expected = .shallowerNesting) := by
  have hfits := (Program.fits_negating_iff 100).2 (by decide)
  have hdeep := mt (Program.fits_negating_iff 101).1 (by decide)
  exact ⟨(Program.parse_text (Program.printable_negating 100)).1 hfits,
    (Program.parse_text (Program.printable_negating 101)).2 hdeep⟩

end Portugol
