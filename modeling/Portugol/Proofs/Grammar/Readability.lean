import Portugol.Proofs.Grammar.Recovery
import Portugol.Proofs.Grammar.RoundTrip
import Portugol.Proofs.Token.MaximalMunch

/-! # What symbolic texts tell

The symbolic text of an expression tells the expression, up to the places of its parts, as long as it has no real
number (`Expr.symbolic_tells`). Its first character tells a word from a quoted text and from what is in parentheses.
A word ends where a character comes that continues none, and a quoted text tells character by character what it
quotes (`Text.Quoted.Escaped`). In parentheses the operator comes first: it is what is there before the first
character that an expression can begin with (`Expr.Head.front`). So what stands behind the text of an expression is
told as well, and the texts of two operands are told apart by induction. -/
namespace Portugol

/-! ## Quoted texts -/

namespace Text.Quoted

/-! ### Hexadecimal digits -/

theorem exists_digit_of_mem_toDigits {n : Nat} {c : Char} (h : c ∈ Nat.toDigits 16 n) : ∃ d, c = Nat.digitChar d := by
  induction n using Nat.strong_induction_on with
  | _ n ih =>
    rw [Nat.toDigits_eq_if (by decide)] at h
    split at h
    · exact ⟨n, List.mem_singleton.1 h⟩
    · next hn =>
      rcases List.mem_append.1 h with h | h
      · exact ih (n / 16) (Nat.div_lt_self (by omega) (by decide)) h
      · exact ⟨n % 16, List.mem_singleton.1 h⟩

theorem digitChar_inj {d d' : Nat} (hd : d < 16) (hd' : d' < 16) (h : d.digitChar = d'.digitChar) : d = d' := by
  have hall : ∀ a < 16, ∀ b < 16, a.digitChar = b.digitChar → a = b := by decide
  exact hall d hd d' hd' h

theorem toDigits_inj {m n : Nat} (h : Nat.toDigits 16 m = Nat.toDigits 16 n) : m = n := by
  induction m using Nat.strong_induction_on generalizing n with
  | _ m ih =>
    have hne (k : Nat) : Nat.toDigits 16 k ≠ [] := Nat.toDigits_ne_nil
    rw [Nat.toDigits_eq_if (n := m) (by decide), Nat.toDigits_eq_if (n := n) (by decide)] at h
    split at h <;> split at h
    · next hm hn => exact digitChar_inj hm hn (List.singleton_inj.1 h)
    · next hm hn =>
      have hlast : [] ++ [m.digitChar] = Nat.toDigits 16 (n / 16) ++ [(n % 16).digitChar] := h
      exact absurd (List.append_inj' hlast rfl).1.symm (hne _)
    · next hm hn =>
      have hlast : Nat.toDigits 16 (m / 16) ++ [(m % 16).digitChar] = [] ++ [n.digitChar] := h
      exact absurd (List.append_inj' hlast rfl).1 (hne _)
    · next hm hn =>
      obtain ⟨hhigh, hlow⟩ := List.append_inj' h rfl
      have hdiv := ih (m / 16) (Nat.div_lt_self (by omega) (by decide)) hhigh
      have hmod := digitChar_inj (Nat.mod_lt m (by decide)) (Nat.mod_lt n (by decide)) (List.singleton_inj.1 hlow)
      omega

/-! ### Characters -/

def meaning (d : Char) : Char :=
  if d = '0' then '\x00' else if d = 't' then '\t' else if d = 'r' then '\r' else if d = 'n' then '\n' else d

inductive Escaped : Char → List Char → Prop where
  | plain {c} (hquote : c ≠ '"') (hslash : c ≠ '\\') : Escaped c [c]
  | short {d} (hd : d ≠ 'u') : Escaped (meaning d) ['\\', d]
  | long {c} : Escaped c ('\\' :: 'u' :: '\x7b' :: (Nat.toDigits 16 c.toNat ++ ['\x7d']))

theorem escaped_escape (c : Char) : Escaped c (escape '"' c) := by
  unfold escape
  split
  · next h =>
    rw [Bool.or_eq_true, decide_eq_true_eq, decide_eq_true_eq] at h
    rcases h with rfl | rfl
    · exact .short (d := '"') (by decide)
    · exact .short (d := '\\') (by decide)
  · next h =>
    rw [Bool.or_eq_true, decide_eq_true_eq, decide_eq_true_eq, not_or] at h
    split
    · next hc => subst hc; exact .short (d := '0') (by decide)
    split
    · next hc => subst hc; exact .short (d := 't') (by decide)
    split
    · next hc => subst hc; exact .short (d := 'r') (by decide)
    split
    · next hc => subst hc; exact .short (d := 'n') (by decide)
    split
    · exact .long
    · exact .plain h.1 h.2

theorem digits_cancel {m n : Nat} {rest rest' : List Char}
    (h : Nat.toDigits 16 m ++ '\x7d' :: rest = Nat.toDigits 16 n ++ '\x7d' :: rest') : m = n ∧ rest = rest' := by
  have hdigits (k : Nat) : ∀ c ∈ Nat.toDigits 16 k, (c != '\x7d') = true := by
    intro c hc
    obtain ⟨d, rfl⟩ := exists_digit_of_mem_toDigits hc
    simp
  have hstop (rest : List Char) : ∀ c ∈ ('\x7d' :: rest).head?, (c != '\x7d') = false := by
    rintro c ⟨⟩
    rfl
  obtain ⟨hsame, hrest⟩ := Piece.run_cancel (hdigits m) (hdigits n) (hstop rest) (hstop rest') h
  exact ⟨toDigits_inj hsame, (List.cons.inj hrest).2⟩

/-- What is written tells the character and where it ends. -/
theorem Escaped.cancel {c c' : Char} {code code' rest rest' : List Char} (h : Escaped c code) (h' : Escaped c' code')
    (hsame : code ++ rest = code' ++ rest') : c = c' ∧ rest = rest' := by
  cases h with
  | plain hquote hslash =>
    cases h' with
    | plain => exact List.cons.inj hsame
    | short | long => exact absurd (List.cons.inj hsame).1 hslash
  | @short d hd =>
    cases h' with
    | plain hquote hslash => exact absurd (List.cons.inj hsame).1.symm hslash
    | @short d' hd' =>
      obtain ⟨rfl, hrest⟩ := List.cons.inj (List.cons.inj hsame).2
      exact ⟨rfl, hrest⟩
    | long => exact absurd (List.cons.inj (List.cons.inj hsame).2).1 hd
  | long =>
    cases h' with
    | plain hquote hslash => exact absurd (List.cons.inj hsame).1.symm hslash
    | short hd => exact absurd (List.cons.inj (List.cons.inj hsame).2).1.symm hd
    | long =>
      simp only [List.cons_append, List.append_assoc, List.nil_append, List.cons.injEq, true_and] at hsame
      obtain ⟨hnumber, hrest⟩ := digits_cancel hsame
      exact ⟨Char.toNat_inj.1 hnumber, hrest⟩

theorem Escaped.ne_quote {c : Char} {code rest rest' : List Char} (h : Escaped c code) :
    code ++ rest ≠ '"' :: rest' := by
  cases h with
  | plain hquote => exact fun hsame => hquote (List.cons.inj hsame).1
  | short | long => simp

/-- A quoted text tells what is quoted and where it ends. -/
theorem quoted_cancel {s s' rest rest' : List Char}
    (h : s.flatMap (escape '"') ++ '"' :: rest = s'.flatMap (escape '"') ++ '"' :: rest') : s = s' ∧ rest = rest' := by
  induction s generalizing s' with
  | nil =>
    cases s' with
    | nil => exact ⟨rfl, (List.cons.inj h).2⟩
    | cons c' s' =>
      rw [List.flatMap_cons, List.append_assoc] at h
      exact absurd h.symm (escaped_escape c').ne_quote
  | cons c s ih =>
    cases s' with
    | nil =>
      rw [List.flatMap_cons, List.append_assoc] at h
      exact absurd h (escaped_escape c).ne_quote
    | cons c' s' =>
      rw [List.flatMap_cons, List.flatMap_cons, List.append_assoc, List.append_assoc] at h
      obtain ⟨rfl, hlater⟩ := (escaped_escape c).cancel (escaped_escape c') h
      obtain ⟨rfl, hrest⟩ := ih hlater
      exact ⟨rfl, hrest⟩

end Text.Quoted

namespace Expr

/-! ## The beginning of a text -/

/-- A word stands for itself, a text between quotes, and all else in parentheses. -/
inductive Opening where
  | word
  | quote
  | paren

def opening : Expr → Opening
  | .literal (.text _) _ => .quote
  | .literal _ _ | .name _ _ => .word
  | .group _ | .unary .. | .binary .. => .paren

def begins (c : Char) : Bool := c = '(' || c = '"' || Piece.continuesWord c

def Opening.of (c : Char) : Opening := if c = '"' then .quote else if c = '(' then .paren else .word

theorem Opening.of_continuesWord {c : Char} (h : Piece.continuesWord c) : Opening.of c = .word := by
  have hquote : c ≠ '"' := by
    rintro rfl
    exact absurd h (by decide +kernel)
  have hparen : c ≠ '(' := by
    rintro rfl
    exact absurd h (by decide +kernel)
  rw [Opening.of, if_neg hquote, if_neg hparen]

def ofToken? (kind : TokenKind) : Option Expr :=
  match Grammar.FactorStart.of (some kind) with
  | .literal value => some (.literal value .start)
  | .name x => some (.name x .start)
  | _ => none

/-- A word is spelled as the token that it is read from. -/
theorem exists_word {e : Expr} (h : e.Printable) (ho : e.opening = .word) : ∃ kind : TokenKind, kind.Spellable ∧
    e.symbolic.toList = kind.spelling ∧ (∀ c ∈ kind.spelling, Piece.continuesWord c) ∧
    ofToken? kind = some e.unplaced := by
  cases e with
  | literal v p =>
    cases v with
    | integer n =>
      refine ⟨.integer n, h, rfl, fun c hc => Piece.continuesWord_of_isDigit ?_, rfl⟩
      rw [TokenKind.spelling, Piece.toList_render h] at hc
      exact Nat.isDigit_of_mem_toDigits (by decide) (by decide) hc
    | boolean b =>
      have hword (k : Keyword) : ∀ c ∈ k.word.toList, Piece.continuesWord c := by
        obtain ⟨c, letters, hk, hc, hletters⟩ := Piece.isAlpha_word k
        rw [hk, List.forall_mem_cons]
        exact ⟨Piece.continuesWord_of_isAlpha hc, fun d hd => Piece.continuesWord_of_isAlpha (hletters d hd)⟩
      cases b with
      | true => exact ⟨.keyword .verdadeiro, trivial, rfl, hword .verdadeiro, rfl⟩
      | false => exact ⟨.keyword .falso, trivial, rfl, hword .falso, rfl⟩
    | text s => cases ho
    | real | undefined => exact h.elim
  | name x p =>
    obtain ⟨c, letters, hx, hc, hletters, -⟩ := id h
    refine ⟨.name x, h, rfl, ?_, rfl⟩
    rw [TokenKind.spelling, hx, List.forall_mem_cons]
    exact ⟨Piece.continuesWord_of_startsWord hc, hletters⟩
  | group | unary | binary => cases ho

theorem exists_text {e : Expr} (ho : e.opening = .quote) : ∃ s p, e = .literal (.text s) p := by
  cases e with
  | literal v p =>
    cases v with
    | text s => exact ⟨s, p, rfl⟩
    | undefined | integer | real | boolean => cases ho
  | name | group | unary | binary => cases ho

inductive Head where
  | group
  | unary (op : UnaryOp)
  | binary (op : BinaryOp)
deriving DecidableEq

def head? : Expr → Option Head
  | .group _ => some .group
  | .unary op _ _ => some (.unary op)
  | .binary _ op _ _ => some (.binary op)
  | .literal .. | .name .. => none

def Head.front : Head → List Char
  | .group => []
  | .unary op => op.symbol.characters
  | .binary op => op.symbol.characters ++ [' ']

def operands : Expr → List Char
  | .group inner => inner.symbolic.toList
  | .unary _ operand _ => operand.symbolic.toList
  | .binary lhs _ rhs _ => lhs.symbolic.toList ++ ' ' :: rhs.symbolic.toList
  | .literal .. | .name .. => []

theorem symbolic_of_head {e : Expr} {head : Head} (hhead : e.head? = some head) :
    e.symbolic.toList = '(' :: (head.front ++ (e.operands ++ [')'])) := by
  cases e with
  | literal | name => cases hhead
  | group | unary | binary =>
    cases hhead
    simp [symbolic, Head.front, operands, UnaryOp.spelling, BinaryOp.spelling, Symbol.spelling]

theorem exists_head {e : Expr} (ho : e.opening = .paren) : ∃ head, e.head? = some head := by
  cases e with
  | literal v p => cases v <;> cases ho
  | name => cases ho
  | group | unary | binary => exact ⟨_, rfl⟩

/-- The first character tells what an expression begins with. -/
theorem exists_first {e : Expr} (h : e.Printable) :
    ∃ c cs, e.symbolic.toList = c :: cs ∧ begins c ∧ Opening.of c = e.opening := by
  cases ho : e.opening with
  | word =>
    obtain ⟨kind, hkind, htext, hall, -⟩ := exists_word h ho
    obtain ⟨c, body, hspelling, -⟩ := Piece.munch_spelling hkind
    rw [hspelling] at htext hall
    have hc : Piece.continuesWord c := hall c List.mem_cons_self
    exact ⟨c, body, htext, by simp [begins, hc], Opening.of_continuesWord hc⟩
  | quote =>
    obtain ⟨s, p, rfl⟩ := exists_text ho
    exact ⟨'"', _, String.toList_ofList, rfl, rfl⟩
  | paren =>
    obtain ⟨head, hhead⟩ := exists_head ho
    exact ⟨'(', _, symbolic_of_head hhead, rfl, rfl⟩

/-! ## Words and quoted texts -/

/-- Nothing follows an operand, or a blank or the end of what is in parentheses. -/
def Parted (rest : List Char) : Prop := ∀ c ∈ rest.head?, c = ' ' ∨ c = ')'

variable {e e' : Expr} {rest rest' : List Char}

theorem opening_eq (h : e.Printable) (h' : e'.Printable)
    (hsame : e.symbolic.toList ++ rest = e'.symbolic.toList ++ rest') : e.opening = e'.opening := by
  obtain ⟨c, cs, htext, -, hopening⟩ := exists_first h
  obtain ⟨c', cs', htext', -, hopening'⟩ := exists_first h'
  rw [htext, htext'] at hsame
  obtain ⟨rfl, -⟩ := List.cons.inj hsame
  exact hopening.symm.trans hopening'

theorem word_cancel (h : e.Printable) (h' : e'.Printable) (hrest : Parted rest) (hrest' : Parted rest')
    (ho : e.opening = .word) (ho' : e'.opening = .word)
    (hsame : e.symbolic.toList ++ rest = e'.symbolic.toList ++ rest') : e.unplaced = e'.unplaced ∧ rest = rest' := by
  have hstop {rest : List Char} (hrest : Parted rest) : ∀ c ∈ rest.head?, Piece.continuesWord c = false := by
    intro c hc
    rcases hrest c hc with rfl | rfl <;> decide +kernel
  obtain ⟨kind, hkind, htext, hall, htold⟩ := exists_word h ho
  obtain ⟨kind', hkind', htext', hall', htold'⟩ := exists_word h' ho'
  rw [htext, htext'] at hsame
  obtain ⟨hspelling, hrest⟩ := Piece.run_cancel hall hall' (hstop hrest) (hstop hrest') hsame
  rw [Piece.spelling_inj hkind hkind' hspelling, htold', Option.some.injEq] at htold
  exact ⟨htold.symm, hrest⟩

theorem quote_cancel (ho : e.opening = .quote) (ho' : e'.opening = .quote)
    (hsame : e.symbolic.toList ++ rest = e'.symbolic.toList ++ rest') : e.unplaced = e'.unplaced ∧ rest = rest' := by
  obtain ⟨s, p, rfl⟩ := exists_text ho
  obtain ⟨s', p', rfl⟩ := exists_text ho'
  simp only [symbolic, literalText, Text.Quoted.quote, String.toList_ofList, List.cons_append, List.append_assoc,
    List.nil_append, List.cons.injEq, true_and] at hsame
  obtain ⟨hchars, hrest⟩ := Text.Quoted.quoted_cancel hsame
  rw [String.toList_inj.1 hchars]
  exact ⟨rfl, hrest⟩

/-! ## What is in parentheses -/

def heads : List Head :=
  .group :: [.negate, .not].map Head.unary ++
    [.logic .and, .logic .or, .equality .equal, .equality .notEqual, .order .less, .order .lessEqual, .order .greater,
      .order .greaterEqual, .arithmetic .add, .arithmetic .subtract, .arithmetic .multiply, .arithmetic .divide,
      .arithmetic .modulo].map Head.binary

theorem mem_heads (head : Head) : head ∈ heads := by
  rcases head with _ | ⟨_ | _⟩ | ⟨⟨_ | _⟩ | ⟨_ | _⟩ | ⟨_ | _ | _ | _⟩ | ⟨_ | _ | _ | _ | _⟩⟩ <;> decide

theorem Head.front_inj {head head' : Head} (h : head.front = head'.front) : head = head' :=
  List.inj_on_of_nodup_map (by decide) (mem_heads head) (mem_heads head') h

/-- No expression begins as operators do. -/
theorem Head.begins_front (head : Head) : ∀ c ∈ head.front, (!begins c) = true := by
  have hall : heads.all fun head => head.front.all fun c => !begins c := by decide +kernel
  exact List.all_eq_true.1 (List.all_eq_true.1 hall head (mem_heads head))

theorem exists_first_operands {head : Head} (h : e.Printable) (hhead : e.head? = some head) :
    ∃ c cs, e.operands = c :: cs ∧ begins c := by
  cases e with
  | literal | name => cases hhead
  | group inner =>
    obtain ⟨c, cs, htext, hc, -⟩ := exists_first (e := inner) h
    exact ⟨c, cs, htext, hc⟩
  | unary op operand p =>
    obtain ⟨c, cs, htext, hc, -⟩ := exists_first (e := operand) h
    exact ⟨c, cs, htext, hc⟩
  | binary lhs op rhs p =>
    obtain ⟨c, cs, htext, hc, -⟩ := exists_first h.1
    exact ⟨c, cs ++ ' ' :: rhs.symbolic.toList, by rw [operands, htext]; rfl, hc⟩

/-- What is in parentheses tells the operator, which ends where an operand begins. -/
theorem head_cancel {head : Head} (h : e.Printable) (h' : e'.Printable) (hhead : e.head? = some head)
    (hsame : e.symbolic.toList ++ rest = e'.symbolic.toList ++ rest') :
    e'.head? = some head ∧ e.operands ++ ')' :: rest = e'.operands ++ ')' :: rest' := by
  have hstop {e : Expr} {head : Head} (h : e.Printable) (hhead : e.head? = some head) (rest : List Char) :
      ∀ c ∈ (e.operands ++ ')' :: rest).head?, (!begins c) = false := by
    obtain ⟨c, cs, htext, hc⟩ := exists_first_operands h hhead
    rw [htext]
    rintro d ⟨⟩
    rw [hc]
    rfl
  have hopening : e.opening = .paren := by
    cases e with
    | literal | name => cases hhead
    | group | unary | binary => rfl
  obtain ⟨head', hhead'⟩ := exists_head ((opening_eq h h' hsame).symm.trans hopening)
  rw [symbolic_of_head hhead, symbolic_of_head hhead'] at hsame
  simp only [List.cons_append, List.append_assoc, List.nil_append, List.cons.injEq, true_and] at hsame
  obtain ⟨hfront, hoperands⟩ :=
    Piece.run_cancel head.begins_front head'.begins_front (hstop h hhead rest) (hstop h' hhead' rest') hsame
  rw [Head.front_inj hfront]
  exact ⟨hhead', hoperands⟩

/-- The text of an expression tells it, and where it ends. -/
theorem symbolic_cancel (h : e.Printable) (h' : e'.Printable) (hrest : Parted rest) (hrest' : Parted rest')
    (hsame : e.symbolic.toList ++ rest = e'.symbolic.toList ++ rest') : e.unplaced = e'.unplaced ∧ rest = rest' := by
  have hparen (rest : List Char) : Parted (')' :: rest) := by
    rintro c ⟨⟩
    exact .inr rfl
  have hblank (rest : List Char) : Parted (' ' :: rest) := by
    rintro c ⟨⟩
    exact .inl rfl
  induction e generalizing e' rest rest' with
  | literal v p =>
    have hopening := opening_eq h h' hsame
    cases v with
    | text s => exact quote_cancel rfl hopening.symm hsame
    | undefined | integer | real | boolean => exact word_cancel h h' hrest hrest' rfl hopening.symm hsame
  | name x p => exact word_cancel h h' hrest hrest' rfl (opening_eq h h' hsame).symm hsame
  | group inner ih =>
    obtain ⟨hhead, hoperands⟩ := head_cancel h h' rfl hsame
    cases e' with
    | literal | name | unary | binary => cases hhead
    | group inner' =>
      obtain ⟨hinner, hbehind⟩ := @ih inner' _ _ h h' (hparen rest) (hparen rest') hoperands
      exact ⟨congrArg Expr.group hinner, (List.cons.inj hbehind).2⟩
  | unary op operand p ih =>
    obtain ⟨hhead, hoperands⟩ := head_cancel h h' rfl hsame
    cases e' with
    | literal | name | group | binary => cases hhead
    | unary op' operand' p' =>
      cases hhead
      obtain ⟨hoperand, hbehind⟩ := @ih operand' _ _ h h' (hparen rest) (hparen rest') hoperands
      exact ⟨congrArg (Expr.unary op · .start) hoperand, (List.cons.inj hbehind).2⟩
  | binary lhs op rhs p ihl ihr =>
    obtain ⟨hhead, hoperands⟩ := head_cancel h h' rfl hsame
    cases e' with
    | literal | name | group | unary => cases hhead
    | binary lhs' op' rhs' p' =>
      cases hhead
      simp only [operands, List.append_assoc, List.cons_append] at hoperands
      obtain ⟨hlhs, hlater⟩ := ihl h.1 h'.1 (hblank _) (hblank _) hoperands
      obtain ⟨hrhs, hbehind⟩ := ihr h.2 h'.2 (hparen rest) (hparen rest') (List.cons.inj hlater).2
      exact ⟨congrArg₂ (Expr.binary · op · .start) hlhs hrhs, (List.cons.inj hbehind).2⟩

/-! ## Expressions that are read -/

def WithoutReals : Expr → Prop
  | .literal value _ => value.type? ≠ some .real
  | .name _ _ => True
  | .group inner => inner.WithoutReals
  | .unary _ operand _ => operand.WithoutReals
  | .binary lhs _ rhs _ => lhs.WithoutReals ∧ rhs.WithoutReals

/-- The expression can be read from a source, from the first of its tokens or a later one on. -/
def IsRead (e : Expr) : Prop :=
  ∃ source bound p q, p.unread <:+ (tokenize source).tokens ∧ (Grammar.expression bound).run p = .read e q

theorem symbolic_unplaced (e : Expr) : e.unplaced.symbolic = e.symbolic := by
  induction e with
  | literal | name => rfl
  | group inner ih => rw [unplaced, symbolic, ih, symbolic]
  | unary op operand p ih => rw [unplaced, symbolic, ih, symbolic]
  | binary lhs op rhs p ihl ihr => rw [unplaced, symbolic, ihl, ihr, symbolic]

/-- What is read from lexemes can be printed, if it is without real numbers. -/
theorem Flattens.printable {τ : Nat} {e : Expr} {ts : List Token} (h : e.Flattens τ ts)
    (hts : ∀ t ∈ ts, Lexeme t.kind t.lexeme.toList) (hreals : e.WithoutReals) : e.Printable := by
  induction h with
  | @literal τ v t ht =>
    have hlexeme := hts t (.head _)
    cases v with
    | undefined => cases ht
    | integer n =>
      obtain hkind : TokenKind.integer n = t.kind := Option.some.inj ht
      rw [← hkind] at hlexeme
      obtain ⟨digits, hfit⟩ : ∃ k : Nat, Integer.fit? k = some n := by
        generalize t.lexeme.toList = text at hlexeme
        cases hlexeme with
        | integer _ _ hfit => exact ⟨_, hfit⟩
      have hvalue : n.toInt = digits := Integer.fit?_eq_some_iff.1 hfit
      change 0 ≤ n.toInt
      omega
    | real x => exact absurd rfl hreals
    | boolean | text => trivial
  | @name τ x t ht =>
    have hlexeme := hts t (.head _)
    rw [ht] at hlexeme
    generalize t.lexeme.toList = text at hlexeme
    cases hlexeme with
    | name hname => exact hname
  | group _ _ _ ih => exact ih (fun t ht => hts t (by simp [ht])) hreals
  | unary _ _ ih => exact ih (fun t ht => hts t (by simp [ht])) hreals
  | binary _ _ _ _ ihl ihr =>
    exact ⟨ihl (fun t ht => hts t (by simp [ht])) hreals.1, ihr (fun t ht => hts t (by simp [ht])) hreals.2⟩

theorem IsRead.printable {e : Expr} (h : e.IsRead) (hreals : e.WithoutReals) : e.Printable := by
  obtain ⟨source, bound, p, q, hp, hrun⟩ := h
  have herrors : q.errors = p.errors := by
    obtain ⟨-, -, -, herrors⟩ := Grammar.Rule.spares_expression bound p
    rwa [hrun] at herrors
  obtain ⟨n, ts, hpasses, hts, -⟩ := Grammar.Rule.expression_reads bound p e q ⟨hrun, herrors⟩
  refine hts.printable (fun t ht => ?_) hreals
  have hmem : t ∈ (tokenize source).tokens := by
    refine hp.subset ?_
    rw [hpasses.unread_eq]
    exact List.mem_append_left _ ht
  obtain ⟨r, hr, htoken⟩ := List.mem_filterMap.1 hmem
  cases r <;> cases htoken
  exact lexeme_of_mem_scan hr

/-- The symbolic text of an expression that is read tells it but for the places of its parts, unless it has a real
number. -/
theorem symbolic_tells {e e' : Expr} (h : e.IsRead) (h' : e'.IsRead) (hreals : e.WithoutReals)
    (hreals' : e'.WithoutReals) : e.symbolic = e'.symbolic ↔ e.unplaced = e'.unplaced := by
  constructor
  · intro hsame
    have hchars : e.symbolic.toList ++ [] = e'.symbolic.toList ++ [] := by rw [hsame]
    have hend : Parted [] := fun _ hc => nomatch hc
    exact (symbolic_cancel (h.printable hreals) (h'.printable hreals') hend hend hchars).1
  · intro hsame
    rw [← symbolic_unplaced, hsame, symbolic_unplaced]

def signs (x minus sign text : Position) : Expr :=
  .binary (.name "x" x) (.arithmetic .subtract) (.unary .negate (.literal (.text ")") text) sign) minus

theorem cursor_signs : (tokenize "x--\")\"").cursor =
    .start [⟨.name "x", "x", ⟨1, 1⟩⟩, ⟨.symbol .minus, "-", ⟨1, 2⟩⟩, ⟨.symbol .minus, "-", ⟨1, 3⟩⟩,
      ⟨.text ")", "\")\"", ⟨1, 4⟩⟩] ⟨1, 7⟩ :=
  congrArg₂ Grammar.Cursor.start (by decide +kernel) (by decide +kernel)

theorem cursor_signs_apart : (tokenize "x - -\n\")\"").cursor =
    .start [⟨.name "x", "x", ⟨1, 1⟩⟩, ⟨.symbol .minus, "-", ⟨1, 3⟩⟩, ⟨.symbol .minus, "-", ⟨1, 5⟩⟩,
      ⟨.text ")", "\")\"", ⟨2, 1⟩⟩] ⟨2, 4⟩ :=
  congrArg₂ Grammar.Cursor.start (by decide +kernel) (by decide +kernel)

/-- Two sources with the same tokens at other places. -/
theorem symbolic_tells_signs :
    let e := signs ⟨1, 1⟩ ⟨1, 2⟩ ⟨1, 3⟩ ⟨1, 4⟩
    let e' := signs ⟨1, 1⟩ ⟨1, 3⟩ ⟨1, 5⟩ ⟨2, 1⟩
    e.IsRead ∧ e'.IsRead ∧ e.WithoutReals ∧ e'.WithoutReals ∧ e.symbolic = "(- x (-\")\"))" ∧
      e'.symbolic = "(- x (-\")\"))" ∧ e.unplaced = e'.unplaced := by
  intro e e'
  have hread : e.IsRead := by
    refine ⟨"x--\")\"", 4, (tokenize "x--\")\"").cursor, ⟨[], ⟨1, 7⟩, 0, #[]⟩, List.suffix_rfl, ?_⟩
    rw [cursor_signs]
    rfl
  have hread' : e'.IsRead := by
    refine ⟨"x - -\n\")\"", 4, (tokenize "x - -\n\")\"").cursor, ⟨[], ⟨2, 4⟩, 0, #[]⟩, List.suffix_rfl, ?_⟩
    rw [cursor_signs_apart]
    rfl
  have hreals (x minus sign text : Position) : (signs x minus sign text).WithoutReals := ⟨trivial, nofun⟩
  have htext : e.symbolic = "(- x (-\")\"))" := by decide +kernel
  have htext' : e'.symbolic = "(- x (-\")\"))" := by decide +kernel
  exact ⟨hread, hread', hreals _ _ _ _, hreals _ _ _ _, htext, htext',
    (symbolic_tells hread hread' (hreals _ _ _ _) (hreals _ _ _ _)).1 (htext.trans htext'.symm)⟩

end Expr
end Portugol
