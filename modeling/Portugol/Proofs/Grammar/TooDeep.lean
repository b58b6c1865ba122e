import Mathlib.Data.List.Infix
import Portugol.Proofs.Grammar.Recovery

/-! # A group that lies too deep

A block that lies too deep is passed over whole, by counting its braces. Where they are balanced this ends at the brace
that closes the group, whatever else the group holds (`behindGroup_group`). So it costs one error at its opening brace,
the blocks around it are closed as ever (`attempt_around`), and nothing of what is below is hidden
(`Program.parse_too_deep`). -/
namespace Portugol
namespace Grammar

/-! ## Passing over a group -/

def opened (tokens : List Token) : Nat := tokens.countP (·.kind = .symbol .openBrace)

def closed (tokens : List Token) : Nat := tokens.countP (·.kind = .symbol .closeBrace)

/-- Each brace that is closed was opened before, and each that is opened is closed. -/
structure BalancedBraces (tokens : List Token) : Prop where
  closed_le : ∀ ts, ts <+: tokens → closed ts ≤ opened ts
  closed_eq : closed tokens = opened tokens

theorem opened_cons (t : Token) (ts : List Token) :
    opened (t :: ts) = opened ts + if t.kind = .symbol .openBrace then 1 else 0 := by
  simp [opened, List.countP_cons]

theorem closed_cons (t : Token) (ts : List Token) :
    closed (t :: ts) = closed ts + if t.kind = .symbol .closeBrace then 1 else 0 := by
  simp [closed, List.countP_cons]

/-- While groups are left open, counting goes on. -/
theorem behindGroup_append {k : Nat} {ts : List Token} (h : ∀ us, us <+: ts → closed us < opened us + k)
    (rest : List Token) : behindGroup k (ts ++ rest) = behindGroup (opened ts + k - closed ts) rest := by
  induction ts generalizing k with
  | nil => simp [opened, closed]
  | cons t ts ih =>
    have hcons (us : List Token) (hus : us <+: ts) : closed (t :: us) < opened (t :: us) + k :=
      h _ (by simpa using hus)
    simp only [opened_cons, closed_cons] at hcons
    rw [List.cons_append, behindGroup, opened_cons, closed_cons]
    split
    · next hopen =>
      simp only [hopen, if_true, if_neg (by decide : ¬ TokenKind.symbol .openBrace = .symbol .closeBrace)] at hcons ⊢
      rw [ih fun us hus => by have := hcons us hus; omega]
      congr 1
      omega
    split
    · next hopen hclose =>
      simp only [hclose, if_true, if_neg (by decide : ¬ TokenKind.symbol .closeBrace = .symbol .openBrace)] at hcons ⊢
      have hk : ¬ k ≤ 1 := by
        have := hcons [] List.nil_prefix
        simp only [opened, closed, List.countP_nil] at this
        omega
      rw [if_neg hk, ih fun us hus => by have := hcons us hus; omega]
      congr 1
      omega
    · next hopen hclose =>
      simp only [if_neg hopen, if_neg hclose, Nat.add_zero] at hcons ⊢
      exact ih hcons

variable {t close : Token} {ts : List Token}

/-- Balanced tokens between two braces make a group, which is passed over as a whole. -/
theorem behindGroup_group (h : BalancedBraces ts) (ht : t.kind = .symbol .openBrace)
    (hclose : close.kind = .symbol .closeBrace) (rest : List Token) :
    behindGroup 0 (t :: (ts ++ close :: rest)) = rest := by
  rw [behindGroup, if_pos ht, behindGroup_append fun us hus => Nat.lt_succ_of_le (h.closed_le us hus), h.closed_eq,
    Nat.zero_add, Nat.add_sub_cancel_left, behindGroup, if_neg (by simp [hclose]), if_pos hclose,
    if_pos (Nat.le_refl 1)]

/-! ## Statements that are blocks -/

variable {bound : Nat} {p : Cursor}

theorem run_statement_openBrace (hp : p.found = some (.symbol .openBrace)) :
    (statement (bound + 1)).run p =
      (block (attempt (statement bound)) bound >>= fun b => pure (.block b)).run p := by
  rw [statement, Rule.run_peek_bind, hp]
  rfl

/-- At the greatest depth a group is given up at its first brace, and reading goes on at the brace behind it. -/
theorem attempt_group {rest : List Token} (hskips : ∀ rest, behindGroup 0 (t :: (ts ++ rest)) = rest)
    (ht : t.kind = .symbol .openBrace) (hp : p.unread = t :: (ts ++ rest)) (hdepth : p.depth = maxNesting)
    (hrest : rest.head?.map Token.kind = some (.symbol .closeBrace)) :
    (attempt (statement (bound + 1)) p).2 =
      { p with unread := rest,
               errors := p.errors.push ⟨.shallowerNesting, some (.symbol .openBrace), t.position⟩ } := by
  have hfound : p.found = some (.symbol .openBrace) := by simp [Cursor.found, hp, ht]
  have herror : p.unexpected .shallowerNesting = ⟨.shallowerNesting, some (.symbol .openBrace), t.position⟩ := by
    simp [Cursor.unexpected, hfound, Cursor.position, hp]
  have hrun : (statement (bound + 1)).run p =
      .refused ⟨.shallowerNesting, some (.symbol .openBrace), t.position⟩ { p with unread := rest } := by
    rw [run_statement_openBrace hfound, Rule.run_bind]
    simp only [block, if_pos (And.intro (Nat.le_of_eq hdepth.symm) hfound), hp, hskips, herror]
  obtain ⟨c, more, rfl, hc⟩ : ∃ c more, rest = c :: more ∧ c.kind = .symbol .closeBrace := by
    cases rest with
    | nil => cases hrest
    | cons c more => exact ⟨c, more, rfl, by simpa using hrest⟩
  have hboundary : fromBoundary maxNesting (c :: more) = c :: more := by
    rw [fromBoundary, if_pos hc, if_neg (by decide)]
  have hshorter : (c :: more).length ≠ p.unread.length := by
    rw [hp, List.length_cons, List.length_cons, List.length_append, List.length_cons]
    omega
  simp only [attempt, hrun, hdepth, hboundary, if_neg hshorter]

/-- A block whose only statement is attempted up to its closing brace. -/
theorem attempt_block {o c : Token} {inner rest : List Token} {es : Array Unexpected} {k : Nat}
    (hp : p.unread = o :: inner) (ho : o.kind = .symbol .openBrace) (hc : c.kind = .symbol .closeBrace)
    (hroom : p.depth < maxNesting) (hgoes : endsBlock (inner.head?.map Token.kind) = false)
    (h : (attempt (statement (k + 1)) ⟨inner, p.stop, p.depth + 1, p.errors⟩).2 =
      ⟨c :: rest, p.stop, p.depth + 1, es⟩) :
    (attempt (statement (k + 2)) p).2 = { p with unread := rest, errors := es } := by
  have hfound : p.found = some (.symbol .openBrace) := by simp [Cursor.found, hp, ho]
  have hopen : (expect (.symbol .openBrace)).run { p with depth := p.depth + 1 } =
      .read o.position ⟨inner, p.stop, p.depth + 1, p.errors⟩ :=
    (Rule.answers_expect ho inner { p with depth := p.depth + 1 } hp hroom).1 hroom
  obtain ⟨ss, hinner⟩ : ∃ ss, many endsBlock (attempt (statement (k + 1))) (k + 1)
      ⟨inner, p.stop, p.depth + 1, p.errors⟩ = (ss, ⟨c :: rest, p.stop, p.depth + 1, es⟩) := by
    have hends : endsBlock (Cursor.mk (c :: rest) p.stop (p.depth + 1) es).found = true := by
      simp [endsBlock, Cursor.found, hc]
    rw [many, if_neg (by simpa [Cursor.found] using hgoes)]
    simp only [h]
    cases k with
    | zero => exact ⟨_, rfl⟩
    | succ k =>
      rw [many, if_pos hends]
      exact ⟨_, rfl⟩
  have hclose : (expect (.symbol .closeBrace)).run ⟨c :: rest, p.stop, p.depth + 1, es⟩ =
      .read c.position ⟨rest, p.stop, p.depth + 1, es⟩ :=
    (Rule.answers_expect hc rest ⟨c :: rest, p.stop, p.depth + 1, es⟩ rfl hroom).1 hroom
  have hbraced : (braced (attempt (statement (k + 1))) (k + 1)).run { p with depth := p.depth + 1 } =
      .read ⟨ss, o.position⟩ ⟨rest, p.stop, p.depth + 1, es⟩ := by
    rw [braced, Rule.run_bind, hopen]
    simp only [Rule.run_bind, gather, hinner, hclose]
    rfl
  have hrun : (statement (k + 2)).run p = .read (.block ⟨ss, o.position⟩) { p with unread := rest, errors := es } := by
    rw [run_statement_openBrace hfound, Rule.run_bind]
    simp only [block, if_neg (fun h : _ ∧ _ => Nat.not_le.2 hroom h.1), nested, if_pos hroom, hbraced, Reply.leaving]
    rfl
  rw [attempt, hrun]

/-- However deep a group lies, the blocks around it are closed behind it. -/
theorem attempt_around {opens closes rest : List Token} (hopens : ∀ o ∈ opens, o.kind = .symbol .openBrace)
    (hcloses : ∀ c ∈ closes, c.kind = .symbol .closeBrace) (hlen : closes.length = opens.length)
    (hskips : ∀ rest, behindGroup 0 (t :: (ts ++ rest)) = rest) (ht : t.kind = .symbol .openBrace)
    (hp : p.unread = opens ++ t :: (ts ++ (closes ++ rest))) (hdepth : p.depth + opens.length = maxNesting)
    (hend : opens = [] → rest.head?.map Token.kind = some (.symbol .closeBrace)) (hbound : opens.length < bound) :
    (attempt (statement bound) p).2 =
      { p with unread := rest,
               errors := p.errors.push ⟨.shallowerNesting, some (.symbol .openBrace), t.position⟩ } := by
  obtain ⟨bound, rfl⟩ := Nat.exists_eq_add_one.2 (Nat.zero_lt_of_lt hbound)
  -- The induction goes from the blocks inside to those around, each of which leaves one closing brace to the next.
  induction opens generalizing p closes rest bound with
  | nil =>
    obtain rfl := List.length_eq_zero_iff.1 hlen
    exact attempt_group hskips ht hp hdepth (hend rfl)
  | cons o opens ih =>
    -- The first brace of all is closed by the last one.
    obtain ⟨closes, c, rfl⟩ : ∃ cs c, closes = cs ++ [c] := by
      rcases List.eq_nil_or_concat closes with rfl | ⟨cs, c, rfl⟩
      · cases hlen
      · exact ⟨cs, c, by simp⟩
    simp only [List.length_append, List.length_cons, List.length_nil] at hlen hbound hdepth
    obtain ⟨bound, rfl⟩ : ∃ k, bound = k + 1 := Nat.exists_eq_add_one.2 (by omega)
    have hc : c.kind = .symbol .closeBrace := hcloses c (by simp)
    refine attempt_block hp (hopens o (by simp)) hc (by omega) ?_ ?_
    · cases opens with
      | nil => simp [endsBlock, ht]
      | cons o' opens => simp [endsBlock, hopens o' (by simp)]
    · have hinner : opens ++ t :: (ts ++ (closes ++ [c] ++ rest)) = opens ++ t :: (ts ++ (closes ++ c :: rest)) := by
        rw [List.append_assoc closes, List.singleton_append]
      exact ih (p := ⟨opens ++ t :: (ts ++ (closes ++ [c] ++ rest)), p.stop, p.depth + 1, p.errors⟩)
        (fun o' ho' => hopens o' (List.mem_cons_of_mem _ ho')) (fun c' hc' => hcloses c' (List.mem_append_left _ hc'))
        (by omega) hinner (by simp only; omega) (fun _ => by simp [hc]) bound (by omega)

/-- Behind as many blocks as there may be around a group that lies too deep, the tokens of another source cost the
errors that they cost alone. -/
theorem statements_around {opens closes : List Token} (hopens : ∀ o ∈ opens, o.kind = .symbol .openBrace)
    (hcloses : ∀ c ∈ closes, c.kind = .symbol .closeBrace) (hopened : opens.length = maxNesting)
    (hclosed : closes.length = maxNesting) (hskips : ∀ rest, behindGroup 0 (t :: (ts ++ rest)) = rest)
    (ht : t.kind = .symbol .openBrace) (f : Position → Position) (bs : List Token) (stop : Position) :
    (statements (.start (opens ++ t :: (ts ++ (closes ++ bs.map (Token.moved f)))) (f stop))).2.errors.toList =
      ⟨.shallowerNesting, some (.symbol .openBrace), t.position⟩ ::
        (statements (.start bs stop)).2.errors.toList.map (Unexpected.moved f) := by
  obtain ⟨bound, hbound⟩ : ∃ k, (opens ++ t :: (ts ++ (closes ++ bs.map (Token.moved f)))).length = k + 1 :=
    Nat.exists_eq_add_one.2 (by
      simp only [List.length_append, List.length_cons]
      omega)
  have hsize := hbound
  simp only [List.length_append, List.length_cons, List.length_map] at hsize
  have hroom : opens.length < bound + 1 := by omega
  have hfirst := attempt_around hopens hcloses (hclosed.trans hopened.symm) hskips ht
    (p := .start (opens ++ t :: (ts ++ (closes ++ bs.map (Token.moved f)))) (f stop)) rfl
    (by simpa [Cursor.start] using hopened) (fun hnil => by simp [hnil, maxNesting] at hopened) hroom
  have hgoes : endsProgram
      (Cursor.start (opens ++ t :: (ts ++ (closes ++ bs.map (Token.moved f)))) (f stop)).found = false := by
    simp [endsProgram, Cursor.found, Cursor.start]
  rw [statements_start, hbound, many, hgoes, if_neg (by simp)]
  simp only [hfirst]
  exact (statements_shifted (shifted_moved f bs) stop #[⟨.shallowerNesting, some (.symbol .openBrace), t.position⟩]
    (by omega) (Nat.le_succ _)).2

end Grammar

/-! ## A sign in a row -/

/-- The tokens of a sign that is written so often, from a position on. -/
def Token.inRow (kind : TokenKind) (c : Char) : Nat → Position → List Token
  | 0, _ => []
  | n + 1, p => ⟨kind, String.ofList [c], p⟩ :: inRow kind c n (p.step c)

namespace Token

variable (kind : TokenKind) (c : Char) (n : Nat) (p : Position)

theorem length_inRow : (inRow kind c n p).length = n := by
  induction n generalizing p with
  | zero => rfl
  | succ n ih => rw [inRow, List.length_cons, ih]

theorem kind_of_mem_inRow {t : Token} (h : t ∈ inRow kind c n p) : t.kind = kind := by
  induction n generalizing p with
  | zero => cases h
  | succ n ih =>
    rcases List.mem_cons.1 h with rfl | h
    · rfl
    · exact ih _ h

/-- The last one stands behind the others. -/
theorem inRow_succ :
    inRow kind c (n + 1) p = inRow kind c n p ++ [⟨kind, String.ofList [c], p.after (List.replicate n c)⟩] := by
  induction n generalizing p with
  | zero => rfl
  | succ n ih => rw [inRow, ih (p.step c), inRow, List.replicate_succ, Position.after_cons, List.cons_append]

end Token

theorem Position.after_replicate {c : Char} (hc : c ≠ '\n') (n : Nat) (p : Position) :
    p.after (List.replicate n c) = ⟨p.line, p.column + n⟩ := by
  induction n generalizing p with
  | zero => rfl
  | succ n ih =>
    rw [List.replicate_succ, after_cons, ih, step, if_neg hc]
    simp only [Position.mk.injEq, true_and]
    omega

theorem pieces_replicate {c : Char} {kind : TokenKind} (h : ∀ rest, Piece.munch c rest = (.token kind, 0)) (n : Nat) :
    pieces (List.replicate n c) = List.replicate n ⟨[c], .token kind⟩ := by
  induction n with
  | zero => rw [List.replicate_zero, Piece.pieces_nil, List.replicate_zero]
  | succ n ih =>
    rw [List.replicate_succ, Piece.pieces_cons, h, List.replicate_succ, ← ih]
    rfl

theorem Report.ofPieces_replicate (kind : TokenKind) (c : Char) (n : Nat) (p : Position) :
    ofPieces p (List.replicate n ⟨[c], .token kind⟩) =
      (Token.inRow kind c n p).map .token ++ [.finish (p.after (List.replicate n c))] := by
  induction n generalizing p with
  | zero => rfl
  | succ n ih =>
    rw [List.replicate_succ, ofPieces, Position.after_cons, Position.after_nil, ih, Token.inRow, List.replicate_succ,
      Position.after_cons]
    rfl

theorem tokenize_replicate {c : Char} {kind : TokenKind} (h : ∀ rest, Piece.munch c rest = (.token kind, 0))
    (n : Nat) : tokenize (String.ofList (List.replicate n c)) =
      ⟨Token.inRow kind c n .start, [], Position.start.after (List.replicate n c)⟩ := by
  have htoken (ts : List Token) : (ts.map Report.token).filterMap Report.token? = ts := by
    rw [List.filterMap_map]
    exact List.filterMap_some
  have herror (ts : List Token) : (ts.map Report.token).filterMap Report.error? = [] := by
    rw [List.filterMap_map]
    exact List.filterMap_eq_nil_iff.2 fun _ _ => rfl
  rw [tokenize, scan, String.toList_ofList, pieces_replicate h, Report.ofPieces_replicate]
  simp only [List.filterMap_append, htoken, herror]
  simp [Report.token?, Report.error?]

theorem height_replicate {c : Char} (hc : c ≠ '\n') (n : Nat) : height (String.ofList (List.replicate n c)) = 1 := by
  simp [height, List.count_replicate, hc]

/-! ## Sources -/

namespace Grammar

theorem opened_moved (f : Position → Position) (ts : List Token) : opened (ts.map (Token.moved f)) = opened ts := by
  rw [opened, List.countP_map]
  rfl

theorem closed_moved (f : Position → Position) (ts : List Token) : closed (ts.map (Token.moved f)) = closed ts := by
  rw [closed, List.countP_map]
  rfl

theorem BalancedBraces.moved {ts : List Token} (h : BalancedBraces ts) (f : Position → Position) :
    BalancedBraces (ts.map (Token.moved f)) where
  closed_le us hus := by
    obtain ⟨vs, hvs, rfl⟩ := List.prefix_map_iff.1 hus
    rw [closed_moved, opened_moved]
    exact h.closed_le vs hvs
  closed_eq := by rw [closed_moved, opened_moved, h.closed_eq]

end Grammar

namespace Program

/-- A text between braces, with as many blocks around it as there may be. -/
def tooDeep (body : String) : String :=
  String.ofList (List.replicate Grammar.maxNesting '\x7b') ++ "\x7b" ++ "\n" ++ body ++ "\n" ++ "\x7d" ++
    String.ofList (List.replicate Grammar.maxNesting '\x7d')

theorem tooDeep_eq (body : String) :
    tooDeep body = String.ofList (List.replicate (Grammar.maxNesting + 1) '\x7b') ++ "\n" ++ body ++ "\n" ++
      String.ofList (List.replicate (Grammar.maxNesting + 1) '\x7d') := by
  rw [String.ext_iff]
  simp [tooDeep, List.replicate_succ' (a := '\x7b'), List.replicate_succ (a := '\x7d')]

/-- The tokens of a text that lies too deep are those of the text, with the braces before and behind them. -/
theorem tokenize_tooDeep {body : String} (h : (tokenize body).errors = []) :
    ∃ f closes, (∀ c ∈ closes, c.kind = .symbol .closeBrace) ∧ closes.length = Grammar.maxNesting + 1 ∧
      (tokenize (tooDeep body)).errors = [] ∧
      (tokenize (tooDeep body)).tokens =
        Token.inRow (.symbol .openBrace) '\x7b' (Grammar.maxNesting + 1) .start ++
          ((tokenize body).tokens.map (Token.moved f) ++ closes) := by
  have hopen := tokenize_replicate (c := '\x7b') (fun _ => rfl) (Grammar.maxNesting + 1)
  have hclose := tokenize_replicate (c := '\x7d') (fun _ => rfl) (Grammar.maxNesting + 1)
  rw [tooDeep_eq]
  generalize String.ofList (List.replicate (Grammar.maxNesting + 1) '\x7b') = before at hopen ⊢
  generalize String.ofList (List.replicate (Grammar.maxNesting + 1) '\x7d') = behind at hclose ⊢
  have hbody := tokenize_below (a := before) (Tokens.ends_of_errors_eq_nil (by rw [hopen])) body
  have herrors : (tokenize (before ++ "\n" ++ body)).errors = [] := by rw [hbody, hopen, h]; rfl
  have hall := tokenize_below (Tokens.ends_of_errors_eq_nil herrors) behind
  refine ⟨.lower (height before), (tokenize behind).tokens.map (Token.moved (.lower (height (before ++ "\n" ++ body)))),
    fun c hc => ?_, ?_, ?_, ?_⟩
  · obtain ⟨d, hd, rfl⟩ := List.mem_map.1 hc
    rw [hclose] at hd
    have hkind : d.kind = .symbol .closeBrace := Token.kind_of_mem_inRow _ _ _ _ hd
    exact hkind
  · rw [List.length_map, hclose, Token.length_inRow]
  · rw [hall, herrors, hclose]
    rfl
  · rw [hall, hbody, hopen, List.append_assoc]

/-- Where the tokens of one source cost an error and then those of another one below it what they cost alone, so do the
sources. -/
theorem parse_eq_cons {a b : String} (ha : (tokenize a).errors = []) {e : Grammar.Unexpected}
    (he : e.position.line ≤ height a)
    (h : (Grammar.statements (.start
        ((tokenize a).tokens ++ (tokenize b).tokens.map (Token.moved (.lower (height a))))
        ((tokenize b).stop.lower (height a)))).2.errors.toList =
      e :: (Grammar.statements (tokenize b).cursor).2.errors.toList.map
        (Grammar.Unexpected.moved (.lower (height a)))) :
    Program.parse (a ++ "\n" ++ b) =
      .error (.unexpected e :: (complaints b).map (SyntaxError.moved (.lower (height a)))) := by
  have htokens := tokenize_below (Tokens.ends_of_errors_eq_nil ha) b
  have hbefore : ∀ d ∈ (tokenize b).errors.map (LexicalError.moved (.lower (height a))), e.position < d.position := by
    intro d hd
    obtain ⟨d, hmem, rfl⟩ := List.mem_map.1 hd
    have hstart := start_le_error hmem
    rw [Position.le_def] at hstart
    simp only [Position.start] at hstart
    refine .inl ?_
    simp only [LexicalError.moved, Position.lower]
    omega
  refine parse_eq_error_iff.2 ⟨List.cons_ne_nil _ _, ?_⟩
  rw [Tokens.cursor, htokens, h, ha, List.nil_append, SyntaxError.inOrder_cons hbefore, SyntaxError.inOrder_lower,
    complaints_eq]

/-- However a text is made whose braces are balanced, where it lies too deep there is one error at the brace before it,
and behind the closing braces another source has the errors that it has alone. -/
theorem parse_too_deep {body : String} (hbody : (tokenize body).errors = [])
    (hbalanced : Grammar.BalancedBraces (tokenize body).tokens) (b : String) :
    Program.parse (tooDeep body ++ "\n" ++ b) =
      .error (.unexpected ⟨.shallowerNesting, some (.symbol .openBrace), ⟨1, Grammar.maxNesting + 1⟩⟩ ::
        (complaints b).map (SyntaxError.moved (.lower (height (tooDeep body))))) := by
  obtain ⟨f, closes, hcloses, hlen, herrors, htokens⟩ := tokenize_tooDeep hbody
  obtain ⟨close, closes, rfl⟩ := List.exists_cons_of_length_eq_add_one hlen
  rw [List.length_cons, Nat.add_right_cancel_iff] at hlen
  obtain ⟨hclose, hcloses⟩ := List.forall_mem_cons.1 hcloses
  have hplace : Position.start.after (List.replicate Grammar.maxNesting '\x7b') = ⟨1, Grammar.maxNesting + 1⟩ := by
    rw [Position.after_replicate (by decide), Position.start, Nat.add_comm]
  rw [Token.inRow_succ, hplace] at htokens
  have hopens : ∀ o ∈ Token.inRow (.symbol .openBrace) '\x7b' Grammar.maxNesting .start, o.kind = .symbol .openBrace :=
    fun o ho => Token.kind_of_mem_inRow _ _ _ _ ho
  have hskips (rest : List Token) : Grammar.behindGroup 0 (⟨.symbol .openBrace, String.ofList ['\x7b'],
      ⟨1, Grammar.maxNesting + 1⟩⟩ :: ((tokenize body).tokens.map (Token.moved f) ++ [close] ++ rest)) = rest := by
    rw [List.append_assoc]
    exact Grammar.behindGroup_group (hbalanced.moved f) rfl hclose rest
  have hread := Grammar.statements_around hopens hcloses (Token.length_inRow _ _ _ _) hlen hskips rfl
    (.lower (height (tooDeep body))) (tokenize b).tokens (tokenize b).stop
  refine parse_eq_cons herrors (Nat.le_add_left 1 _) ?_
  rw [htokens]
  simp only [List.append_assoc, List.cons_append, List.nil_append] at hread ⊢
  exact hread

theorem tokenize_garbage : tokenize ")=\x7b;\x7d" =
    ⟨[⟨.symbol .closeParen, ")", ⟨1, 1⟩⟩, ⟨.symbol .becomes, "=", ⟨1, 2⟩⟩, ⟨.symbol .openBrace, "\x7b", ⟨1, 3⟩⟩,
      ⟨.symbol .semicolon, ";", ⟨1, 4⟩⟩, ⟨.symbol .closeBrace, "\x7d", ⟨1, 5⟩⟩], [], ⟨1, 6⟩⟩ := by
  decide +kernel

/-- Of what is no statement in a group that lies too deep nothing is told, of what is none below it everything. -/
theorem parse_too_deep_garbage :
    (tokenize ")=\x7b;\x7d").errors = [] ∧ Grammar.BalancedBraces (tokenize ")=\x7b;\x7d").tokens ∧
    Program.parse (tooDeep ")=\x7b;\x7d" ++ "\n" ++ "x 3;") =
      .error [.unexpected ⟨.shallowerNesting, some (.symbol .openBrace), ⟨1, 101⟩⟩,
        .unexpected ⟨.assignment, some (.integer 3), ⟨4, 3⟩⟩] := by
  have herrors : (tokenize ")=\x7b;\x7d").errors = [] := by rw [tokenize_garbage]
  have hbalanced : Grammar.BalancedBraces (tokenize ")=\x7b;\x7d").tokens := by
    rw [tokenize_garbage]
    refine ⟨fun ts hts => ?_, by decide⟩
    rw [← List.mem_inits] at hts
    revert ts
    decide
  refine ⟨herrors, hbalanced, ?_⟩
  have hheight : height (tooDeep ")=\x7b;\x7d") = 3 := by
    rw [tooDeep_eq, height_below, height_below, height_replicate (by decide), height_replicate (by decide)]
    decide
  rw [parse_too_deep herrors hbalanced, complaints_eq, complaints_second, hheight]
  rfl

end Program
end Portugol
