import Portugol.Proofs.Grammar.Errors
import Portugol.Proofs.Grammar.Termination

/-! # Reading from a scan under way

A source is read while it is scanned. A reader holds the token that is next; to go on it pulls reports from the scan
up to the next token, and keeps the lexical errors that come before it, among those of the statements that are given
up. Wherever the grammar looks ahead, skips or gives up, it goes on in no other way. So the errors that a reader has
met and those that are still to be reported are all of the source (`Reader.Shows`), and a program or its errors, put
in order at the end, are what is told of the source (`Program.parse_errors`). -/
namespace Portugol
namespace Grammar

/-! ## Readers -/

/-- What the next token stands for and where it begins; at the end of the source, where it ends. -/
structure Ahead where
  found : Option TokenKind
  position : Position

structure Reader where
  ahead : Ahead
  pending : List Report
  depth : Nat
  errors : Array SyntaxError

namespace Reader

/-- Takes reports up to the next token, or to the end, and keeps the errors among them. -/
def pull : List Report → Array SyntaxError → Ahead × List Report × Array SyntaxError
  | [], errors => (⟨none, ⟨0, 0⟩⟩, [], errors)
  | .token t :: rest, errors => (⟨some t.kind, t.position⟩, rest, errors)
  | .finish p :: rest, errors => (⟨none, p⟩, rest, errors)
  | .error e :: rest, errors => pull rest (errors.push (.lexical e))

def start (source : String) : Reader :=
  let (ahead, pending, errors) := pull (scan source) #[]
  ⟨ahead, pending, 0, errors⟩

def next (r : Reader) : Reader :=
  if r.ahead.found = none then r
  else
    let (ahead, pending, errors) := pull r.pending r.errors
    { r with ahead, pending, errors }

instance : Feed Reader where
  found r := r.ahead.found
  position r := r.ahead.position
  next := next
  depth := depth
  withDepth d r := { r with depth := d }
  keep e r := { r with errors := r.errors.push (.unexpected e) }

/-- What comes of a source: the statements that were read, or else the errors in the order of their positions, of which
those at one position stay as they were met. -/
def finish (ss : List Statement) (r : Reader) : Except (List SyntaxError) Program :=
  if r.errors.isEmpty then .ok ⟨ss⟩
  else .error (r.errors.toList.mergeSort fun d e => d.position.le e.position)

end Reader

/-! ## What a scan has still to report -/

variable {stop : Position} {reports : List Report} {ts us : List Token} {es : List LexicalError}

/-- Reports of these tokens and these errors, and of the end. -/
inductive Reports (stop : Position) : List Report → List Token → List LexicalError → Prop where
  | finish : Reports stop [.finish stop] [] []
  | token {t reports ts es} (h : Reports stop reports ts es) : Reports stop (.token t :: reports) (t :: ts) es
  | error {e reports ts es} (h : Reports stop reports ts es) : Reports stop (.error e :: reports) ts (e :: es)

theorem reports_ofPieces (p : Position) (pieces : List Piece) :
    Reports (p.after (pieces.map Piece.text).flatten) (Report.ofPieces p pieces)
      ((Report.ofPieces p pieces).filterMap Report.token?) ((Report.ofPieces p pieces).filterMap Report.error?) := by
  induction pieces generalizing p with
  | nil => exact .finish
  | cons piece rest ih =>
    have hrest := ih (p.after piece.text)
    rw [List.map_cons, List.flatten_cons, Position.after_append, Report.ofPieces, Report.ofPiece]
    cases piece.content with
    | gap => exact hrest
    | token kind => exact .token hrest
    | fault cause => exact .error hrest

theorem reports_scan (source : String) :
    Reports (tokenize source).stop (scan source) (tokenize source).tokens (tokenize source).errors := by
  have h := reports_ofPieces .start (pieces source.toList)
  rwa [Piece.flatten_pieces] at h

/-- What is pending when these tokens are unread, the first of which was pulled already. -/
inductive Pending (stop : Position) : List Token → List Report → List LexicalError → Prop where
  | none : Pending stop [] [] []
  | some {t reports ts es} (h : Reports stop reports ts es) : Pending stop (t :: ts) reports es

/-- Pulling keeps the errors up to the next token, in their order. -/
theorem exists_pulled (h : Reports stop reports ts es) (errors : Array SyntaxError) :
    ∃ rest met later, Reader.pull reports errors =
        (⟨ts.head?.map Token.kind, placeOf stop ts⟩, rest, errors ++ (met.map SyntaxError.lexical).toArray) ∧
      es = met ++ later ∧ Pending stop ts rest later := by
  induction h generalizing errors with
  | finish => exact ⟨[], [], [], by simp [Reader.pull, placeOf], rfl, .none⟩
  | @token t reports ts es h => exact ⟨reports, [], es, by simp [Reader.pull, placeOf], rfl, .some h⟩
  | @error e reports ts es h ih =>
    obtain ⟨rest, met, later, hpull, rfl, hpending⟩ := ih (errors.push (.lexical e))
    refine ⟨rest, e :: met, later, ?_, rfl, hpending⟩
    rw [Reader.pull, hpull]
    simp

namespace Reader

/-- A reader shows a cursor: it has met some of the lexical errors of a source, in their order, and those that it has
not met are pending; of the others it has kept those of the cursor. -/
structure Shows (lexical : List LexicalError) (r : Reader) (p : Cursor) : Prop where
  ahead_eq : r.ahead = ⟨p.found, p.position⟩
  depth_eq : r.depth = p.depth
  unexpected_eq : r.errors.toList.filterMap SyntaxError.unexpected? = p.errors.toList
  lexical_eq : ∃ later, r.errors.toList.filterMap SyntaxError.lexical? ++ later = lexical ∧
    Pending p.stop p.unread r.pending later

variable {lexical : List LexicalError} {r : Reader} {p : Cursor}

/-- What is pulled shows the tokens that were to be reported. -/
theorem shows_pulled {depth : Nat} {errors : Array SyntaxError} {unexpected : Array Unexpected}
    (h : Reports stop reports ts es) (hlexical : errors.toList.filterMap SyntaxError.lexical? ++ es = lexical)
    (hunexpected : errors.toList.filterMap SyntaxError.unexpected? = unexpected.toList) :
    Shows lexical ⟨(pull reports errors).1, (pull reports errors).2.1, depth, (pull reports errors).2.2⟩
      ⟨ts, stop, depth, unexpected⟩ := by
  obtain ⟨rest, met, later, hpull, rfl, hpending⟩ := exists_pulled h errors
  have hmet : (met.map SyntaxError.lexical).filterMap SyntaxError.lexical? = met := by
    simp [List.filterMap_map, Function.comp_def, SyntaxError.lexical?]
  have hnone : (met.map SyntaxError.lexical).filterMap SyntaxError.unexpected? = [] := by
    simp [SyntaxError.unexpected?]
  rw [hpull]
  refine ⟨rfl, rfl, ?_, later, ?_, hpending⟩
  · rw [Array.toList_append, List.filterMap_append, hunexpected, hnone, List.append_nil]
  · rw [Array.toList_append, List.filterMap_append, hmet, List.append_assoc, hlexical]

theorem shows_start (source : String) : Shows (tokenize source).errors (start source) (tokenize source).cursor :=
  shows_pulled (reports_scan source) rfl rfl

theorem Shows.next (h : Shows lexical r p) : Shows lexical r.next { p with unread := p.unread.tail } := by
  obtain ⟨ahead, pending, depth, errors⟩ := r
  obtain ⟨unread, stop, depth', unexpected⟩ := p
  obtain ⟨rfl, hdepth, hunexpected, later, hlexical, hpending⟩ := h
  obtain rfl : depth = depth' := hdepth
  cases hpending with
  | none => exact ⟨rfl, rfl, hunexpected, [], hlexical, .none⟩
  | some hreports => exact shows_pulled hreports hlexical hunexpected

theorem Shows.keep (h : Shows lexical r p) (e : Unexpected) :
    Shows lexical (Feed.keep e r) { p with errors := p.errors.push e } := by
  have hkept : (Feed.keep e r).errors.toList = r.errors.toList ++ [.unexpected e] := Array.toList_push
  obtain ⟨later, hlexical, hpending⟩ := h.lexical_eq
  refine ⟨h.ahead_eq, h.depth_eq, ?_, later, ?_, hpending⟩
  · rw [hkept, List.filterMap_append, h.unexpected_eq, Array.toList_push]
    rfl
  · rw [hkept, List.filterMap_append, ← hlexical]
    exact congrArg (· ++ later) (List.append_nil _)

theorem Shows.withDepth (h : Shows lexical r p) (d : Nat) :
    Shows lexical (Feed.withDepth d r) { p with depth := d } :=
  ⟨h.ahead_eq, rfl, h.unexpected_eq, h.lexical_eq⟩

instance : Mirrors (Shows lexical) where
  found_eq h := congrArg Ahead.found h.ahead_eq
  position_eq h := congrArg Ahead.position h.ahead_eq
  depth_eq h := h.depth_eq
  next h := h.next
  keep h e := h.keep e
  deeper h _ := h.withDepth _
  shallower h := h.withDepth _
  restored _ h := h.withDepth _

end Reader
end Grammar

/-! ## Errors in order -/

namespace SyntaxError

variable {errors errors' : List SyntaxError}

/-- What is in order already keeps its order where all errors are sorted. -/
theorem filterMap_mergeSort {β : Type} {f : SyntaxError → Option β} {place : β → Position}
    (hplace : ∀ e, ∀ x ∈ f e, place x = e.position)
    (h : (errors.filterMap f).Pairwise fun x y => place x ≤ place y) :
    (errors.mergeSort fun d e => d.position.le e.position).filterMap f = errors.filterMap f := by
  have hsorted : (errors.filter fun e => (f e).isSome).Pairwise fun d e => d.position.le e.position := by
    refine List.pairwise_filter.2 ((List.pairwise_filterMap.1 h).imp fun {d e} hle hd he => ?_)
    obtain ⟨x, hx⟩ := Option.isSome_iff_exists.1 hd
    obtain ⟨y, hy⟩ := Option.isSome_iff_exists.1 he
    rw [← hplace d x hx, ← hplace e y hy]
    exact hle x hx y hy
  have hsub := (List.sublist_mergeSort position_trans position_total hsorted List.filter_sublist).filterMap f
  have hsame : (errors.filter fun e => (f e).isSome).filterMap f = errors.filterMap f := by
    rw [List.filterMap_filter]
    refine List.filterMap_congr fun e _ => ?_
    cases f e <;> rfl
  rw [hsame] at hsub
  exact (hsub.eq_of_length ((List.mergeSort_perm errors _).filterMap f).length_eq.symm).symm

theorem position_of_lexical (e : SyntaxError) : ∀ d ∈ e.lexical?, d.position = e.position := by
  intro d hd
  cases e <;> cases hd
  rfl

theorem position_of_unexpected (e : SyntaxError) : ∀ d ∈ e.unexpected?, d.position = e.position := by
  intro d hd
  cases e <;> cases hd
  rfl

theorem mem_of_lexical {d : LexicalError} (h : d ∈ errors.filterMap lexical?) : .lexical d ∈ errors := by
  obtain ⟨e, he, hd⟩ := List.mem_filterMap.1 h
  cases e <;> cases hd
  exact he

theorem mem_of_unexpected {d : Grammar.Unexpected} (h : d ∈ errors.filterMap unexpected?) : .unexpected d ∈ errors := by
  obtain ⟨e, he, hd⟩ := List.mem_filterMap.1 h
  cases e <;> cases hd
  exact he

theorem eq_nil_of_filterMap (h : errors.filterMap lexical? = []) (h' : errors.filterMap unexpected? = []) :
    errors = [] := by
  cases errors with
  | nil => rfl
  | cons e errors =>
    cases e with
    | lexical => cases h
    | unexpected => cases h'

/-- Errors in order are known from the lexical ones among them and from the others, if none of the others is where one
of the lexical ones is. -/
theorem eq_of_sorted (h : errors.Pairwise fun d e => d.position ≤ e.position)
    (h' : errors'.Pairwise fun d e => d.position ≤ e.position)
    (hlexical : errors.filterMap lexical? = errors'.filterMap lexical?)
    (hunexpected : errors.filterMap unexpected? = errors'.filterMap unexpected?)
    (hapart : ∀ d e, .lexical d ∈ errors → .unexpected e ∈ errors → d.position ≠ e.position) : errors = errors' := by
  induction errors generalizing errors' with
  | nil => exact (eq_nil_of_filterMap hlexical.symm hunexpected.symm).symm
  | cons e errors ih =>
    cases errors' with
    | nil => exact eq_nil_of_filterMap hlexical hunexpected
    | cons e' errors' =>
      have ih' := fun hl hu => @ih errors' h.of_cons h'.of_cons hl hu fun d e hd he =>
        hapart d e (.tail _ hd) (.tail _ he)
      -- Of two errors of different kinds at the beginning, each comes later in the other list.
      cases e with
      | lexical d =>
        cases e' with
        | lexical d' =>
          obtain ⟨rfl, hlater⟩ := List.cons.inj hlexical
          rw [ih' hlater hunexpected]
        | unexpected e' =>
          have hd : d ∈ (SyntaxError.unexpected e' :: errors').filterMap lexical? := hlexical ▸ .head _
          have he : e' ∈ (SyntaxError.lexical d :: errors).filterMap unexpected? := hunexpected ▸ .head _
          have hle := List.rel_of_pairwise_cons h (@mem_of_unexpected errors _ he)
          have hge := List.rel_of_pairwise_cons h' (@mem_of_lexical errors' _ hd)
          exact absurd (Position.le_antisymm hle hge) (hapart d e' (.head _) (mem_of_unexpected he))
      | unexpected d =>
        cases e' with
        | unexpected d' =>
          obtain ⟨rfl, hlater⟩ := List.cons.inj hunexpected
          rw [ih' hlexical hlater]
        | lexical e' =>
          have hd : d ∈ (SyntaxError.lexical e' :: errors').filterMap unexpected? := hunexpected ▸ .head _
          have he : e' ∈ (SyntaxError.unexpected d :: errors).filterMap lexical? := hlexical ▸ .head _
          have hle := List.rel_of_pairwise_cons h (@mem_of_lexical errors _ he)
          have hge := List.rel_of_pairwise_cons h' (@mem_of_unexpected errors' _ hd)
          exact absurd (Position.le_antisymm hge hle) (hapart e' d (mem_of_lexical he) (.head _))

/-- To sort the errors of both kinds as they were met is to merge those of one kind with those of the other. -/
theorem mergeSort_eq_inOrder (errors : List SyntaxError)
    (hlexical : (errors.filterMap lexical?).Pairwise fun d e => d.position ≤ e.position)
    (hunexpected : (errors.filterMap unexpected?).Pairwise fun d e => d.position ≤ e.position)
    (hapart : ∀ d ∈ errors.filterMap lexical?, ∀ e ∈ errors.filterMap unexpected?, d.position ≠ e.position) :
    (errors.mergeSort fun d e => d.position.le e.position) =
      inOrder (errors.filterMap lexical?) (errors.filterMap unexpected?) := by
  refine eq_of_sorted (List.pairwise_mergeSort position_trans position_total errors)
    (sorted_inOrder hlexical hunexpected) ?_ ?_ ?_
  · rw [filterMap_mergeSort position_of_lexical hlexical, filterMap_lexical?_inOrder]
  · rw [filterMap_mergeSort position_of_unexpected hunexpected, filterMap_unexpected?_inOrder]
  · intro d e hd he
    exact hapart d (List.mem_filterMap.2 ⟨_, List.mem_mergeSort.1 hd, rfl⟩)
      e (List.mem_filterMap.2 ⟨_, List.mem_mergeSort.1 he, rfl⟩)

end SyntaxError

/-! ## What comes of a source -/

namespace Grammar

theorem sorted_unexpected (source : String) : (statements (tokenize source).cursor).2.errors.toList.Pairwise
    fun d e => d.position ≤ e.position :=
  (statements_told _ _).sorted (sorted_tokens source) fun _ ht => token_lt_stop ht

/-- An error is told where a token is, or at the end, and there is no lexical error there. -/
theorem positions_apart {source : String} {d : LexicalError} {e : Unexpected} (hd : d ∈ (tokenize source).errors)
    (he : e ∈ (statements (tokenize source).cursor).2.errors.toList) : d.position ≠ e.position := by
  obtain ⟨rest, hrest, -, hposition⟩ := (statements_told _ _).exists_rest e he
  rw [hposition]
  cases rest with
  | nil =>
    intro h
    have hlt := error_lt_stop hd
    rw [h] at hlt
    exact Position.lt_irrefl _ hlt
  | cons t rest => exact error_position_ne hd (hrest.mem List.mem_cons_self)

/-- A reader at the end of a source has met all its lexical errors, and answers what is told of the source. -/
theorem Reader.Shows.finish_eq {source : String} {r : Reader}
    (h : r.Shows (tokenize source).errors (statements (tokenize source).cursor).2) :
    r.pending = [] ∧ r.errors.toList.filterMap SyntaxError.lexical? = (tokenize source).errors ∧
      r.finish (statements (tokenize source).cursor).1 = Program.parse source := by
  obtain ⟨later, hlexical, hpending⟩ := h.lexical_eq
  have hunexpected := h.unexpected_eq
  rw [unread_statements (Cursor.on_cursor source).inOrder] at hpending
  generalize hlater : r.pending = pending at hpending
  cases hpending
  rw [List.append_nil] at hlexical
  refine ⟨rfl, hlexical, ?_⟩
  have hmerged := SyntaxError.mergeSort_eq_inOrder r.errors.toList
  rw [hlexical, hunexpected] at hmerged
  replace hmerged := hmerged ((sorted_errors source).imp Position.le_of_lt) (sorted_unexpected source)
    fun d hd e he => positions_apart hd he
  have hempty : r.errors.isEmpty = true ↔ SyntaxError.inOrder (tokenize source).errors
      (statements (tokenize source).cursor).2.errors.toList = [] := by
    rw [← hmerged, ← List.length_eq_zero_iff, List.length_mergeSort]
    simp
  rw [finish, hmerged, Program.parse, programFrom]
  cases hall : SyntaxError.inOrder (tokenize source).errors
      (statements (tokenize source).cursor).2.errors.toList with
  | nil => exact if_pos (hempty.2 hall)
  | cons e es => exact if_neg fun h => List.cons_ne_nil e es (hall.symm.trans (hempty.1 h))

end Grammar

namespace Program

open Grammar (Procedure Reader)

/-- A source with a lexical error does not parse. The errors of a source that does not parse stand in the order of
their positions; the lexical ones are all those of the source, each once, and every other one is at a token and
names what the token stands for, or is at the end of the source and names it. And this is what a reader comes to that
pulls one token after the other: it comes to the end of the scan, has met all lexical errors on its way, each once, and
finishes with the program or with the errors. -/
theorem parse_errors (source : String) :
    (Procedure.Ends (Procedure.statements Grammar.endsProgram) (Reader.start source) fun answer =>
      ∃ ss r, answer = .read ss r ∧ r.pending = [] ∧
        r.errors.toList.filterMap SyntaxError.lexical? = (tokenize source).errors ∧
        r.finish ss = Program.parse source) ∧
    ((tokenize source).errors ≠ [] → ∃ errors, Program.parse source = .error errors) ∧
    ∀ errors, Program.parse source = .error errors →
      errors ≠ [] ∧ errors.Pairwise (fun d e => d.position ≤ e.position) ∧
      errors.filterMap SyntaxError.lexical? = (tokenize source).errors ∧
      ∀ e ∈ errors.filterMap SyntaxError.unexpected?,
        (∃ t ∈ (tokenize source).tokens, e.position = t.position ∧ e.found = some t.kind) ∨
        (e.position = (tokenize source).stop ∧ e.found = none) := by
  refine ⟨?_, ?_, ?_⟩
  · have hends := Procedure.ends_of_performs
      (fun _ hturns => Procedure.performs_statements (show Grammar.endsProgram none = true from rfl) hturns)
      (Reader.shows_start source) (Grammar.Cursor.on_cursor source).inOrder (Nat.le_refl _)
    refine hends.imp fun answer hagrees => ?_
    obtain ⟨r, hanswer, hshows⟩ := hagrees.exists_read
    exact ⟨_, r, Option.some.inj hanswer, hshows.finish_eq⟩
  · intro hlexical
    refine ⟨_, parse_eq_error_iff.2 ⟨?_, rfl⟩⟩
    exact fun hnil => hlexical (Grammar.inOrder_eq_nil_iff.1 hnil).1
  · intro errors herrors
    obtain ⟨hne, rfl⟩ := parse_eq_error_iff.1 herrors
    refine ⟨hne, SyntaxError.sorted_inOrder ?_ (Grammar.sorted_unexpected source),
      SyntaxError.filterMap_lexical?_inOrder _ _, ?_⟩
    · exact (sorted_errors source).imp Position.le_of_lt
    · intro e he
      rw [SyntaxError.filterMap_unexpected?_inOrder] at he
      obtain ⟨rest, hrest, hfound, hposition⟩ := (Grammar.statements_told _ _).exists_rest e he
      cases rest with
      | nil => exact .inr ⟨hposition, hfound⟩
      | cons t rest => exact .inl ⟨t, hrest.mem List.mem_cons_self, hposition, hfound⟩

theorem inOrder_fault_between :
    SyntaxError.inOrder (tokenize "x $ ;").errors (Grammar.statements (tokenize "x $ ;").cursor).2.errors.toList =
      [.lexical ⟨.unexpectedCharacter '$', ⟨1, 3⟩⟩,
        .unexpected ⟨.assignment, some (.symbol .semicolon), ⟨1, 5⟩⟩] := by
  have hlexical : (tokenize "x $ ;").errors = [⟨.unexpectedCharacter '$', ⟨1, 3⟩⟩] := by decide +kernel
  have hunexpected : (Grammar.statements (tokenize "x $ ;").cursor).2.errors.toList =
      [⟨.assignment, some (.symbol .semicolon), ⟨1, 5⟩⟩] := by
    decide +kernel
  rw [hlexical, hunexpected, SyntaxError.inOrder, List.map_singleton, List.map_singleton, List.cons_merge_cons_pos,
    List.nil_merge]
  decide


/-- A fault between two tokens comes before the second, which is the one that was not expected. -/
theorem parse_errors_fault_between :
    (tokenize "x $ ;").errors = [⟨.unexpectedCharacter '$', ⟨1, 3⟩⟩] ∧
    Program.parse "x $ ;" = .error [.lexical ⟨.unexpectedCharacter '$', ⟨1, 3⟩⟩,
      .unexpected ⟨.assignment, some (.symbol .semicolon), ⟨1, 5⟩⟩] ∧
    ∃ t ∈ (tokenize "x $ ;").tokens, (⟨1, 5⟩ : Position) = t.position ∧
      some (TokenKind.symbol .semicolon) = some t.kind := by
  have hparse := parse_eq_error_iff.2 ⟨List.cons_ne_nil _ _, inOrder_fault_between.symm⟩
  obtain ⟨-, -, hlexical, hplaced⟩ := (parse_errors "x $ ;").2.2 _ hparse
  refine ⟨hlexical.symm, hparse, (hplaced _ (List.mem_singleton.2 rfl)).resolve_right ?_⟩
  rintro ⟨-, hnone⟩
  cases hnone


end Program
end Portugol
