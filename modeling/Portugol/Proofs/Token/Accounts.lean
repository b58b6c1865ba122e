import Mathlib.Data.List.Induction
import Mathlib.Logic.Function.Iterate
import Portugol.Proofs.Token.Lines
import Portugol.Proofs.Token.Order

/-! # A scan accounts for every character

What a scan reports and what it passes over make up the source: between every two reports lie blanks and comments and
nothing else, each report is about a text of its own that is not empty, and it is placed by the lines and the characters
before this text (`Accounts`). The scanner gives out these reports one after the other, the end of the source as the
last of them, and then nothing more (`Scanner.accounts_for_source`). -/
namespace Portugol

/-- The place behind a text: the number of lines is one more than that of the line feeds, and the number of columns one
more than that of the characters behind the last of them. -/
def Position.behind (text : List Char) : Position :=
  ⟨1 + text.count '\n', 1 + (text.reverse.takeWhile (· ≠ '\n')).length⟩

theorem Position.after_start (text : List Char) : start.after text = behind text := by
  induction text using List.reverseRecOn with
  | nil => rfl
  | append_singleton text c ih =>
    rw [after_append, ih, after_cons, after_nil, step]
    by_cases hc : c = '\n'
    · simp [behind, hc, Nat.add_assoc]
    · simp only [behind, hc, if_false, List.count_append, List.reverse_append, List.reverse_singleton,
        List.singleton_append, List.takeWhile_cons]
      simp [hc, Nat.add_comm]

theorem Position.after_behind (before text : List Char) : (behind before).after text = behind (before ++ text) := by
  rw [← after_start, ← after_start, after_append]

/-! ## Gaps -/

/-- A blank or a comment in front of some text: a comment of one line goes on to its line feed, or to the end, and a
block comment to the first mark that closes it. -/
inductive Filler : List Char → List Char → Prop where
  | blank {c rest} (hc : Text.isBlank c) : Filler [c] rest
  | line {body rest} (hbody : '\n' ∉ body) (hend : ∀ c ∈ rest.head?, c = '\n') : Filler ('/' :: '/' :: body) rest
  | block {body rest} (hbody : ¬ ['*', '/'] <:+: body ++ ['*']) : Filler ('/' :: '*' :: (body ++ ['*', '/'])) rest

/-- Blanks and comments one after the other, in front of some text. -/
inductive Gap : List Char → List Char → Prop where
  | nil {rest} : Gap [] rest
  | cons {text gap rest} (htext : Filler text (gap ++ rest)) (h : Gap gap rest) : Gap (text ++ gap) rest

namespace Piece

variable {c : Char} {rest : List Char} {n : Nat}

theorem comment_filler (hc : rest.head? = some '*') (h : comment rest = (.gap, n)) :
    Filler ('/' :: rest.take n) (rest.drop n) := by
  obtain ⟨rest, rfl⟩ := List.head?_eq_some_iff.1 hc
  simp only [comment, List.tail_cons] at h
  cases hend : commentEnd rest with
  | none =>
    rw [hend] at h
    cases h
  | some m =>
    rw [hend] at h
    cases h
    obtain ⟨body, tail, rfl, hbody, rfl⟩ := commentEnd_eq_some_iff.1 hend
    have htake : (body ++ '*' :: '/' :: tail).take (body.length + 2) = body ++ ['*', '/'] :=
      List.take_length_add_append 2
    rw [List.take_succ_cons, htake]
    exact .block hbody

theorem take_takeWhile (p : Char → Bool) (text : List Char) :
    text.take (text.takeWhile p).length = text.takeWhile p :=
  (List.prefix_iff_eq_take.1 (List.takeWhile_prefix p)).symm

theorem line_filler (hc : rest.head? = some '/') (hn : (rest.takeWhile (· ≠ '\n')).length = n) :
    Filler ('/' :: rest.take n) (rest.drop n) := by
  have hsplit := List.takeWhile_append_dropWhile (p := (· ≠ '\n')) (l := rest)
  have hbehind := List.head?_dropWhile_not (· ≠ '\n') rest
  have htake : rest.take n = rest.takeWhile (· ≠ '\n') := by
    rw [← hn, take_takeWhile]
  have hdrop : rest.drop n = rest.dropWhile (· ≠ '\n') := by
    refine List.append_cancel_left (?_ : rest.take n ++ _ = rest.take n ++ _)
    rw [List.take_append_drop, htake, hsplit]
  obtain ⟨rest, rfl⟩ := List.head?_eq_some_iff.1 hc
  rw [htake, hdrop, List.takeWhile_cons, if_pos (by decide)]
  refine .line (fun hmem => ?_) fun c hc => ?_
  · simpa using List.all_eq_true.1 List.all_takeWhile _ hmem
  · rw [hc] at hbehind
    simpa using hbehind

theorem quoted_ne_gap : quoted rest ≠ (.gap, n) := by
  intro h
  simp only [quoted] at h
  split at h <;> cases h

theorem number_ne_gap : number c rest ≠ (.gap, n) := by
  intro h
  simp only [number] at h
  split at h
  · split at h <;> cases h
  · split at h <;> cases h

/-- Nothing but blanks and comments is passed over. -/
theorem munch_filler (h : munch c rest = (.gap, n)) : Filler (c :: rest.take n) (rest.drop n) := by
  simp only [munch] at h
  split at h
  · next hslash =>
    obtain ⟨rfl, hhead⟩ := hslash
    exact line_filler hhead (Prod.mk.inj h).2
  split at h
  · next hslash =>
    obtain ⟨rfl, hhead⟩ := hslash
    exact comment_filler hhead h
  split at h
  · cases h
  split at h
  · exact absurd h quoted_ne_gap
  split at h
  · exact absurd h number_ne_gap
  split at h
  · cases h
  split at h
  · next hblank =>
    cases h
    exact .blank hblank
  · cases h

/-! ## Reports -/

theorem comment_fault {cause : LexicalFault} (h : comment rest = (.fault cause, n)) :
    cause = .unterminatedComment ∧ n = rest.length := by
  simp only [comment] at h
  split at h
  · cases h
  · cases h
    exact ⟨rfl, rfl⟩

theorem quoted_fault {cause : LexicalFault} (h : quoted rest = (.fault cause, n)) :
    cause = .unterminatedText ∧ n = rest.length := by
  simp only [quoted] at h
  split at h
  · cases h
  · cases h
    exact ⟨rfl, rfl⟩

theorem number_fault {cause : LexicalFault} (h : number c rest = (.fault cause, n)) :
    cause = .malformedNumber (String.ofList (c :: rest.take n)) := by
  have hsplit := List.takeWhile_append_dropWhile (p := Char.isDigit) (l := rest)
  simp only [number] at h
  split at h
  · next hpoint =>
    split at h
    · cases h
      obtain ⟨beyond, hbeyond⟩ := List.head?_eq_some_iff.1 hpoint
      rw [hbeyond] at hsplit
      generalize rest.takeWhile Char.isDigit = digits at hsplit ⊢
      subst hsplit
      simp [List.take_append, List.take_of_length_le]
    · cases h
  · split at h
    · cases h
    · cases h
      simp only [List.length_cons, Nat.add_sub_cancel]
      rw [take_takeWhile]

end Piece

namespace Report

/-- What a report tells of a text that some others follow: a token has it as its lexeme, a character that was not
expected and a number that is malformed are the text itself, and a text or a comment that does not end takes up all the
rest. The end of the source is about no text. -/
def Tells : Report → List Char → List Char → Prop
  | .token t, text, _ => text = t.lexeme.toList
  | .error ⟨.unexpectedCharacter c, _⟩, text, _ => text = [c]
  | .error ⟨.malformedNumber literal, _⟩, text, _ => text = literal.toList
  | .error ⟨.unterminatedText, _⟩, text, rest => ['"'] <+: text ∧ rest = []
  | .error ⟨.unterminatedComment, _⟩, text, rest => ['/', '*'] <+: text ∧ rest = []
  | .finish _, _, _ => False

theorem tells_of_munch {c : Char} {rest : List Char} {n : Nat} {cause : LexicalFault} (p : Position)
    (h : Piece.munch c rest = (.fault cause, n)) :
    (Report.error ⟨cause, p⟩).Tells (c :: rest.take n) (rest.drop n) := by
  simp only [Piece.munch] at h
  split at h
  · cases h
  split at h
  · next hslash =>
    obtain ⟨rfl, hhead⟩ := hslash
    obtain ⟨rfl, rfl⟩ := Piece.comment_fault h
    obtain ⟨rest, rfl⟩ := List.head?_eq_some_iff.1 hhead
    exact ⟨by simp, List.drop_length⟩
  split at h
  · cases h
  split at h
  · next hquote =>
    subst hquote
    obtain ⟨rfl, rfl⟩ := Piece.quoted_fault h
    exact ⟨by simp, List.drop_length⟩
  split at h
  · rw [Piece.number_fault h]
    simp [Tells]
  split at h
  · cases h
  split at h
  · cases h
  · cases h
    rfl

end Report

/-- Reports that account for a text behind another one: a gap and the end of the source, or a gap, a text that is not
empty and about which the first report is, and then what the others account for. Each report is placed behind all that
is before it. -/
inductive Accounts : List Char → List Char → List Report → Prop where
  | finish {before gap} (hgap : Gap gap []) : Accounts before gap [.finish (.behind (before ++ gap))]
  | report {before gap text rest r reports} (hgap : Gap gap (text ++ rest)) (hne : text ≠ [])
      (htells : r.Tells text rest) (hplace : r.position = .behind (before ++ gap))
      (hrest : Accounts (before ++ gap ++ text) rest reports) : Accounts before (gap ++ (text ++ rest)) (r :: reports)

namespace Accounts

variable {before text rest : List Char} {reports : List Report}

/-- A filler belongs to the gap that comes next. -/
theorem filler (htext : Filler text rest) (h : Accounts (before ++ text) rest reports) :
    Accounts before (text ++ rest) reports := by
  cases h with
  | finish hgap =>
    rw [List.append_assoc]
    exact .finish (.cons (by rwa [List.append_nil]) hgap)
  | report hgap hne htells hplace hrest =>
    rw [← List.append_assoc]
    refine .report (.cons htext hgap) hne htells ?_ ?_
    · rw [hplace, List.append_assoc]
    · rwa [← List.append_assoc]

/-- The end of the source is reported once and at last. -/
theorem exists_finish (h : Accounts before text reports) :
    ∃ told, reports = told ++ [.finish (.behind (before ++ text))] ∧ ∀ r ∈ told, ∀ p, r ≠ .finish p := by
  induction h with
  | finish => exact ⟨[], rfl, nofun⟩
  | @report before gap text rest r reports _ _ htells _ _ ih =>
    obtain ⟨told, rfl, htold⟩ := ih
    refine ⟨r :: told, by simp, List.forall_mem_cons.2 ⟨?_, htold⟩⟩
    rintro p rfl
    exact htells

/-- The pieces of a source are accounted for from whatever place on. -/
theorem of_pieces (before source : List Char) :
    Accounts before source (Report.ofPieces (.behind before) (pieces source)) := by
  fun_induction pieces source generalizing before with
  | case1 =>
    have hend : Accounts before [] [.finish (.behind (before ++ []))] := .finish .nil
    rwa [List.append_nil] at hend
  | case2 c rest content n hmunch ih =>
    have hsource : (c :: rest.take n) ++ rest.drop n = c :: rest := by simp
    have hmore := ih (before ++ (c :: rest.take n))
    have hreport {r : Report} (htells : r.Tells (c :: rest.take n) (rest.drop n))
        (hplace : r.position = .behind before) : Accounts before (c :: rest)
          (r :: Report.ofPieces (.behind (before ++ c :: rest.take n)) (pieces (rest.drop n))) := by
      rw [← hsource, ← List.nil_append (c :: rest.take n ++ rest.drop n)]
      refine .report .nil (List.cons_ne_nil _ _) htells ?_ ?_
      · rwa [List.append_nil]
      · rwa [List.append_nil]
    rw [Report.ofPieces, Position.after_behind]
    cases content with
    | gap =>
      rw [← hsource]
      exact filler (Piece.munch_filler hmunch) hmore
    | token kind => exact hreport (String.toList_ofList).symm rfl
    | fault cause => exact hreport (Report.tells_of_munch _ hmunch) rfl

end Accounts

/-! ## The scanner -/

namespace Scanner

/-- So many reports further. -/
theorem next_iterate (s : Scanner) (n : Nat) : ((fun s => s.next.2)^[n] s).next.1 = s.pending[n]? := by
  induction n generalizing s with
  | zero => exact List.head?_eq_getElem?
  | succ n ih =>
    rw [Function.iterate_succ_apply, ih]
    exact List.getElem?_tail

/-- A scanner gives out the reports of a scan in order and then nothing more. There is one report of the end, the last
one. All of them account for the source: it is made up of gaps and of the texts that they are about, and each is placed
by the lines and characters before it, so that each is behind the one before it. -/
theorem accounts_for_source (source : String) :
    (∀ n, ((fun s => s.next.2)^[n] (new source)).next.1 = (scan source)[n]?) ∧
    (∃ told, scan source = told ++ [.finish (.behind source.toList)] ∧ ∀ r ∈ told, ∀ p, r ≠ .finish p) ∧
    Accounts [] source.toList (scan source) ∧
    (scan source).Pairwise fun r s => r.position < s.position := by
  have haccounts : Accounts [] source.toList (scan source) := Accounts.of_pieces [] source.toList
  exact ⟨next_iterate (new source), haccounts.exists_finish, haccounts, sorted_scan source⟩

end Scanner
end Portugol
