import Mathlib.Data.List.DropRight
import Mathlib.Data.List.TakeDrop
import Portugol.Proofs.Machine.InputLines

/-! # Reading line after line

The calls that read an input one after the other stay in step with its lines: call number `k` uses up exactly line
number `k`, whether or not that is a text, and there is no answer just when no byte is left (`nextLine_left`). A line
that is a text is answered without its line feed and without the carriage returns that stand at its end then, and only
with these taken off; one that is none is answered by an error, and the next call goes on behind it. -/
namespace Portugol.Input

/-- The pieces of an input that is cut after each line feed. What follows the last line feed is one too, unless there is
nothing. -/
inductive CutAfterFeeds : List UInt8 → List (List UInt8) → Prop where
  | nil : CutAfterFeeds [] []
  | last {piece} (hne : piece ≠ []) (h : 10 ∉ piece) : CutAfterFeeds piece [piece]
  | feed {body rest pieces} (h : 10 ∉ body) (hrest : CutAfterFeeds rest pieces) :
      CutAfterFeeds (body ++ 10 :: rest) ((body ++ [10]) :: pieces)

/-- What a call answers for a line: the text without what ends it, or an error if the line is no text. -/
inductive Answers (line : List UInt8) : Except StreamFault String → Prop where
  | text {body returns feed : List Char} (hline : line = encode (body ++ returns ++ feed))
      (hfeed : feed = [] ∨ feed = ['\n']) (hreturns : ∀ c ∈ returns, c = '\r') (hbody : '\n' ∉ body)
      (hlast : body.getLast? ≠ some '\r') : Answers line (.ok (String.ofList body))
  | malformed (h : ∀ text, line ≠ encode text) : Answers line (.error .malformedText)

def left (input : List UInt8) (k : Nat) : List UInt8 := (fun input => (nextLine input).2)^[k] input

/-! ## The pieces -/

theorem cutAfterFeeds_lines (input : List UInt8) : CutAfterFeeds input (lines input) := by
  induction input with
  | nil => exact .nil
  | cons b rest ih =>
    rw [lines]
    split
    · next hb =>
      subst hb
      exact @CutAfterFeeds.feed [] _ _ List.not_mem_nil ih
    · next hb =>
      have hmem {bytes : List UInt8} (h : 10 ∉ bytes) : 10 ∉ b :: bytes := by
        rw [List.mem_cons, not_or]
        exact ⟨Ne.symm hb, h⟩
      generalize lines rest = pieces at ih
      cases ih with
      | nil => exact .last (List.cons_ne_nil _ _) (hmem List.not_mem_nil)
      | last _ h => exact .last (List.cons_ne_nil _ _) (hmem h)
      | feed h hrest => exact .feed (hmem h) hrest

theorem lines_cut_snd (input : List UInt8) : lines (cut input).2 = (lines input).tail := by
  by_cases h : input = []
  · subst h
    rfl
  · rw [lines_eq_cons h, List.tail_cons]

theorem left_succ (input : List UInt8) (k : Nat) : left input (k + 1) = (nextLine (left input k)).2 :=
  Function.iterate_succ_apply' ..

/-- Each call takes the first of the lines that are left. -/
theorem lines_left (input : List UInt8) (k : Nat) : lines (left input k) = (lines input).drop k := by
  induction k with
  | zero => rfl
  | succ k ih => rw [left_succ, nextLine_snd, lines_cut_snd, ih, List.tail_drop]

theorem lines_eq_nil_iff {input : List UInt8} : lines input = [] ↔ input = [] := by
  constructor
  · intro h
    rw [← flatten_lines input, h, List.flatten_nil]
  · rintro rfl
    rfl

theorem left_eq_nil_iff {input : List UInt8} {k : Nat} : left input k = [] ↔ (lines input).length ≤ k := by
  rw [← lines_eq_nil_iff, lines_left, List.drop_eq_nil_iff]

/-! ## The answer to a line -/

/-- Characters that are no line feeds come before what a line has otherwise. -/
theorem cut_encode_append {cs : List Char} (h : '\n' ∉ cs) (rest : List UInt8) :
    cut (encode cs ++ rest) = (encode cs ++ (cut rest).1, (cut rest).2) := by
  refine cut_append_of_ne (fun b hb => ?_) rest
  obtain ⟨c, hc, hb⟩ := List.mem_flatMap.1 hb
  exact ne_of_mem_utf8EncodeChar (fun heq => h (heq ▸ hc)) b hb

/-- A line is a line by itself. -/
theorem cut_cut_fst (input : List UInt8) : cut (cut input).1 = ((cut input).1, []) := by
  induction input with
  | nil => rfl
  | cons b rest ih =>
    by_cases hb : b = 10
    · simp [cut, hb]
    · rw [cut_cons hb, cut_cons hb, ih]

/-- In the text of a line only the last character can be a line feed. -/
theorem exists_feed {cs : List Char} (h : cut (encode cs) = (encode cs, [])) :
    ∃ body feed, cs = body ++ feed ∧ '\n' ∉ body ∧ (feed = [] ∨ feed = ['\n']) := by
  by_cases hmem : '\n' ∈ cs
  · obtain ⟨body, rest, rfl, hbody⟩ := List.eq_append_cons_of_mem hmem
    have hcut : cut (encode (body ++ '\n' :: rest)) = (encode body ++ [10], encode rest) := by
      rw [encode_append, cut_encode_append hbody]
      rfl
    rw [hcut] at h
    have hrest : rest = [] := encode_eq_nil_iff.1 (congrArg Prod.snd h)
    exact ⟨body, ['\n'], by rw [hrest], hbody, .inr rfl⟩
  · exact ⟨cs, [], (List.append_nil cs).symm, hmem, .inl rfl⟩

/-- Where there are no line feeds, only carriage returns end a line. -/
theorem rdropWhile_returns {cs : List Char} (h : '\n' ∉ cs) :
    cs.rdropWhile (fun c => c = '\n' || c = '\r') = cs.rdropWhile (· = '\r') := by
  induction cs using List.reverseRecOn with
  | nil => rfl
  | append_singleton cs c ih =>
    rw [List.mem_append, List.mem_singleton, not_or] at h
    have hc : (decide (c = '\n') || decide (c = '\r')) = decide (c = '\r') := by
      rw [decide_eq_false (Ne.symm h.2), Bool.false_or]
    rw [List.rdropWhile_concat, List.rdropWhile_concat, hc, ih h.1]

theorem withoutEnd_ofList {cs feed : List Char} (hcs : '\n' ∉ cs) (hfeed : feed = [] ∨ feed = ['\n']) :
    withoutEnd (String.ofList (cs ++ feed)) = String.ofList (cs.rdropWhile (· = '\r')) := by
  rw [withoutEnd, String.toList_ofList, ← rdropWhile_returns hcs]
  change String.ofList ((cs ++ feed).rdropWhile _) = _
  rcases hfeed with rfl | rfl
  · rw [List.append_nil]
  · rw [List.rdropWhile_concat_pos _ _ _ (by rfl)]

/-- A text up to a line feed is read without the carriage returns at its end, and what is behind the line feed is
left. -/
theorem nextLine_encode {cs : List Char} (h : '\n' ∉ cs) (more : List UInt8) :
    nextLine (encode cs ++ 10 :: more) = (some (.ok (String.ofList (cs.rdropWhile (· = '\r')))), more) := by
  have hcut : cut (encode cs ++ 10 :: more) = (encode (cs ++ ['\n']), more) := by
    rw [cut_encode_append h, encode_append]
    rfl
  have hne : encode cs ++ 10 :: more ≠ [] := List.append_ne_nil_of_right_ne_nil _ (List.cons_ne_nil _ _)
  have hdecode : decode (cut (encode cs ++ 10 :: more)).1 = some (String.ofList (cs ++ ['\n'])) := by
    rw [hcut, decode_eq_some_iff, String.toList_ofList]
  rw [nextLine, rawLine_of_decode hne hdecode, hcut, ← withoutEnd_ofList h (.inr rfl)]
  rfl

/-- There is an answer to the first line of what is not empty, and it is one to this line. -/
theorem exists_answer {input : List UInt8} (h : input ≠ []) :
    ∃ answer, (nextLine input).1 = some answer ∧ Answers (cut input).1 answer := by
  cases hdecode : decode (cut input).1 with
  | none =>
    refine ⟨.error .malformedText, ?_, .malformed fun text htext => ?_⟩
    · rw [nextLine, rawLine_of_malformed h hdecode]
      rfl
    · rw [← String.toList_ofList (l := text), ← decode_eq_some_iff, hdecode] at htext
      cases htext
  | some text =>
    have hline := decode_eq_some_iff.1 hdecode
    have halone := cut_cut_fst input
    rw [hline] at halone
    obtain ⟨body, feed, htext, hbody, hfeed⟩ := exists_feed halone
    have hanswer : withoutEnd text = String.ofList (body.rdropWhile (· = '\r')) := by
      rw [← withoutEnd_ofList hbody hfeed, ← htext, String.ofList_toList]
    refine ⟨.ok (String.ofList (body.rdropWhile (· = '\r'))), ?_,
      @Answers.text _ _ (body.rtakeWhile (· = '\r')) _ ?_ hfeed ?_ ?_ ?_⟩
    · rw [nextLine, rawLine_of_decode h hdecode, ← hanswer]
      rfl
    · rw [List.rdropWhile_append_rtakeWhile, ← htext, hline]
    · intro c hc
      simpa using List.mem_rtakeWhile_imp hc
    · exact fun hmem => hbody ((List.rdropWhile_prefix _ _).subset hmem)
    · intro hlast
      have hne : body.rdropWhile (· = '\r') ≠ [] := by
        intro hnil
        rw [hnil] at hlast
        cases hlast
      rw [List.getLast?_eq_some_getLast hne, Option.some.injEq] at hlast
      exact List.rdropWhile_last_not _ _ hne (by rw [hlast]; rfl)

/-- The calls stay in step with the lines: whatever the bytes are, each call uses up the next line and answers it, and
after the last one there is no answer any more. -/
theorem nextLine_left (input : List UInt8) :
    CutAfterFeeds input (lines input) ∧
    ∀ k, Option.Rel Answers (lines input)[k]? (nextLine (left input k)).1 ∧
      left input k = (lines input)[k]?.getD [] ++ left input (k + 1) ∧
      ((nextLine (left input k)).1 = none ↔ left input k = []) ∧
      (left input k = [] ↔ (lines input).length ≤ k) := by
  refine ⟨cutAfterFeeds_lines input, fun k => ?_⟩
  have hfirst : (lines input)[k]? = (lines (left input k)).head? := by
    rw [lines_left, List.head?_drop]
  refine ⟨?_, ?_, nextLine_fst_eq_none_iff, left_eq_nil_iff⟩
  · rw [hfirst]
    by_cases h : left input k = []
    · rw [h]
      exact .none
    · obtain ⟨answer, hanswer, hline⟩ := exists_answer h
      rw [lines_eq_cons h, hanswer]
      exact .some hline
  · rw [left_succ, nextLine_snd, hfirst]
    by_cases h : left input k = []
    · rw [h]
      rfl
    · rw [lines_eq_cons h]
      exact (append_cut _).symm

end Portugol.Input
