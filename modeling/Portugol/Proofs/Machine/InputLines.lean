import Mathlib.Data.List.Basic
import Portugol.Machine.Streams

/-! # The lines of an input

Input is cut after each line feed; what follows the last one is a line too, unless it is empty (`lines`). Reading takes
the first of them (`lines_eq_cons`) and, where whole lines come first, does not depend on what follows them
(`cut_append`). If the input is a text, so is each of its lines (`decode_lines`), as the byte of a line feed is part of
no other character. -/
namespace Portugol.Input

/-- The lines of an input, each with its line feed; the last one may be without. -/
def lines : List UInt8 → List (List UInt8)
  | [] => []
  | b :: rest =>
    if b = 10 then [b] :: lines rest
    else
      match lines rest with
      | [] => [[b]]
      | line :: more => (b :: line) :: more

theorem cut_cons {b : UInt8} (hb : b ≠ 10) (rest : List UInt8) :
    cut (b :: rest) = (b :: (cut rest).1, (cut rest).2) := by
  rw [cut, if_neg hb]

theorem cut_eq_nil_iff {input : List UInt8} : (cut input).1 = [] ↔ input = [] := by
  cases input with
  | nil => simp [cut]
  | cons b rest => by_cases h : b = 10 <;> simp [cut, h]

theorem lines_eq_cons {input : List UInt8} (h : input ≠ []) : lines input = (cut input).1 :: lines (cut input).2 := by
  induction input with
  | nil => exact absurd rfl h
  | cons b rest ih =>
    by_cases hb : b = 10
    · simp [lines, cut, hb]
    · cases rest with
      | nil => simp [lines, cut, hb]
      | cons c rest =>
        have hrest := ih (List.cons_ne_nil _ _)
        rw [lines, if_neg hb, hrest, cut_cons hb]

/-- Nothing is lost between lines. -/
theorem flatten_lines (input : List UInt8) : (lines input).flatten = input := by
  induction input with
  | nil => rfl
  | cons b rest ih =>
    rw [lines]
    split
    · rw [List.flatten_cons, ih, List.singleton_append]
    · split
      · next hnil =>
        rw [hnil] at ih
        simp [← ih]
      · next line more hcons =>
        rw [hcons, List.flatten_cons] at ih
        rw [List.flatten_cons, List.cons_append, ih]

theorem cut_snd_suffix (input : List UInt8) : (cut input).2 <:+ input := ⟨_, append_cut input⟩

theorem length_cut_snd_lt {input : List UInt8} (h : input ≠ []) : (cut input).2.length < input.length := by
  have hlength := congrArg List.length (append_cut input)
  have hpos := List.length_pos_of_ne_nil (mt cut_eq_nil_iff.1 h)
  rw [List.length_append] at hlength
  omega

/-! ## Whole lines -/

/-- There are no bytes, or the last one ends a line. -/
def Whole (input : List UInt8) : Prop := ∀ b, input.getLast? = some b → b = 10

theorem Whole.cut_snd {input : List UInt8} (h : Whole input) : Whole (cut input).2 := by
  intro b hb
  obtain ⟨before, hbefore⟩ := cut_snd_suffix input
  exact h b (by rw [← hbefore, List.getLast?_append, hb, Option.some_or])

/-- The first of whole lines is the same whatever comes after them. -/
theorem cut_append {input : List UInt8} (h : Whole input) (hne : input ≠ []) (more : List UInt8) :
    cut (input ++ more) = ((cut input).1, (cut input).2 ++ more) := by
  induction input with
  | nil => exact absurd rfl hne
  | cons b rest ih =>
    by_cases hb : b = 10
    · simp [cut, hb]
    · have hrest : rest ≠ [] := by
        rintro rfl
        exact hb (h b rfl)
      have hwhole : Whole rest := by
        intro c hc
        refine h c ?_
        rw [List.getLast?_cons, hc, Option.getD_some]
      rw [List.cons_append, cut_cons hb, cut_cons hb, ih hwhole hrest]

/-! ## Reading -/

theorem nextLine_snd (input : List UInt8) : (nextLine input).2 = (cut input).2 := by
  rw [nextLine, rawLine]
  split
  · next h => rw [h]
  · next h =>
    rw [h]
    split <;> rfl

theorem nextLine_fst_eq_none_iff {input : List UInt8} : (nextLine input).1 = none ↔ input = [] := by
  rw [nextLine, rawLine, ← cut_eq_nil_iff]
  split
  · next h => simp [h]
  · next line rest hne h =>
    rw [h]
    split <;> simpa using hne

theorem nextLine_append {input : List UInt8} (h : Whole input) (hne : input ≠ []) (more : List UInt8) :
    nextLine (input ++ more) = ((nextLine input).1, (nextLine input).2 ++ more) := by
  rw [nextLine, nextLine, rawLine, rawLine, cut_append h hne]
  obtain ⟨line, rest⟩ := cut input
  cases line with
  | nil => rfl
  | cons b line =>
    simp only
    split <;> rfl

theorem rawLine_nil : rawLine [] = (none, []) := rfl

theorem rawLine_of_ne_nil {input : List UInt8} (hne : input ≠ []) :
    rawLine input = (some ((decode (cut input).1).elim (.error .malformedText) .ok), (cut input).2) := by
  have hline := mt cut_eq_nil_iff.1 hne
  rw [rawLine]
  split
  · next hcut => exact absurd (congrArg Prod.fst hcut) hline
  · next hcut =>
    rw [hcut]
    split
    · next hdecode => rw [hdecode, Option.elim_some]
    · next hdecode => rw [hdecode, Option.elim_none]

/-- A line that is a text is taken as it stands. -/
theorem rawLine_of_decode {input : List UInt8} {text : String} (hne : input ≠ [])
    (h : decode (cut input).1 = some text) : rawLine input = (some (.ok text), (cut input).2) := by
  rw [rawLine_of_ne_nil hne, h, Option.elim_some]

/-- A line that is no text is gone all the same. -/
theorem rawLine_of_malformed {input : List UInt8} (hne : input ≠ []) (h : decode (cut input).1 = none) :
    rawLine input = (some (.error .malformedText), (cut input).2) := by
  rw [rawLine_of_ne_nil hne, h, Option.elim_none]

/-! ## Texts -/

def encode (cs : List Char) : List UInt8 := cs.flatMap String.utf8EncodeChar

theorem encode_append (cs ds : List Char) : encode (cs ++ ds) = encode cs ++ encode ds := List.flatMap_append

theorem encode_eq_nil_iff {cs : List Char} : encode cs = [] ↔ cs = [] := by
  rw [encode, List.flatMap_eq_nil_iff, List.eq_nil_iff_forall_not_mem]
  exact forall_congr' fun c => imp_congr_right fun _ => iff_of_false (String.utf8EncodeChar_ne_nil) id

theorem toByteArray_eq (text : String) : text.toByteArray = ⟨(encode text.toList).toArray⟩ := by
  rw [← String.utf8Encode_toList, List.utf8Encode, ByteArray.ext_iff, List.data_toByteArray]
  rfl

theorem decode_eq_some_iff {bytes : List UInt8} {text : String} :
    decode bytes = some text ↔ bytes = encode text.toList := by
  have hencode : bytes = encode text.toList ↔ (⟨bytes.toArray⟩ : ByteArray) = text.toByteArray := by
    rw [toByteArray_eq, ByteArray.mk.injEq, List.toArray_eq_toArray_eq]
  rw [hencode, decode, String.fromUTF8?]
  constructor
  · intro h
    split at h
    · cases h
      rfl
    · cases h
  · intro h
    rw [dif_pos (h ▸ text.isValidUTF8)]
    exact congrArg some (String.toByteArray_inj.1 h)

/-- The byte of a line feed is part of no other character. -/
theorem ne_of_mem_utf8EncodeChar {c : Char} (hc : c ≠ '\n') : ∀ b ∈ String.utf8EncodeChar c, b ≠ 10 := by
  have hval : c.val.toNat ≠ 10 := fun h => hc (Char.ext (UInt32.toNat_inj.1 h))
  have hbyte (n : Nat) (h : n % 256 ≠ 10) : UInt8.ofNat n ≠ 10 := by
    intro heq
    have := congrArg UInt8.toNat heq
    rw [UInt8.toNat_ofNat'] at this
    exact h this
  rw [String.utf8EncodeChar]
  intro b hb
  split at hb
  · rw [List.mem_singleton.1 hb]
    exact hbyte _ (by omega)
  split at hb
  · simp only [List.mem_cons, List.not_mem_nil, or_false] at hb
    rcases hb with rfl | rfl <;> exact hbyte _ (by omega)
  split at hb
  · simp only [List.mem_cons, List.not_mem_nil, or_false] at hb
    rcases hb with rfl | rfl | rfl <;> exact hbyte _ (by omega)
  · simp only [List.mem_cons, List.not_mem_nil, or_false] at hb
    rcases hb with rfl | rfl | rfl | rfl <;> exact hbyte _ (by omega)

theorem cut_append_of_ne {before : List UInt8} (h : ∀ b ∈ before, b ≠ 10) (rest : List UInt8) :
    cut (before ++ rest) = (before ++ (cut rest).1, (cut rest).2) := by
  induction before with
  | nil => rfl
  | cons b before ih =>
    rw [List.cons_append, cut_cons (h b List.mem_cons_self), ih fun b hb => h b (List.mem_cons_of_mem _ hb)]
    rfl

/-- A text is cut between two of its characters. -/
theorem cut_encode (cs : List Char) : ∃ line rest, cut (encode cs) = (encode line, encode rest) := by
  induction cs with
  | nil => exact ⟨[], [], rfl⟩
  | cons c cs ih =>
    obtain ⟨line, rest, hcut⟩ := ih
    by_cases hc : c = '\n'
    · subst hc
      exact ⟨['\n'], cs, rfl⟩
    · refine ⟨c :: line, rest, ?_⟩
      change cut (String.utf8EncodeChar c ++ encode cs) = _
      rw [cut_append_of_ne (ne_of_mem_utf8EncodeChar hc), hcut]
      rfl

/-- The lines of a text are texts. -/
theorem decode_lines {input : List UInt8} {text : String} (h : decode input = some text) :
    ∀ line ∈ lines input, ∃ source, decode line = some source := by
  rw [decode_eq_some_iff] at h
  generalize text.toList = cs at h
  induction hn : input.length using Nat.strongRecOn generalizing input cs with
  | ind n ih =>
  by_cases hne : input = []
  · simp [hne, lines]
  · obtain ⟨first, rest, hcut⟩ := cut_encode cs
    rw [← h] at hcut
    have hshorter := length_cut_snd_lt hne
    rw [lines_eq_cons hne, hcut]
    rw [hcut] at hshorter
    intro line hline
    rcases List.mem_cons.1 hline with rfl | hline
    · exact ⟨String.ofList first, by rw [decode_eq_some_iff, String.toList_ofList]⟩
    · exact ih _ (hn ▸ hshorter) rest rfl rfl line hline

end Portugol.Input
