import Portugol.Text.Ranges

/-! # Blank space

The Unicode property White_Space, and cutting blanks off both ends of a text. -/
namespace Portugol.Text
open Ranges

/-- The code points with the property White_Space. -/
def blankRanges : List (Nat × Nat) :=
  [(0x9, 0xD), (0x20, 0x20), (0x85, 0x85), (0xA0, 0xA0), (0x1680, 0x1680), (0x2000, 0x200A), (0x2028, 0x2029),
   (0x202F, 0x202F), (0x205F, 0x205F), (0x3000, 0x3000)]

def isBlank (c : Char) : Bool := within blankRanges c.toNat

theorem blankRanges_sorted : sortedAbove 0 blankRanges := by decide

theorem isBlank_of_isWhitespace {c : Char} (h : c.isWhitespace) : isBlank c := by
  simp only [Char.isWhitespace, Bool.or_eq_true, decide_eq_true_eq] at h
  rcases h with ((rfl | rfl) | rfl) | rfl <;> decide

theorem ne_of_isBlank {c d : Char} (hc : isBlank c) (hd : isBlank d = false) : c ≠ d := by
  rintro rfl
  rw [hd] at hc
  cases hc

/-- The text without the characters at its two ends that satisfy `p`. -/
def strip (p : Char → Bool) (text : List Char) : List Char :=
  ((text.dropWhile p).reverse.dropWhile p).reverse

/-- What has none of these characters is left when they are put around it. -/
theorem strip_append {p : Char → Bool} {before body behind : List Char} (hbefore : ∀ c ∈ before, p c)
    (hbody : ∀ c ∈ body, p c = false) (hbehind : ∀ c ∈ behind, p c) : strip p (before ++ body ++ behind) = body := by
  rw [strip, List.append_assoc, List.dropWhile_append_of_pos hbefore]
  cases body with
  | nil =>
    have hnone : (behind ++ []).dropWhile p = [].dropWhile p := List.dropWhile_append_of_pos hbehind
    rw [List.append_nil] at hnone
    rw [List.nil_append, hnone]
    rfl
  | cons c body =>
    have hc : p c = false := hbody c (.head _)
    rw [List.cons_append, List.dropWhile_cons_of_neg (by simp [hc]), ← List.cons_append, List.reverse_append,
      List.dropWhile_append_of_pos fun d hd => hbehind d (List.mem_reverse.1 hd)]
    cases hreverse : (c :: body).reverse with
    | nil => simp at hreverse
    | cons d rest =>
      have hd : p d = false := hbody d (List.mem_reverse.1 (hreverse ▸ .head _))
      rw [List.dropWhile_cons_of_neg (by simp [hd]), ← hreverse, List.reverse_reverse]

def trim (text : String) : String := String.ofList (strip isBlank text.toList)

end Portugol.Text
