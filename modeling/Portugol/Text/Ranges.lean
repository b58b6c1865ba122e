/-! # Characters by ranges of code points

A class of characters is written as the list of its ranges, in rising order and with gaps between them.
On such a list the search stops at the first range that begins above the character, and it finds exactly
the characters of the ranges (`within_iff`), so that a check of them all is one of the whole class (`of_within`). -/
namespace Portugol.Text.Ranges

/-- Whether a code point lies in one of the ranges, which are sorted. -/
def within : List (Nat × Nat) → Nat → Bool
  | [], _ => false
  | (low, high) :: ranges, n => if n < low then false else n ≤ high || within ranges n

/-- Every range lies above `bound`, ends after it begins, and is followed by sorted ranges above it. -/
def sortedAbove : Nat → List (Nat × Nat) → Bool
  | _, [] => true
  | bound, (low, high) :: ranges => bound ≤ low && low ≤ high && sortedAbove (high + 1) ranges

private theorem le_of_mem {bound : Nat} {ranges : List (Nat × Nat)} (h : sortedAbove bound ranges)
    {r : Nat × Nat} (hr : r ∈ ranges) : bound ≤ r.1 := by
  induction ranges generalizing bound with
  | nil => simp at hr
  | cons s ranges ih =>
    simp only [sortedAbove, Bool.and_eq_true, decide_eq_true_eq] at h
    rcases List.mem_cons.1 hr with rfl | hr
    · exact h.1.1
    · have := ih h.2 hr
      omega

/-- On sorted ranges the search finds exactly the code points of the ranges. -/
theorem within_iff {bound : Nat} {ranges : List (Nat × Nat)} (h : sortedAbove bound ranges) {n : Nat} :
    within ranges n ↔ ∃ r ∈ ranges, r.1 ≤ n ∧ n ≤ r.2 := by
  induction ranges generalizing bound with
  | nil => simp [within]
  | cons s ranges ih =>
    obtain ⟨low, high⟩ := s
    simp only [sortedAbove, Bool.and_eq_true, decide_eq_true_eq] at h
    simp only [within, List.mem_cons, exists_eq_or_imp]
    split
    · next hn =>
      simp only [Bool.false_eq_true, false_iff, not_or, not_exists, not_and]
      refine ⟨fun _ => by omega, fun r hr _ => ?_⟩
      have := le_of_mem h.2 hr
      omega
    · next hn =>
      rw [Bool.or_eq_true, ih h.2, decide_eq_true_eq]
      constructor
      · rintro (h' | h')
        · exact .inl ⟨by omega, h'⟩
        · exact .inr h'
      · rintro (h' | h')
        · exact .inl h'.2
        · exact .inr h'

/-- What a check of all code points of the ranges finds holds of every one that lies within. -/
theorem of_within {bound : Nat} {ranges : List (Nat × Nat)} (h : sortedAbove bound ranges) {p : Nat → Bool}
    (hp : ranges.all fun r => (List.range' r.1 (r.2 + 1 - r.1)).all p) {n : Nat} (hn : within ranges n) : p n := by
  obtain ⟨r, hr, hlow, hhigh⟩ := (within_iff h).1 hn
  refine List.all_eq_true.1 (List.all_eq_true.1 hp r hr) n ?_
  rw [List.mem_range'_1]
  omega

end Portugol.Text.Ranges
