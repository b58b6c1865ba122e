import Mathlib.Data.List.Nodup
import Portugol.Token.Scan

/-! # The order of what a scan reports

The reports of a scan stand in the order of the text. Each is behind the one before it, and the last is at the end
of the source. So a position tells which token or which fault is meant. -/
namespace Portugol

theorem Position.lt_irrefl (p : Position) : ¬ p < p := by
  rw [lt_def]
  omega

theorem Position.le_antisymm {p q : Position} (h : p ≤ q) (h' : q ≤ p) : p = q := by
  rw [le_def] at h h'
  rw [mk.injEq]
  omega

namespace Report

def position : Report → Position
  | .token t => t.position
  | .error e => e.position
  | .finish p => p

variable {ps : List Piece}

theorem position_of_mem_ofPiece {p : Position} {piece : Piece} {r : Report} (h : r ∈ ofPiece p piece) :
    r.position = p ∧ ∀ q, r ≠ .finish q := by
  unfold ofPiece at h
  split at h <;> cases h <;> exact ⟨rfl, nofun⟩

/-- The reports on some pieces lie between the two ends of their text, and only the last lies at the far end. -/
theorem position_bounds (hne : ∀ piece ∈ ps, piece.text ≠ []) {p : Position} {r : Report}
    (h : r ∈ ofPieces p ps) :
    p ≤ r.position ∧ ((∀ q, r ≠ .finish q) → r.position < p.after (ps.map Piece.text).flatten) := by
  induction ps generalizing p with
  | nil =>
    rw [ofPieces, List.mem_singleton] at h
    subst h
    exact ⟨Position.le_rfl, fun hnot => absurd rfl (hnot p)⟩
  | cons piece rest ih =>
    obtain ⟨hpiece, hrest⟩ := List.forall_mem_cons.1 hne
    have hstep : p < p.after piece.text := p.lt_after hpiece
    rw [List.map_cons, List.flatten_cons, Position.after_append]
    rw [ofPieces, List.mem_append, Option.mem_toList] at h
    rcases h with h | h
    · obtain ⟨hp, -⟩ := position_of_mem_ofPiece h
      rw [hp]
      exact ⟨Position.le_rfl, fun _ => Position.lt_of_lt_of_le hstep (Position.le_after _ _)⟩
    · obtain ⟨hle, hlt⟩ := ih hrest h
      exact ⟨Position.le_trans (Position.le_of_lt hstep) hle, hlt⟩

theorem sorted_ofPieces (hne : ∀ piece ∈ ps, piece.text ≠ []) (p : Position) :
    (ofPieces p ps).Pairwise fun r s => r.position < s.position := by
  induction ps generalizing p with
  | nil => exact List.pairwise_singleton _ _
  | cons piece rest ih =>
    obtain ⟨hpiece, hrest⟩ := List.forall_mem_cons.1 hne
    rw [ofPieces, List.pairwise_append]
    refine ⟨?_, ih hrest _, ?_⟩
    · cases ofPiece p piece with
      | none => exact .nil
      | some r => exact List.pairwise_singleton _ _
    · intro r hr s hs
      rw [(position_of_mem_ofPiece (Option.mem_toList.1 hr)).1]
      exact Position.lt_of_lt_of_le (p.lt_after hpiece) (position_bounds hrest hs).1

end Report

variable (source : String)

theorem sorted_scan : (scan source).Pairwise fun r s => r.position < s.position :=
  Report.sorted_ofPieces (fun _ h => Piece.text_ne_nil h) .start

theorem sorted_tokens : (tokenize source).tokens.Pairwise fun t u => t.position < u.position := by
  refine (sorted_scan source).filterMap _ fun r s hlt t ht u hu => ?_
  cases r <;> cases ht
  cases s <;> cases hu
  exact hlt

theorem sorted_errors : (tokenize source).errors.Pairwise fun d e => d.position < e.position := by
  refine (sorted_scan source).filterMap _ fun r s hlt d hd e he => ?_
  cases r <;> cases hd
  cases s <;> cases he
  exact hlt

variable {source} in
theorem report_eq_of_position {r s : Report} (hr : r ∈ scan source) (hs : s ∈ scan source)
    (h : r.position = s.position) : r = s := by
  have hnodup : ((scan source).map Report.position).Nodup := by
    refine List.pairwise_map.2 ((sorted_scan source).imp fun hlt heq => ?_)
    rw [heq] at hlt
    exact Position.lt_irrefl _ hlt
  exact List.inj_on_of_nodup_map hnodup hr hs h

/-- What a scan reports before it comes to the end lies before the end. -/
theorem position_lt_stop {r : Report} (h : r ∈ scan source) (hr : ∀ q, r ≠ .finish q) :
    r.position < (tokenize source).stop := by
  have hlt := (Report.position_bounds (fun _ h => Piece.text_ne_nil h) h).2 hr
  rwa [Piece.flatten_pieces] at hlt

variable {source}

theorem token_lt_stop {t : Token} (h : t ∈ (tokenize source).tokens) :
    t.position < (tokenize source).stop := by
  obtain ⟨r, hr, ht⟩ := List.mem_filterMap.1 h
  cases r <;> cases ht
  exact position_lt_stop source hr nofun

theorem error_lt_stop {e : LexicalError} (h : e ∈ (tokenize source).errors) :
    e.position < (tokenize source).stop := by
  obtain ⟨r, hr, he⟩ := List.mem_filterMap.1 h
  cases r <;> cases he
  exact position_lt_stop source hr nofun

theorem error_position_ne {e : LexicalError} {t : Token} (he : e ∈ (tokenize source).errors)
    (ht : t ∈ (tokenize source).tokens) : e.position ≠ t.position := by
  obtain ⟨r, hr, he⟩ := List.mem_filterMap.1 he
  obtain ⟨s, hs, ht⟩ := List.mem_filterMap.1 ht
  cases r <;> cases he
  cases s <;> cases ht
  intro h
  cases report_eq_of_position hr hs h

theorem start_le_error {e : LexicalError} (h : e ∈ (tokenize source).errors) :
    Position.start ≤ e.position := by
  obtain ⟨r, hr, he⟩ := List.mem_filterMap.1 h
  cases r <;> cases he
  exact (Report.position_bounds (fun _ h => Piece.text_ne_nil h) hr).1

end Portugol
