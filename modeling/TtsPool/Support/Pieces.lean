/-
# A list cut into pieces

A reader that asks for `n` items at a time, and stops when it is given none, cuts
a list into `pieces n`.  The pieces are the list again, none is empty, all but the
last are of length `n` and the last is no longer; where a unit divides `n` and the
whole, it divides every piece, and the pieces have as many units as the whole.
-/

import Mathlib.Data.List.Basic
import Mathlib.Algebra.BigOperators.Group.List.Basic
import Mathlib.Data.Nat.ModEq

namespace TtsPool

variable {α : Type*} {n unit : ℕ}

/-- The pieces of length `n` of a list; the last may be shorter. -/
def pieces (n : ℕ) (l : List α) : List (List α) :=
  if _h : l.take n = [] then [] else l.take n :: pieces n (l.drop n)
termination_by l.length
decreasing_by
  simp only [List.take_eq_nil_iff, not_or] at _h
  rw [List.length_drop]
  have := List.length_pos_iff.mpr _h.2
  omega

theorem pieces_of_nil {l : List α} (h : l.take n = []) : pieces n l = [] := by
  rw [pieces, dif_pos h]

theorem pieces_of_ne {l : List α} (h : l.take n ≠ []) : pieces n l = l.take n :: pieces n (l.drop n) := by
  rw [pieces, dif_neg h]

/-- **Nothing is lost and nothing moves.** -/
theorem flatten_pieces (hn : 0 < n) (l : List α) : (pieces n l).flatten = l := by
  induction l using pieces.induct n with
  | case1 l h =>
    rw [pieces_of_nil h]
    rcases List.take_eq_nil_iff.mp h with rfl | rfl
    · exact absurd hn (lt_irrefl 0)
    · rfl
  | case2 l h ih => rw [pieces_of_ne h, List.flatten_cons, ih, List.take_append_drop]

theorem ne_nil_of_mem_pieces {l piece : List α} (h : piece ∈ pieces n l) : piece ≠ [] := by
  induction l using pieces.induct n with
  | case1 l hnil =>
    rw [pieces_of_nil hnil] at h
    cases h
  | case2 l hne ih =>
    rw [pieces_of_ne hne] at h
    rcases List.mem_cons.mp h with rfl | h
    · exact hne
    · exact ih h

theorem length_le_of_mem_pieces {l piece : List α} (h : piece ∈ pieces n l) : piece.length ≤ n := by
  induction l using pieces.induct n with
  | case1 l hnil =>
    rw [pieces_of_nil hnil] at h
    cases h
  | case2 l hne ih =>
    rw [pieces_of_ne hne] at h
    rcases List.mem_cons.mp h with rfl | h
    · exact List.length_take_le n l
    · exact ih h

/-- A piece that another follows is full. -/
theorem length_of_mem_dropLast_pieces {l piece : List α} (h : piece ∈ (pieces n l).dropLast) :
    piece.length = n := by
  induction l using pieces.induct n with
  | case1 l hnil =>
    rw [pieces_of_nil hnil] at h
    cases h
  | case2 l hne ih =>
    rw [pieces_of_ne hne] at h
    by_cases hlast : pieces n (l.drop n) = []
    · rw [hlast] at h
      cases h
    · rw [List.dropLast_cons_of_ne_nil hlast] at h
      rcases List.mem_cons.mp h with rfl | h
      · have hmore : (l.drop n).take n ≠ [] := fun hnil => hlast (pieces_of_nil hnil)
        simp only [ne_eq, List.take_eq_nil_iff, List.drop_eq_nil_iff, not_or, not_le] at hmore
        exact List.length_take_of_le hmore.2.le
      · exact ih h

/-- **Whole units stay whole.** -/
theorem dvd_length_of_mem_pieces (hn : unit ∣ n) {l : List α} (hl : unit ∣ l.length) {piece : List α}
    (h : piece ∈ pieces n l) : unit ∣ piece.length := by
  induction l using pieces.induct n with
  | case1 l hnil =>
    rw [pieces_of_nil hnil] at h
    cases h
  | case2 l hne ih =>
    rw [pieces_of_ne hne] at h
    rcases List.mem_cons.mp h with rfl | h
    · rw [List.length_take]
      rcases min_choice n l.length with hmin | hmin <;> rw [hmin]
      · exact hn
      · exact hl
    · refine ih ?_ h
      rw [List.length_drop]
      exact Nat.dvd_sub hl hn

/-- And none is counted twice. -/
theorem sum_units_pieces (hpos : 0 < n) (hn : unit ∣ n) {l : List α} (hl : unit ∣ l.length) :
    ((pieces n l).map fun piece => piece.length / unit).sum = l.length / unit := by
  induction l using pieces.induct n with
  | case1 l hnil =>
    rw [pieces_of_nil hnil]
    rcases List.take_eq_nil_iff.mp hnil with rfl | rfl
    · exact absurd hpos (lt_irrefl 0)
    · simp
  | case2 l hne ih =>
    have hdrop : unit ∣ (l.drop n).length := by
      rw [List.length_drop]
      exact Nat.dvd_sub hl hn
    have htake : unit ∣ (l.take n).length :=
      dvd_length_of_mem_pieces hn hl (by rw [pieces_of_ne hne]; exact List.mem_cons_self ..)
    rw [pieces_of_ne hne, List.map_cons, List.sum_cons, ih hdrop, ← Nat.add_div_of_dvd_right htake,
      ← List.length_append, List.take_append_drop]

/-- Where the last unit is not whole, only that is not counted. -/
theorem sum_div_pieces (hpos : 0 < n) (hn : unit ∣ n) (l : List α) :
    ((pieces n l).map fun piece => piece.length / unit).sum = l.length / unit := by
  induction l using pieces.induct n with
  | case1 l hnil =>
    rw [pieces_of_nil hnil]
    rcases List.take_eq_nil_iff.mp hnil with rfl | rfl
    · exact absurd hpos (lt_irrefl 0)
    · simp
  | case2 l hne ih =>
    rw [pieces_of_ne hne, List.map_cons, List.sum_cons, ih, List.length_take, List.length_drop]
    rcases le_total n l.length with hfull | hshort
    · rw [min_eq_left hfull, ← Nat.add_div_of_dvd_right hn, Nat.add_sub_cancel' hfull]
    · rw [min_eq_right hshort, Nat.sub_eq_zero_of_le hshort, Nat.zero_div, Nat.add_zero]

theorem pieces_drop (k : ℕ) (l : List α) : pieces n (l.drop (k * n)) = (pieces n l).drop k := by
  induction k generalizing l with
  | zero => simp
  | succ k ih =>
    by_cases hnil : l.take n = []
    · rw [pieces_of_nil hnil, List.drop_nil, pieces_of_nil]
      rcases List.take_eq_nil_iff.mp hnil with rfl | rfl
      · exact List.take_zero
      · rw [List.drop_nil, List.take_nil]
    · rw [pieces_of_ne hnil, List.drop_succ_cons, ← ih, List.drop_drop, Nat.succ_mul, Nat.add_comm]

theorem pieces_take (k : ℕ) (l : List α) : pieces n (l.take (k * n)) = (pieces n l).take k := by
  induction k generalizing l with
  | zero =>
    rw [Nat.zero_mul, List.take_zero, List.take_zero, pieces_of_nil List.take_nil]
  | succ k ih =>
    have htake : (l.take ((k + 1) * n)).take n = l.take n := by
      rw [List.take_take, min_eq_left (Nat.le_mul_of_pos_left n (Nat.succ_pos k))]
    have hdrop : (l.take ((k + 1) * n)).drop n = (l.drop n).take (k * n) := by
      rw [List.drop_take, Nat.succ_mul, Nat.add_sub_cancel]
    by_cases hnil : l.take n = []
    · rw [pieces_of_nil hnil, pieces_of_nil (htake.trans hnil), List.take_nil]
    · rw [pieces_of_ne hnil, pieces_of_ne (htake.symm ▸ hnil), htake, hdrop, ih, List.take_succ_cons]

/-- As many pieces as there are whole ones, where there are no others. -/
theorem length_pieces (hn : 0 < n) {l : List α} (hl : n ∣ l.length) : (pieces n l).length = l.length / n := by
  have hunits := sum_units_pieces hn dvd_rfl hl
  have hone : ∀ piece ∈ pieces n l, piece.length / n = 1 := fun piece hmem => by
    have hle := length_le_of_mem_pieces hmem
    have hne := List.length_pos_of_ne_nil (ne_nil_of_mem_pieces hmem)
    obtain ⟨k, hk⟩ := dvd_length_of_mem_pieces dvd_rfl hl hmem
    have hpos : 0 < k := by
      rcases Nat.eq_zero_or_pos k with rfl | hpos
      · omega
      · exact hpos
    have hlast : piece.length = n := le_antisymm hle (hk ▸ Nat.le_mul_of_pos_right n hpos)
    rw [hlast, Nat.div_self hn]
  rw [← hunits, List.map_congr_left hone]
  simp

end TtsPool
