/-
# Durations in doubles

What `int((frames / framerate) * 1000)` is of the duration it stands for.  The two
roundings move the product by less than one part in `framerate`, and the exact
duration in milliseconds is a multiple of that part: so truncation gives the exact
truncated duration, except where the exact duration is a whole number of
milliseconds and the double falls short of it.  There it gives one less.

The limits are seen the same way: `int(max_duration_s * n)` lies between the
floor and the ceiling of the exact product, since the integers in question are
doubles and rounding is monotone.
-/

import Mathlib.Data.Nat.Cast.Order.Field
import Mathlib.Algebra.Order.Floor.Semiring
import TtsPool.Reference.Model

namespace TtsPool
namespace FiniteFloat

variable {a b n : ℕ} {x y : ℚ}

theorem nearest_mono (hx : 0 ≤ x) (hxy : x ≤ y) : (nearest x).value ≤ (nearest y).value :=
  binary64.round_mono hx hxy

theorem nearest_nonneg (hx : 0 ≤ x) : 0 ≤ (nearest x).value := binary64.round_nonneg hx

theorem nearest_natCast (hn : n ≤ 2 ^ 53) : (nearest n).value = n := by
  have habs : |(n : ℤ)| ≤ 2 ^ 53 := by
    rw [Nat.abs_cast]
    exact_mod_cast hn
  exact_mod_cast binary64.round_intCast habs (by decide)

theorem le_nearest (hn : n ≤ 2 ^ 53) (h : n ≤ x) : n ≤ (nearest x).value :=
  (nearest_natCast hn).symm.trans_le (nearest_mono n.cast_nonneg h)

theorem nearest_le (hn : n ≤ 2 ^ 53) (hx : 0 ≤ x) (h : x ≤ n) : (nearest x).value ≤ n :=
  (nearest_mono hx h).trans_eq (nearest_natCast hn)

/-- Rounding and truncation do not go below an integer under the number, -/
theorem le_int_nearest (hn : n ≤ 2 ^ 53) (h : n ≤ x) : n ≤ (nearest x).int := Nat.le_floor (le_nearest hn h)

/-- nor above one over it. -/
theorem int_nearest_le (hn : n ≤ 2 ^ 53) (hx : 0 ≤ x) (h : x ≤ n) : (nearest x).int ≤ n :=
  Nat.floor_le_of_le (nearest_le hn hx h)

/-- Far above the least normal number a rounding is off by at most one part in
`2 ^ 53`. -/
theorem abs_nearest_sub_le (hx : 1 / 2 ^ 64 ≤ x) : |(nearest x).value - x| ≤ x / 2 ^ 53 := by
  apply binary64.abs_round_sub_le_mul
  refine le_trans ?_ hx
  rw [one_div, ← zpow_natCast, ← zpow_neg]
  exact zpow_le_zpow_right₀ (by norm_num) (by decide)

theorem quotient_nonneg : 0 ≤ (quotient a b).value := nearest_nonneg (by positivity)

/-- No operation on a header's numbers comes near the upper end of the format. -/
theorem quotient_lt (ha : a < 2 ^ 32) (hb : 0 < b) :
    (quotient a b).value ≤ 2 ^ 32 ∧ ((quotient a b).times 1000).value ≤ 2 ^ 42 := by
  have hexact : (a : ℚ) / b ≤ (2 ^ 32 : ℕ) := by
    refine (div_le_self a.cast_nonneg (by exact_mod_cast hb)).trans ?_
    exact_mod_cast ha.le
  have hquotient : (quotient a b).value ≤ (2 ^ 32 : ℕ) := nearest_le (by norm_num) (by positivity) hexact
  have hproduct : ((quotient a b).times 1000).value ≤ (2 ^ 42 : ℕ) := by
    refine nearest_le (by norm_num) (mul_nonneg quotient_nonneg (by positivity)) ?_
    push_cast at hquotient ⊢
    linarith
  exact ⟨by exact_mod_cast hquotient, by exact_mod_cast hproduct⟩

/-- The two roundings move the duration in milliseconds by less than one part in
`b`. -/
theorem abs_times_sub_lt (ha : a < 2 ^ 32) (hb : 0 < b) (hb32 : b < 2 ^ 32) :
    |((quotient a b).times 1000).value - 1000 * a / b| < 1 / b := by
  have hbq : (0 : ℚ) < b := by exact_mod_cast hb
  rcases Nat.eq_zero_or_pos a with rfl | ha0
  · simpa [quotient, times, nearest] using hbq
  have haq : (1 : ℚ) ≤ a := by exact_mod_cast ha0
  have hexact : (1 : ℚ) / 2 ^ 32 ≤ a / b := by
    have : (b : ℚ) ≤ 2 ^ 32 := by exact_mod_cast hb32.le
    gcongr
  have hfirst := abs_le.mp (abs_nearest_sub_le (x := a / b) (by linarith))
  set q : ℚ := a / b with hq
  have hqv : (quotient a b).value = (nearest q).value := rfl
  have hproduct : (1 : ℚ) / 2 ^ 64 ≤ (quotient a b).value * (1000 : ℕ) := by
    rw [hqv]
    push_cast
    linarith [hfirst.1]
  have hsecond := abs_le.mp (abs_nearest_sub_le hproduct)
  have hsmall : 3000 * q < 2 ^ 53 * (1 / b) := by
    rw [hq, ← mul_div_assoc, ← mul_div_assoc, div_lt_div_iff_of_pos_right hbq]
    have : (a : ℚ) < 2 ^ 32 := by exact_mod_cast ha
    linarith
  rw [show 1000 * (a : ℚ) / b = 1000 * q by rw [hq]; ring, abs_lt]
  rw [hqv] at hsecond
  push_cast at hsecond
  change -(1 / (b : ℚ)) < (nearest ((nearest q).value * (1000 : ℕ))).value - 1000 * q ∧
    (nearest ((nearest q).value * (1000 : ℕ))).value - 1000 * q < 1 / b
  push_cast
  constructor <;> linarith [hfirst.1, hfirst.2, hsecond.1, hsecond.2]

end FiniteFloat

/-- The exact duration is a whole number of milliseconds and the double falls short
of it. -/
def FallsShort (frames framerate : ℕ) : Prop :=
  framerate ∣ 1000 * frames ∧ ((FiniteFloat.quotient frames framerate).times 1000).value < 1000 * frames / framerate

instance (frames framerate : ℕ) : Decidable (FallsShort frames framerate) := inferInstanceAs (Decidable (_ ∧ _))

/-- **A duration in milliseconds** is the exact one truncated, or one less where
the double falls short of a whole number. -/
theorem frameDurationMs_add {frames framerate : ℕ} (hframes : frames < 2 ^ 32) (hpos : 0 < framerate)
    (hrate : framerate < 2 ^ 32) :
    frameDurationMs frames framerate + (if FallsShort frames framerate then 1 else 0) = 1000 * frames / framerate := by
  obtain ⟨hlower, hupper⟩ := abs_lt.mp (FiniteFloat.abs_times_sub_lt hframes hpos hrate)
  set y := ((FiniteFloat.quotient frames framerate).times 1000).value with hy
  have hy0 : 0 ≤ y := FiniteFloat.nearest_nonneg (mul_nonneg FiniteFloat.quotient_nonneg (by positivity))
  have hr : (0 : ℚ) < framerate := by exact_mod_cast hpos
  have hone : 1 / (framerate : ℚ) ≤ 1 := by
    rw [div_le_one hr]
    exact_mod_cast hpos
  set q := 1000 * frames / framerate with hq
  set s := 1000 * frames % framerate with hs
  have hsplit : 1000 * (frames : ℚ) / framerate = q + s / framerate := by
    have hdiv : (1000 * frames : ℕ) = framerate * q + s := (Nat.div_add_mod _ _).symm
    have hcast : 1000 * (frames : ℚ) = framerate * q + s := by exact_mod_cast hdiv
    rw [hcast]
    field_simp
  have hint : frameDurationMs frames framerate = ⌊y⌋₊ := rfl
  rcases Nat.eq_zero_or_pos s with hzero | hspos
  · rw [hzero] at hsplit
    simp only [Nat.cast_zero, zero_div, add_zero] at hsplit
    rw [hsplit] at hlower hupper
    by_cases hshort : y < q
    · have hq0 : 0 < q := by exact_mod_cast hy0.trans_lt hshort
      have hfloor : ⌊y⌋₊ = q - 1 := by
        rw [Nat.floor_eq_iff hy0]
        push_cast [Nat.cast_sub hq0]
        constructor <;> linarith
      rw [if_pos ⟨Nat.dvd_of_mod_eq_zero hzero, by rwa [hsplit]⟩, hint, hfloor]
      omega
    · have hfloor : ⌊y⌋₊ = q := by
        rw [Nat.floor_eq_iff hy0]
        constructor <;> linarith
      rw [if_neg fun h => hshort (by rw [← hsplit]; exact h.2), hint, hfloor]
      rfl
  · -- between two whole numbers the double stays between them
    have hnot : ¬ FallsShort frames framerate := fun h => hspos.ne' (Nat.mod_eq_zero_of_dvd h.1)
    have hlow : 1 / (framerate : ℚ) ≤ s / framerate := by
      gcongr
      exact_mod_cast hspos
    have hhigh : (s : ℚ) / framerate + 1 / framerate ≤ 1 := by
      rw [← add_div, div_le_one hr]
      exact_mod_cast Nat.mod_lt _ hpos
    have hfloor : ⌊y⌋₊ = q := by
      rw [Nat.floor_eq_iff hy0]
      constructor <;> linarith
    rw [if_neg hnot, hint, hfloor]
    rfl

end TtsPool
