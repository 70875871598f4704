/-
# Rounding to a binary format

A binary floating-point format has the numbers `k * 2 ^ e` with `k` of at most
`precision` bits and `e` not under `minExponent`.  `round` takes a rational to the
nearest of them, and of two equally near to the one with the even `k`: what one
arithmetic operation of IEEE 754 does to its exact result.  The format has no
upper end here; where the numbers that are formed stay under the machine's, its
rounding is this one.

What a program that compares and truncates rounded numbers needs is that rounding
is monotone and leaves the integers of the format where they are, so that it never
crosses one of them, and how far it moves a number.
-/

import Mathlib.Data.Int.Log
import Mathlib.Data.Rat.Floor
import Mathlib.Algebra.Order.Field.Power
import Mathlib.Tactic.Linarith
import Mathlib.Tactic.FieldSimp
import Mathlib.Tactic.Ring

namespace TtsPool

/-- The integer nearest to `x`, the even one of two that are equally near. -/
def roundEven (x : ℚ) : ℤ :=
  if Int.fract x < 1 / 2 ∨ (Int.fract x = 1 / 2 ∧ ⌊x⌋ % 2 = 0) then ⌊x⌋ else ⌊x⌋ + 1

@[simp] theorem roundEven_intCast (k : ℤ) : roundEven k = k := by
  simp [roundEven]

@[simp] theorem roundEven_zero : roundEven 0 = 0 := roundEven_intCast 0

theorem floor_le_roundEven (x : ℚ) : ⌊x⌋ ≤ roundEven x := by
  unfold roundEven
  split_ifs <;> omega

theorem roundEven_le_floor (x : ℚ) : roundEven x ≤ ⌊x⌋ + 1 := by
  unfold roundEven
  split_ifs <;> omega

theorem abs_roundEven_sub_le (x : ℚ) : |(roundEven x : ℚ) - x| ≤ 1 / 2 := by
  have hx := Int.floor_add_fract x
  have hnonneg := Int.fract_nonneg x
  have hlt := Int.fract_lt_one x
  unfold roundEven
  rw [abs_le]
  split_ifs with h
  · have hhalf : Int.fract x ≤ 1 / 2 := h.elim le_of_lt fun h => h.1.le
    constructor <;> linarith
  · have hhalf : 1 / 2 ≤ Int.fract x := not_lt.mp fun hlt => h (.inl hlt)
    push_cast
    constructor <;> linarith

theorem roundEven_mono {x y : ℚ} (hxy : x ≤ y) : roundEven x ≤ roundEven y := by
  have hfloor := Int.floor_le_floor hxy
  rcases hfloor.lt_or_eq with hlt | heq
  · have := roundEven_le_floor x
    have := floor_le_roundEven y
    omega
  · -- in one unit interval the fractional parts are ordered as the numbers
    have hfract : Int.fract x ≤ Int.fract y := by
      unfold Int.fract
      rw [heq]
      linarith
    unfold roundEven
    rw [heq]
    split_ifs with hx hy hy
    · exact le_rfl
    · omega
    · refine absurd ?_ hx
      rcases hy with hy | ⟨hy, heven⟩
      · exact .inl (by linarith)
      · rcases (hfract.trans hy.le).lt_or_eq with hhalf | hhalf
        · exact .inl hhalf
        · exact .inr ⟨hhalf, heven⟩
    · exact le_rfl

theorem le_roundEven {k : ℤ} {x : ℚ} (h : (k : ℚ) ≤ x) : k ≤ roundEven x :=
  (roundEven_intCast k).symm.trans_le (roundEven_mono h)

theorem roundEven_le {k : ℤ} {x : ℚ} (h : x ≤ k) : roundEven x ≤ k :=
  (roundEven_mono h).trans_eq (roundEven_intCast k)

/-- A binary floating-point format, without an upper end. -/
structure BinaryFormat where
  precision : ℕ
  minExponent : ℤ
  precision_pos : 0 < precision

namespace BinaryFormat

variable (F : BinaryFormat) {x y : ℚ}

/-- The exponent of the last place of the numbers of the size of `x`. -/
def exponent (x : ℚ) : ℤ := max (Int.log 2 |x| - F.precision + 1) F.minExponent

/-- The nearest number of the format. -/
def round (x : ℚ) : ℚ := roundEven (x / 2 ^ F.exponent x) * 2 ^ F.exponent x

@[simp] theorem round_zero : F.round 0 = 0 := by simp [round]

theorem round_nonneg (h : 0 ≤ x) : 0 ≤ F.round x := by
  have hscaled : 0 ≤ x / 2 ^ F.exponent x := by positivity
  have : (0 : ℚ) ≤ roundEven (x / 2 ^ F.exponent x) := by exact_mod_cast le_roundEven (by exact_mod_cast hscaled)
  unfold round
  positivity

/-- A multiple of the last place is left where it is. -/
theorem round_of_multiple {k e : ℤ} (h : F.exponent (k * 2 ^ e) ≤ e) : F.round (k * 2 ^ e) = k * 2 ^ e := by
  unfold round
  set f := F.exponent (k * 2 ^ e)
  have hscaled : (k : ℚ) * 2 ^ e / 2 ^ f = ((k * 2 ^ (e - f).toNat : ℤ) : ℚ) := by
    push_cast
    rw [mul_div_assoc, ← zpow_sub₀ two_ne_zero, ← zpow_natCast, Int.toNat_of_nonneg (by omega)]
  rw [hscaled, roundEven_intCast, ← hscaled]
  field_simp

theorem log_lt {x : ℚ} {e : ℤ} (hx : x ≠ 0) (h : |x| < 2 ^ e) : Int.log 2 |x| < e :=
  (Int.lt_zpow_iff_log_lt (b := 2) (by norm_num) (abs_pos.mpr hx)).mp (by exact_mod_cast h)

/-- **The numbers of the format** are left where they are. -/
theorem round_of_mem {k e : ℤ} (hk : |k| ≤ 2 ^ F.precision) (he : F.minExponent ≤ e) :
    F.round (k * 2 ^ e) = k * 2 ^ e := by
  rcases eq_or_ne k 0 with rfl | hk0
  · simp
  have hne : (k : ℚ) * 2 ^ e ≠ 0 := mul_ne_zero (Int.cast_ne_zero.mpr hk0) (by positivity)
  have habs : |(k : ℚ) * 2 ^ e| = |(k : ℚ)| * 2 ^ e := by rw [abs_mul, abs_of_pos (by positivity : (0 : ℚ) < 2 ^ e)]
  rcases hk.lt_or_eq with hlt | heq
  · apply F.round_of_multiple
    have hlog : Int.log 2 |(k : ℚ) * 2 ^ e| < F.precision + e := by
      apply log_lt hne
      rw [habs, zpow_add₀ two_ne_zero, zpow_natCast]
      gcongr
      exact_mod_cast hlt
    unfold exponent
    omega
  · -- the significand of one bit more is that of one bit, one place up
    obtain ⟨sign, hsign⟩ : ∃ sign : ℤ, k = sign * 2 ^ F.precision ∧ |sign| = 1 := by
      rcases abs_eq (by positivity) |>.mp heq with h | h
      · exact ⟨1, by simp [h]⟩
      · exact ⟨-1, by simp [h]⟩
    have hshift : (k : ℚ) * 2 ^ e = (sign : ℤ) * 2 ^ (F.precision + e) := by
      rw [hsign.1, zpow_add₀ two_ne_zero, zpow_natCast]
      push_cast
      ring
    rw [hshift]
    apply F.round_of_multiple
    have hlog : Int.log 2 |(sign : ℚ) * 2 ^ (F.precision + e)| < F.precision + e + 1 := by
      apply log_lt (hshift ▸ hne)
      have hone : |(sign : ℚ)| = 1 := by exact_mod_cast hsign.2
      rw [abs_mul, hone, one_mul, abs_of_pos (by positivity), zpow_add_one₀ two_ne_zero]
      linarith [show (0 : ℚ) < 2 ^ (F.precision + e) by positivity]
    have := F.precision_pos
    unfold exponent
    omega

theorem scaled_lt (x : ℚ) : |x / 2 ^ F.exponent x| < 2 ^ F.precision := by
  have hpos : (0 : ℚ) < 2 ^ F.exponent x := by positivity
  rw [abs_div, abs_of_pos hpos, div_lt_iff₀ hpos, ← zpow_natCast, ← zpow_add₀ two_ne_zero]
  have hlog : |x| < 2 ^ (Int.log 2 |x| + 1) := by
    exact_mod_cast Int.lt_zpow_succ_log_self (b := 2) (by norm_num) |x|
  refine hlog.trans_le (zpow_le_zpow_right₀ (by norm_num) ?_)
  unfold exponent
  omega

theorem abs_roundEven_scaled_le (x : ℚ) : |roundEven (x / 2 ^ F.exponent x)| ≤ 2 ^ F.precision := by
  obtain ⟨hlower, hupper⟩ := abs_lt.mp (F.scaled_lt x)
  rw [abs_le]
  constructor
  · exact le_roundEven (by exact_mod_cast hlower.le)
  · exact roundEven_le (by exact_mod_cast hupper.le)

/-- **Rounding gives a number of the format.** -/
@[simp] theorem round_round (x : ℚ) : F.round (F.round x) = F.round x :=
  F.round_of_mem (F.abs_roundEven_scaled_le x) (le_max_right _ _)

theorem round_intCast {k : ℤ} (hk : |k| ≤ 2 ^ F.precision) (hmin : F.minExponent ≤ 0) : F.round k = k := by
  simpa using F.round_of_mem (e := 0) hk hmin

/-- A number over the least normal one is at least half the range of its last place. -/
theorem le_roundEven_scaled (h : F.minExponent < F.exponent x) (hx : 0 < x) :
    (2 : ℤ) ^ (F.precision - 1) ≤ roundEven (x / 2 ^ F.exponent x) := by
  have hp := F.precision_pos
  have hexponent : F.exponent x = Int.log 2 |x| - (F.precision - 1 : ℕ) := by
    unfold exponent at h ⊢
    omega
  have hscaled : (((2 : ℤ) ^ (F.precision - 1) : ℤ) : ℚ) ≤ x / 2 ^ F.exponent x := by
    rw [le_div_iff₀ (by positivity), hexponent]
    push_cast
    rw [← zpow_natCast, ← zpow_add₀ two_ne_zero, add_sub_cancel, abs_of_pos hx]
    exact_mod_cast Int.zpow_log_le_self (b := 2) (by norm_num) hx
  exact le_roundEven hscaled

/-- **Rounding is monotone** on the numbers that are not negative. -/
theorem round_mono (hx : 0 ≤ x) (hxy : x ≤ y) : F.round x ≤ F.round y := by
  rcases hx.eq_or_lt with rfl | hpos
  · simpa using F.round_nonneg hxy
  have hlog : Int.log 2 |x| ≤ Int.log 2 |y| := by
    rw [abs_of_pos hpos, abs_of_pos (hpos.trans_le hxy)]
    exact Int.log_mono_right hpos hxy
  rcases (show F.exponent x ≤ F.exponent y by unfold exponent; omega).lt_or_eq with hlt | heq
  · -- what is rounded below a larger last place stays below it
    have hp := F.precision_pos
    have hlow : (roundEven (x / 2 ^ F.exponent x) : ℚ) ≤ 2 ^ F.precision := by
      exact_mod_cast (le_abs_self _).trans (F.abs_roundEven_scaled_le x)
    have hhigh : (2 : ℚ) ^ (F.precision - 1) ≤ roundEven (y / 2 ^ F.exponent y) := by
      exact_mod_cast F.le_roundEven_scaled (lt_of_le_of_lt (le_max_right _ _) hlt) (hpos.trans_le hxy)
    calc F.round x ≤ 2 ^ F.precision * 2 ^ F.exponent x := by unfold round; gcongr
      _ = 2 ^ (F.precision - 1) * 2 ^ (F.exponent x + 1) := by
        rw [zpow_add_one₀ two_ne_zero, ← mul_assoc, mul_right_comm, ← pow_succ, Nat.sub_add_cancel hp]
      _ ≤ 2 ^ (F.precision - 1) * 2 ^ F.exponent y := by
        gcongr
        · norm_num
        · omega
      _ ≤ F.round y := by unfold round; gcongr
  · unfold round
    rw [heq]
    have hint : roundEven (x / 2 ^ F.exponent y) ≤ roundEven (y / 2 ^ F.exponent y) :=
      roundEven_mono (by gcongr)
    have : (roundEven (x / 2 ^ F.exponent y) : ℚ) ≤ roundEven (y / 2 ^ F.exponent y) := by exact_mod_cast hint
    gcongr

/-- **How far rounding moves a number**: by half of its last place. -/
theorem abs_round_sub_le (x : ℚ) : |F.round x - x| ≤ 2 ^ F.exponent x / 2 := by
  have hpos : (0 : ℚ) < 2 ^ F.exponent x := by positivity
  have hfactor : F.round x - x = (roundEven (x / 2 ^ F.exponent x) - x / 2 ^ F.exponent x) * 2 ^ F.exponent x := by
    unfold round
    field_simp
  rw [hfactor, abs_mul, abs_of_pos hpos]
  have := mul_le_mul_of_nonneg_right (abs_roundEven_sub_le (x / 2 ^ F.exponent x)) hpos.le
  linarith

/-- Above the least normal number, by at most one part in `2 ^ precision`. -/
theorem abs_round_sub_le_mul (hx : 2 ^ (F.minExponent + F.precision - 1) ≤ x) :
    |F.round x - x| ≤ x / 2 ^ F.precision := by
  have hpos : 0 < x := lt_of_lt_of_le (by positivity) hx
  have hlog : (2 : ℚ) ^ Int.log 2 |x| ≤ x := by
    rw [abs_of_pos hpos]
    exact_mod_cast Int.zpow_log_le_self (b := 2) (by norm_num) hpos
  have hmin : F.minExponent + F.precision - 1 ≤ Int.log 2 |x| := by
    rw [abs_of_pos hpos]
    exact (Int.zpow_le_iff_le_log (b := 2) (by norm_num) hpos).mp (by exact_mod_cast hx)
  have hexponent : F.exponent x = Int.log 2 |x| - F.precision + 1 := by
    unfold exponent
    omega
  refine (F.abs_round_sub_le x).trans ?_
  rw [hexponent, zpow_add_one₀ two_ne_zero, zpow_sub₀ two_ne_zero, zpow_natCast, mul_div_assoc, div_self two_ne_zero,
    mul_one]
  gcongr

end BinaryFormat

/-- The doubles of IEEE 754. -/
def binary64 : BinaryFormat where
  precision := 53
  minExponent := -1074
  precision_pos := by decide

end TtsPool
