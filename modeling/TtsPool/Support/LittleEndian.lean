/-
# Unsigned integers, the low byte first

`leBytes width n` is what `struct.pack` makes of an unsigned integer that fits in
`width` bytes, and `leNat` what `struct.unpack` makes of bytes.  They are inverse to
each other on numbers below `256 ^ width` and on lists of that length.
-/

import Mathlib.Data.Nat.Notation
import Mathlib.Tactic.Ring

namespace TtsPool

/-- The bytes of a number, the low one first. -/
def leBytes : ℕ → ℕ → List UInt8
  | 0, _ => []
  | width + 1, n => UInt8.ofNat n :: leBytes width (n / 256)

/-- The number of some bytes, the low one first. -/
def leNat : List UInt8 → ℕ
  | [] => 0
  | b :: bs => b.toNat + 256 * leNat bs

@[simp] theorem length_leBytes (width n : ℕ) : (leBytes width n).length = width := by
  induction width generalizing n with
  | zero => rfl
  | succ width ih => simp [leBytes, ih]

theorem leNat_lt (bs : List UInt8) : leNat bs < 256 ^ bs.length := by
  induction bs with
  | nil => simp [leNat]
  | cons b bs ih =>
    have hb : b.toNat < 256 := b.toNat_lt
    rw [leNat, List.length_cons, Nat.pow_succ]
    omega

/-- **What is packed is unpacked.** -/
theorem leNat_leBytes {width n : ℕ} (h : n < 256 ^ width) : leNat (leBytes width n) = n := by
  induction width generalizing n with
  | zero => simp_all [leBytes, leNat]
  | succ width ih =>
    have hdiv : n / 256 < 256 ^ width := Nat.div_lt_of_lt_mul (by rwa [Nat.pow_succ, mul_comm] at h)
    have hlow : (UInt8.ofNat n).toNat = n % 256 := UInt8.toNat_ofNat'
    rw [leBytes, leNat, ih hdiv, hlow]
    omega

end TtsPool
