import Mathlib.Algebra.Order.Group.Nat
import Mathlib.Data.Nat.Bitwise

/-!
# Rounding down to a multiple, and the bit mask that computes it

Code that schedules work every `2 ^ k` steps rounds a counter down to a multiple of
`2 ^ k` by clearing its low bits, `v & ~(2 ^ k - 1)`. This module states what that
computes on `w`-bit words (`and_two_pow_sub_two_pow`, and `toNat_and_not_sub_one`
for `UInt32`), and the facts about `n / d * d`, the largest multiple of `d` that is
at most `n`, that proofs about such schedules use:

* `div_mul_succ` — how the last multiple moves when the counter steps;
* `div_mul_le_div_mul_of_dvd` — a coarser period has an earlier last multiple;
* `div_mul_eq_sub_of_dvd_succ` — just before a multiple, the last one is a period back.
-/

namespace HcnetCore

namespace Arith

/-- Clearing the bits below `k` of a `w`-bit word rounds it down to a multiple of
`2 ^ k`. -/
theorem and_two_pow_sub_two_pow {v w k : ℕ} (hv : v < 2 ^ w) (hk : k ≤ w) :
    v &&& (2 ^ w - 2 ^ k) = v / 2 ^ k * 2 ^ k := by
  have hsplit : 2 ^ w - 2 ^ k = (2 ^ (w - k) - 1) * 2 ^ k := by
    rw [Nat.sub_mul, one_mul, ← pow_add, Nat.sub_add_cancel hk]
  apply Nat.eq_of_testBit_eq
  intro i
  rw [Nat.testBit_and, hsplit, Nat.testBit_mul_two_pow, Nat.testBit_mul_two_pow,
    Nat.testBit_two_pow_sub_one, Nat.testBit_div_two_pow]
  by_cases hi : k ≤ i
  · rw [Nat.sub_add_cancel hi]
    by_cases hw : i < w
    · simp [hi]
      omega
    · -- above the width, `v` has no bits
      have hvi : v.testBit i = false :=
        Nat.testBit_lt_two_pow (lt_of_lt_of_le hv (Nat.pow_le_pow_right (by decide) (by omega)))
      simp [hvi]
  · simp [hi]

/-- `v & ~(b - 1)` on `UInt32`, for `b = 2 ^ k`. -/
theorem toNat_and_not_sub_one {v b : UInt32} {k : ℕ} (hb : b.toNat = 2 ^ k) (hk : k ≤ 32) :
    (v &&& ~~~(b - 1)).toNat = v.toNat / 2 ^ k * 2 ^ k := by
  have hb1 : (b - 1).toNat = 2 ^ k - 1 := by
    rw [UInt32.toNat_sub_of_le _ _ (by rw [UInt32.le_iff_toNat_le, hb]; simp; exact Nat.one_le_two_pow)]
    simp [hb]
  rw [UInt32.toNat_and, UInt32.toNat_not, hb1, UInt32.size]
  have hcomp : 4294967296 - 1 - (2 ^ k - 1) = 2 ^ 32 - 2 ^ k := by
    have := Nat.one_le_two_pow (n := k)
    omega
  rw [hcomp, and_two_pow_sub_two_pow v.toNat_lt hk]

variable {n d : ℕ}

/-- The last multiple of `d` moves to `n + 1` when `d` divides it, and stays
otherwise. -/
theorem div_mul_succ (n d : ℕ) :
    (n + 1) / d * d = if d ∣ n + 1 then n + 1 else n / d * d := by
  split_ifs with h
  · exact Nat.div_mul_cancel h
  · rw [Nat.succ_div, if_neg h, Nat.add_zero]

/-- With a period that `d` divides, the last multiple comes no later. -/
theorem div_mul_le_div_mul_of_dvd {d' : ℕ} (hd : 0 < d) (hdd : d ∣ d') :
    n / d' * d' ≤ n / d * d := by
  obtain ⟨c, rfl⟩ := hdd
  have hk : n / (d * c) * c ≤ n / d := by
    rw [Nat.le_div_iff_mul_le hd, Nat.mul_assoc, Nat.mul_comm c d]
    exact Nat.div_mul_le_self n (d * c)
  calc n / (d * c) * (d * c) = n / (d * c) * c * d := by
        rw [Nat.mul_comm d c, ← Nat.mul_assoc]
    _ ≤ n / d * d := Nat.mul_le_mul_right d hk

/-- Just before a multiple of `d`, the last multiple is one period back. -/
theorem div_mul_eq_sub_of_dvd_succ (h : d ∣ n + 1) : n / d * d = n + 1 - d := by
  have hcancel := Nat.div_mul_cancel h
  rw [Nat.succ_div, if_pos h, Nat.add_mul, one_mul] at hcancel
  omega

/-- The last multiple of `d` is `0` exactly before the first one. -/
theorem div_mul_eq_zero_iff (hd : 0 < d) : n / d * d = 0 ↔ n < d := by
  rw [Nat.mul_eq_zero, Nat.div_eq_zero_iff]
  omega

/-- Rounding down to a multiple of `d` and then of a multiple `d'` of `d` rounds down
to a multiple of `d'`. -/
theorem div_mul_div_mul_of_dvd {d' : ℕ} (hd : 0 < d) (hdd : d ∣ d') :
    n / d * d / d' * d' = n / d' * d' := by
  obtain ⟨c, rfl⟩ := hdd
  rw [← Nat.div_div_eq_div_mul (n / d * d) d c, Nat.mul_div_cancel _ hd,
    Nat.div_div_eq_div_mul]

end Arith

end HcnetCore
