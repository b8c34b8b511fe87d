import Mathlib.Algebra.Order.Group.Nat
import Mathlib.Order.Bounds.Defs

/-!
# Rounded division of natural numbers

Integer code that computes `⌊a b / c⌋` and `⌈a b / c⌉` never forms the exact
quotient: it rounds up by adding `c - 1` before dividing, splits `b` into quotient
and remainder to keep intermediate products small, and sizes loops by the bit
length of a word. This module names the rounded quotient and gives the facts about
those three devices that the proofs of such code use:

* `ceilDiv n d = (n + d - 1) / d` and its two-sided bounds `le_mul_ceilDiv`,
  `mul_ceilDiv_lt`, with `ceilDiv_le_of_le_mul` and `ceilDiv_le_div_add_one`;
* `isGreatest_div`, `isLeast_ceilDiv` — the two rounded quotients as the extreme
  integers on one side of `n / d`;
* `mul_div_eq_split`, `ceilDiv_mul_eq_split` — `a b / c` computed from
  `b = q c + r` as `a q + a r / c` (resp. rounded up);
* `bitLength` — the significant bits of a word, computed by a structural loop, with
  `lt_two_pow_bitLength`.
-/

namespace HcnetCore

namespace Arith

/-- `⌈n / d⌉`, computed as `(n + d - 1) / d`. -/
def ceilDiv (n d : ℕ) : ℕ := (n + d - 1) / d

variable {n d k : ℕ}

/-- `⌈n / d⌉` times `d` covers `n`. -/
theorem le_mul_ceilDiv (hd : 0 < d) : n ≤ d * ceilDiv n d := by
  have h := Nat.div_add_mod (n + d - 1) d
  have hr := Nat.mod_lt (n + d - 1) hd
  unfold ceilDiv
  omega

/-- ... and exceeds it by less than `d`. -/
theorem mul_ceilDiv_lt (hd : 0 < d) : d * ceilDiv n d < n + d := by
  have h := Nat.div_add_mod (n + d - 1) d
  unfold ceilDiv
  omega

/-- `⌈n / d⌉` is the least `k` with `n ≤ d k`. -/
theorem ceilDiv_le_of_le_mul (hd : 0 < d) (h : n ≤ d * k) : ceilDiv n d ≤ k := by
  have hlt := mul_ceilDiv_lt (n := n) hd
  by_contra hk
  have : d * (k + 1) ≤ d * ceilDiv n d := Nat.mul_le_mul_left d (by omega)
  rw [Nat.mul_succ] at this
  omega

/-- `⌈n / d⌉` is zero exactly for `n = 0`. -/
theorem ceilDiv_eq_zero_iff (hd : 0 < d) : ceilDiv n d = 0 ↔ n = 0 := by
  constructor
  · intro h
    have := le_mul_ceilDiv (n := n) hd
    rw [h, Nat.mul_zero] at this
    omega
  · rintro rfl
    unfold ceilDiv
    rw [Nat.zero_add, Nat.div_eq_of_lt (by omega)]

/-- On integers, `⌈n / d⌉` is the usual `(n + d - 1) / d`. -/
theorem natCast_ceilDiv (hd : 0 < d) : ((ceilDiv n d : ℕ) : ℤ) = ((n : ℤ) + d - 1) / d := by
  rw [ceilDiv, Int.natCast_div]
  congr 1
  omega

/-- `⌊n / d⌋` is the greatest integer `o` with `o d ≤ n`. -/
theorem isGreatest_div (hd : 0 < d) : IsGreatest {o : ℤ | o * d ≤ n} ((n / d : ℕ) : ℤ) := by
  refine ⟨?_, fun o ho => ?_⟩
  · show ((n / d : ℕ) : ℤ) * d ≤ n
    exact_mod_cast Nat.div_mul_le_self n d
  · rcases Int.lt_or_le o 0 with hneg | hnonneg
    · exact (hneg.trans_le (Int.natCast_nonneg _)).le
    · obtain ⟨k, rfl⟩ := Int.eq_ofNat_of_zero_le hnonneg
      have hk : k * d ≤ n := by
        have ho : (k : ℤ) * d ≤ n := ho
        exact_mod_cast ho
      exact_mod_cast (Nat.le_div_iff_mul_le hd).mpr hk

/-- `⌈n / d⌉` is the least non-negative integer `t` with `n ≤ t d`. -/
theorem isLeast_ceilDiv (hd : 0 < d) :
    IsLeast {t : ℤ | 0 ≤ t ∧ (n : ℤ) ≤ t * d} ((ceilDiv n d : ℕ) : ℤ) := by
  refine ⟨⟨Int.natCast_nonneg _, ?_⟩, fun t ⟨ht, hle⟩ => ?_⟩
  · have := le_mul_ceilDiv (n := n) hd
    rw [Nat.mul_comm] at this
    exact_mod_cast this
  · obtain ⟨k, rfl⟩ := Int.eq_ofNat_of_zero_le ht
    have hk : n ≤ d * k := by rw [Nat.mul_comm]; exact_mod_cast hle
    exact_mod_cast ceilDiv_le_of_le_mul hd hk

/-- Rounding up adds at most one to rounding down. -/
theorem ceilDiv_le_div_add_one : ceilDiv n d ≤ n / d + 1 := by
  rcases Nat.eq_zero_or_pos d with rfl | hd
  · simp [ceilDiv]
  · apply ceilDiv_le_of_le_mul hd
    have := Nat.lt_div_mul_add (a := n) hd
    rw [Nat.mul_comm, Nat.add_mul, Nat.one_mul]
    omega

/-- **Division through quotient and remainder.** With `b = q c + r`,
`⌊a b / c⌋ = a q + ⌊a r / c⌋`. -/
theorem mul_div_eq_split (a b : ℕ) {c : ℕ} (hc : 0 < c) :
    a * (b / c) + a * (b % c) / c = a * b / c := by
  have hb : a * b = a * (b % c) + c * (a * (b / c)) := by
    conv_lhs => rw [← Nat.mod_add_div b c]
    rw [Nat.mul_add, Nat.mul_left_comm]
  rw [hb, Nat.add_mul_div_left _ _ hc, Nat.add_comm]

/-- The same split rounding up: `⌈a b / c⌉ = a q + ⌈a r / c⌉`. -/
theorem ceilDiv_mul_eq_split (a b : ℕ) {c : ℕ} (hc : 0 < c) :
    a * (b / c) + (a * (b % c) + c - 1) / c = ceilDiv (a * b) c := by
  have hb : a * b + c - 1 = (a * (b % c) + c - 1) + c * (a * (b / c)) := by
    have := Nat.mod_add_div b c
    have hsplit : a * b = a * (b % c) + a * (c * (b / c)) := by
      conv_lhs => rw [← this]
      rw [Nat.mul_add]
    rw [hsplit, Nat.mul_left_comm]
    omega
  rw [ceilDiv, hb, Nat.add_mul_div_left _ _ hc, Nat.add_comm]

/-- The number of significant bits of `x` among its `w` lowest: one more than the
position of its highest set bit, `0` for `0`. The loop is on the width, so it is
structural and evaluates by `decide`. -/
def bitLength : ℕ → ℕ → ℕ
  | 0, _ => 0
  | w + 1, x => if x = 0 then 0 else bitLength w (x / 2) + 1

/-- A word below `2 ^ w` is below two to the power of its bit length. -/
theorem lt_two_pow_bitLength : ∀ {w x : ℕ}, x < 2 ^ w → x < 2 ^ bitLength w x
  | 0, _, h => h
  | w + 1, x, h => by
    by_cases hx : x = 0
    · simp [hx, bitLength]
    · -- the bits of `x / 2` are those of `x` shifted down by one
      have ih := lt_two_pow_bitLength (w := w) (x := x / 2) (by rw [Nat.pow_succ] at h; omega)
      simp only [bitLength, hx, if_false, Nat.pow_succ]
      omega

end Arith

end HcnetCore
