import Mathlib.Data.Nat.Sqrt
import Mathlib.Tactic.Linarith
import Mathlib.Tactic.Ring
import HcnetCore.Arith.Division

/-!
# The integer Babylonian iteration for a square root

Integer code computes `⌈√N⌉` with the iteration `x ↦ ⌈(x + ⌈R / x⌉) / 2⌉` on
`R = N - 1`, started above the root and stopped when it no longer moves. This
module proves what such a loop needs:

* `step_le`, `step_sq` — from any `x` with `N ≤ x²` the step does not increase and
  stays above the root: `N ≤ x²` is an invariant, and the iteration is monotone;
* `step_lt_of_ne` — so until it stops it strictly decreases, and from `x` it stops
  within `x` steps;
* `sqrt_eq_of_step_eq` — where it stops, `x = ⌈√N⌉`, and the usual correction
  (`x` if `x² ≤ N`, else `x - 1`) is `Nat.sqrt N`.
-/

namespace HcnetCore

namespace NewtonSqrt

open Arith

/-- One step of the iteration towards `⌈√(R + 1)⌉`: `⌈(x + ⌈R / x⌉) / 2⌉`. -/
def step (R x : ℕ) : ℕ := (x + ceilDiv R x + 1) / 2

variable {R x : ℕ}

/-- Above the root, `⌈R / x⌉` is at most `x`. -/
theorem ceilDiv_le (hx : R + 1 ≤ x * x) : ceilDiv R x ≤ x := by
  have hpos : 0 < x := Nat.pos_of_ne_zero fun h => by simp [h] at hx
  exact ceilDiv_le_of_le_mul hpos (by omega)

/-- **The iteration does not increase above the root.** -/
theorem step_le (hx : R + 1 ≤ x * x) : step R x ≤ x := by
  have := ceilDiv_le hx
  unfold step
  omega

/-- **The iteration stays above the root.** With `y = ⌈R / x⌉` and `m` the step,
`x + y ≤ 2m` and `R ≤ x y`; if `m² ≤ R` then `(x + y)² ≤ 4 x y`, so `x = y` and
`x² ≤ R`, against `R < x²`. -/
theorem step_sq (hx : R + 1 ≤ x * x) : R + 1 ≤ step R x * step R x := by
  have hpos : 0 < x := Nat.pos_of_ne_zero fun h => by simp [h] at hx
  have hxy := le_mul_ceilDiv (n := R) hpos
  have h2m : x + ceilDiv R x ≤ 2 * step R x := by unfold step; omega
  by_contra hlt
  push Not at hlt
  -- `(x + y)² ≤ 4 m² ≤ 4 R ≤ 4 x y`
  have hsq : (x + ceilDiv R x) * (x + ceilDiv R x) ≤ 4 * (x * ceilDiv R x) := by
    nlinarith
  -- hence `(x - y)² ≤ 0`, so `y = x`
  have hyx : ceilDiv R x = x := by
    have : ((x : ℤ) - ceilDiv R x) ^ 2 ≤ 0 := by nlinarith
    have : ((x : ℤ) - ceilDiv R x) = 0 := by nlinarith [sq_nonneg ((x : ℤ) - ceilDiv R x)]
    omega
  rw [hyx] at hsq h2m
  nlinarith

/-- Until it stops, the iteration strictly decreases. -/
theorem step_lt_of_ne (hx : R + 1 ≤ x * x) (h : step R x ≠ x) : step R x < x :=
  lt_of_le_of_ne (step_le hx) h

/-- Where the iteration stops, `(x - 1)² ≤ R`: the step of `x` is `x` only if
`⌈R / x⌉ ≥ x - 1`. -/
theorem sq_pred_le_of_step_eq (hx : 0 < x) (h : step R x = x) : (x - 1) * (x - 1) ≤ R := by
  have hy : x - 1 ≤ ceilDiv R x := by unfold step at h; omega
  rw [ceilDiv, Nat.le_div_iff_mul_le hx] at hy
  obtain ⟨k, rfl⟩ : ∃ k, x = k + 1 := ⟨x - 1, by omega⟩
  -- `k (k + 1) ≤ R + k`, that is `k² ≤ R`
  have hk : k * (k + 1) = k * k + k := by ring
  simp only [Nat.add_sub_cancel] at hy ⊢
  omega

/-- **Where the iteration stops, the correction gives the square root**:
`x = ⌈√(R + 1)⌉`, so `x` if `x² ≤ R + 1`, else `x - 1`, is `Nat.sqrt (R + 1)`. -/
theorem sqrt_eq_of_step_eq (hx : R + 1 ≤ x * x) (h : step R x = x) :
    (if x * x ≤ R + 1 then x else x - 1) = Nat.sqrt (R + 1) := by
  have hpos : 0 < x := Nat.pos_of_ne_zero fun h => by simp [h] at hx
  have hlow := sq_pred_le_of_step_eq hpos h
  split_ifs with hle
  · -- `x² = R + 1`
    exact Nat.eq_sqrt.mpr ⟨hle, by nlinarith⟩
  · obtain ⟨k, rfl⟩ : ∃ k, x = k + 1 := ⟨x - 1, by omega⟩
    simp only [Nat.add_sub_cancel] at hlow ⊢
    exact Nat.eq_sqrt.mpr ⟨by omega, by omega⟩

end NewtonSqrt

end HcnetCore
