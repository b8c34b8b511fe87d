import HcnetCore.Pool.LiquidityPool

/-!
# `exchangeWithPool` trades at the constant-product optimum

A trade with a pool that charges `f` basis points on what is paid in keeps the
product when `KeepsFeeProduct 10000 (10000 - f) X Y t o` holds (`KeepsPoolProduct`):
`10000 X Y ≤ (10000 X + (10000 - f) t)(Y - o)`. The code never states this law; it
computes one side of the trade from the other with `hugeDivide`. This module evaluates
both path-payment modes on natural numbers (`exchangeWithPool_send_eq`,
`exchangeWithPool_receive_eq`), and shows that what they compute is the extreme
amount the law allows (`exchangeWithPool_optimum`): in strict send the greatest
payout for the amount sold, in strict receive the least amount paid in for the
amount bought. `Arith.isGreatest_div` and `Arith.isLeast_ceilDiv` carry the rounding;
`keepsFeeProduct_iff_out` and `keepsFeeProduct_iff_in` solve the law for each side.
-/

namespace HcnetCore

namespace LiquidityPool

open Arith Numeric ConstantProduct

/-- A trade of `toPool` into a pool with reserves `reservesToPool`, `reservesFromPool`
for `fromPool` out of it keeps the product, with the fee of `feeBps` basis points
charged on what is paid in. -/
def KeepsPoolProduct (feeBps reservesToPool reservesFromPool toPool fromPool : ℤ) : Prop :=
  KeepsFeeProduct 10000 (10000 - feeBps) reservesToPool reservesFromPool toPool fromPool

section

variable {X Y f : ℕ}

/-- The payout of strict send is below the reserve: the fee-free part of the
denominator, `10000 X`, is positive. -/
theorem payout_lt_reserve (hX : 0 < X) (hY : 0 < Y) (f t : ℕ) :
    (10000 - f) * (Y * t) / (10000 * X + (10000 - f) * t) < Y := by
  rw [Nat.div_lt_iff_lt_mul (by omega), Nat.mul_left_comm]
  exact Nat.mul_lt_mul_of_pos_left (by omega) hY

/-- **Strict send, evaluated.** Selling `t` to a pool with reserves `X`, `Y` and a fee of
`f` basis points pays out `⌊(10000 - f) Y t / (10000 X + (10000 - f) t)⌋`, and refuses
the trade when the reserve would overflow or nothing would be paid out. -/
theorem exchangeWithPool_send_eq (hX : 0 < X) (hY : 0 < Y) (hYmax : (Y : ℤ) ≤ INT64_MAX)
    (hf : f < 10000) (t : ℕ) :
    exchangeWithPool X t Y INT64_MAX f .PATH_PAYMENT_STRICT_SEND =
      .ok (if (t : ℤ) > INT64_MAX - X then none
        else if (10000 - f) * (Y * t) / (10000 * X + (10000 - f) * t) = 0 then none
        else some (t, ((10000 - f) * (Y * t) / (10000 * X + (10000 - f) * t) : ℕ))) := by
  have hfee : ¬ ((f : ℤ) < 0 ∨ 10000 ≤ (f : ℤ)) := by omega
  have hres : ¬ ((X : ℤ) ≤ 0 ∨ (Y : ℤ) ≤ 0) := by omega
  simp only [exchangeWithPool, if_neg hfee, if_neg hres, ne_eq, not_true_eq_false, if_false]
  by_cases ht : (t : ℤ) > INT64_MAX - X
  · rw [if_pos ht, if_pos ht]
    rfl
  rw [if_neg ht, if_neg ht]
  have hγ : (10000 : ℤ) - f = ((10000 - f : ℕ) : ℤ) := by omega
  rw [hγ, show (10000 : ℤ) = ((10000 : ℕ) : ℤ) from rfl, bigMultiply_natCast, bigMultiply_natCast,
    bigMultiply_natCast]
  simp only [Except.ok_bind]
  -- the denominator is positive and below the bound `hugeDivide` asserts
  have hfit : X + t ≤ INT64_MAX.toNat := by rw [INT64_MAX_toNat]; unfold INT64_MAX at ht; omega
  have hγt : (10000 - f) * t ≤ 10000 * t := Nat.mul_le_mul_right t (Nat.sub_le 10000 f)
  have hC : 0 < 10000 * X + (10000 - f) * t := by omega
  have hCmax : 10000 * X + (10000 - f) * t ≤ INT32_MAX.toNat * INT64_MAX.toNat := by
    rw [INT64_MAX_toNat] at hfit
    rw [INT64_MAX_toNat, show INT32_MAX.toNat = 2147483647 from rfl]
    omega
  rw [hugeDivide_eq (Int.natCast_nonneg _) hC hCmax .ROUND_DOWN]
  -- the quotient and the payout are below the reserve paid out
  have hY' : Y ≤ INT64_MAX.toNat := by rw [INT64_MAX_toNat]; unfold INT64_MAX at hYmax; omega
  have htC : t ≤ 10000 * X + (10000 - f) * t :=
    (Nat.le_mul_of_pos_left t (by omega)).trans (Nat.le_add_left _ _)
  have hQ : Y * t / (10000 * X + (10000 - f) * t) ≤ Y :=
    Nat.div_le_of_le_mul (by rw [Nat.mul_comm _ Y]; exact Nat.mul_le_mul_left Y htC)
  have hout := payout_lt_reserve hX hY f t
  rw [if_neg (Nat.not_lt.mpr (hQ.trans hY')), Int.toNat_natCast, Rounding.div_down]
  generalize (10000 - f) * (Y * t) / (10000 * X + (10000 - f) * t) = r at hout ⊢
  rw [if_pos (hout.le.trans hY'), Except.ok_bind]
  dsimp only
  rw [if_neg (by omega), if_neg (by omega)]
  by_cases h0 : r = 0 <;> simp [h0]

/-- **Strict receive, evaluated.** Buying `o` from a pool with reserves `X`, `Y` and a fee
of `f` basis points costs `⌈10000 X o / ((Y - o)(10000 - f))⌉`, and is refused when it
would empty the reserve or overflow the other one. -/
theorem exchangeWithPool_receive_eq (hX : 0 < X) (hY : 0 < Y) (hYmax : (Y : ℤ) ≤ INT64_MAX)
    (hf : f < 10000) (o : ℕ) :
    exchangeWithPool X INT64_MAX Y o f .PATH_PAYMENT_STRICT_RECEIVE =
      .ok (if Y ≤ o then none
        else if (ceilDiv (10000 * (X * o)) ((Y - o) * (10000 - f)) : ℤ) ≤ INT64_MAX - X then
          some ((ceilDiv (10000 * (X * o)) ((Y - o) * (10000 - f)) : ℕ), (o : ℤ))
        else none) := by
  have hfee : ¬ ((f : ℤ) < 0 ∨ 10000 ≤ (f : ℤ)) := by omega
  have hres : ¬ ((X : ℤ) ≤ 0 ∨ (Y : ℤ) ≤ 0) := by omega
  simp only [exchangeWithPool, if_neg hfee, if_neg hres, ne_eq, not_true_eq_false, if_false]
  by_cases ho : Y ≤ o
  · rw [if_pos (show (o : ℤ) ≥ Y by exact_mod_cast ho), if_pos ho]
    rfl
  rw [if_neg (show ¬ (o : ℤ) ≥ Y by exact_mod_cast ho), if_neg ho]
  have hsub : (Y : ℤ) - o = ((Y - o : ℕ) : ℤ) := by omega
  have hγ : (10000 : ℤ) - f = ((10000 - f : ℕ) : ℤ) := by omega
  rw [hsub, hγ, bigMultiply_natCast, bigMultiply_natCast]
  simp only [Except.ok_bind]
  -- the denominator is positive and below the bound `hugeDivide` asserts
  have hY' : Y ≤ INT64_MAX.toNat := by rw [INT64_MAX_toNat]; unfold INT64_MAX at hYmax; omega
  have hC : 0 < (Y - o) * (10000 - f) := Nat.mul_pos (by omega) (by omega)
  have hCmax : (Y - o) * (10000 - f) ≤ INT32_MAX.toNat * INT64_MAX.toNat := by
    rw [Nat.mul_comm INT32_MAX.toNat]
    exact Nat.mul_le_mul (by omega) (by rw [show INT32_MAX.toNat = 2147483647 from rfl]; omega)
  rw [show (10000 : ℤ) = ((10000 : ℕ) : ℤ) from rfl,
    hugeDivide_eq (Int.natCast_nonneg _) hC hCmax .ROUND_UP, Int.toNat_natCast, Rounding.div_up]
  -- the rounded-up amount paid in is at least the quotient the code tests first
  have hQc : X * o / ((Y - o) * (10000 - f)) ≤ ceilDiv (10000 * (X * o)) ((Y - o) * (10000 - f)) :=
    (Nat.div_le_div_right (show X * o ≤ 10000 * (X * o) by omega)).trans
      (by unfold ceilDiv; exact Nat.div_le_div_right (by omega))
  generalize ceilDiv (10000 * (X * o)) ((Y - o) * (10000 - f)) = c at hQc ⊢
  have hroom : INT64_MAX - X < INT64_MAX.toNat := by rw [INT64_MAX_toNat]; unfold INT64_MAX; omega
  by_cases hq : X * o / ((Y - o) * (10000 - f)) > INT64_MAX.toNat
  · -- the quotient does not fit: neither does the amount paid in
    rw [if_pos hq, if_neg (by omega)]
    rfl
  rw [if_neg hq]
  by_cases hc : c ≤ INT64_MAX.toNat
  · rw [if_pos hc, Except.ok_bind]
    dsimp only
    rw [if_neg (by omega)]
    rfl
  · rw [if_neg hc, if_neg (by omega)]
    rfl

/-- Selling `t`, the payouts that keep the product are those whose product with the
denominator is at most the numerator of the code's formula. -/
theorem keepsPoolProduct_send_iff (hf : f < 10000) (t : ℕ) (o : ℤ) :
    KeepsPoolProduct f X Y t o ↔
      o * ((10000 * X + (10000 - f) * t : ℕ) : ℤ) ≤ (((10000 - f) * (Y * t) : ℕ) : ℤ) := by
  have hγ : ((10000 - f : ℕ) : ℤ) = 10000 - f := by omega
  rw [KeepsPoolProduct, keepsFeeProduct_iff_out]
  push_cast
  rw [hγ]

/-- Buying `o < Y`, the amounts paid in that keep the product are those whose product
with the denominator covers the numerator of the code's formula. -/
theorem keepsPoolProduct_receive_iff (hf : f < 10000) {o : ℕ} (ho : o < Y) (t : ℤ) :
    KeepsPoolProduct f X Y t o ↔
      ((10000 * (X * o) : ℕ) : ℤ) ≤ t * (((Y - o) * (10000 - f) : ℕ) : ℤ) := by
  have hγ : ((10000 - f : ℕ) : ℤ) = 10000 - f := by omega
  have hsub : ((Y - o : ℕ) : ℤ) = Y - o := by omega
  rw [KeepsPoolProduct, keepsFeeProduct_iff_in]
  push_cast
  rw [hγ, hsub]

end

/-- **`exchangeWithPool` computes the fee-adjusted constant-product optimum.** With
positive reserves, the reserve paid out within `int64_t` and a fee below 100%:

* in strict send, selling any `maxSendToPool ≥ 0`, the trade goes through exactly
  when the reserve paid into has room for it and the greatest payout that keeps the
  product is positive; it then sells `maxSendToPool` for that payout, which is below
  the reserve;
* in strict receive, buying any `maxReceiveFromPool ≥ 0`, the trade goes through
  exactly when the reserve covers it and the least amount paid in that keeps the
  product fits the other reserve; it then buys `maxReceiveFromPool` for that amount. -/
theorem exchangeWithPool_optimum {reservesToPool reservesFromPool feeBps : ℤ}
    (hX : 0 < reservesToPool) (hY : 0 < reservesFromPool ∧ reservesFromPool ≤ INT64_MAX)
    (hf : 0 ≤ feeBps ∧ feeBps < 10000) :
    (∀ maxSendToPool, 0 ≤ maxSendToPool → ∃ res,
      exchangeWithPool reservesToPool maxSendToPool reservesFromPool INT64_MAX feeBps
        .PATH_PAYMENT_STRICT_SEND = .ok res ∧
      ((∃ p, res = some p) ↔ maxSendToPool ≤ INT64_MAX - reservesToPool ∧
        ∃ y, IsGreatest
          {o | KeepsPoolProduct feeBps reservesToPool reservesFromPool maxSendToPool o} y ∧
          1 ≤ y) ∧
      ∀ toPool fromPool, res = some (toPool, fromPool) → toPool = maxSendToPool ∧
        IsGreatest
          {o | KeepsPoolProduct feeBps reservesToPool reservesFromPool maxSendToPool o}
          fromPool ∧
        1 ≤ fromPool ∧ fromPool < reservesFromPool) ∧
    (∀ maxReceiveFromPool, 0 ≤ maxReceiveFromPool → ∃ res,
      exchangeWithPool reservesToPool INT64_MAX reservesFromPool maxReceiveFromPool feeBps
        .PATH_PAYMENT_STRICT_RECEIVE = .ok res ∧
      ((∃ p, res = some p) ↔ maxReceiveFromPool < reservesFromPool ∧
        ∃ t, IsLeast {t' | 0 ≤ t' ∧
          KeepsPoolProduct feeBps reservesToPool reservesFromPool t' maxReceiveFromPool} t ∧
          t ≤ INT64_MAX - reservesToPool) ∧
      ∀ toPool fromPool, res = some (toPool, fromPool) → fromPool = maxReceiveFromPool ∧
        IsLeast {t' | 0 ≤ t' ∧
          KeepsPoolProduct feeBps reservesToPool reservesFromPool t' maxReceiveFromPool}
          toPool) := by
  obtain ⟨X, rfl⟩ := Int.eq_ofNat_of_zero_le hX.le
  obtain ⟨Y, rfl⟩ := Int.eq_ofNat_of_zero_le hY.1.le
  obtain ⟨f, rfl⟩ := Int.eq_ofNat_of_zero_le hf.1
  have hX' : 0 < X := by omega
  have hY' : 0 < Y := by omega
  have hf' : f < 10000 := by omega
  constructor
  · -- strict send: the payout is the greatest one the product allows
    intro msp hmsp
    obtain ⟨t, rfl⟩ := Int.eq_ofNat_of_zero_le hmsp
    have hset : {o : ℤ | KeepsPoolProduct f X Y t o} =
        {o : ℤ | o * ((10000 * X + (10000 - f) * t : ℕ) : ℤ) ≤ (((10000 - f) * (Y * t) : ℕ) : ℤ)} :=
      Set.ext (keepsPoolProduct_send_iff hf' t)
    have hgreatest : IsGreatest {o | KeepsPoolProduct f X Y t o}
        (((10000 - f) * (Y * t) / (10000 * X + (10000 - f) * t) : ℕ) : ℤ) := by
      rw [hset]
      exact isGreatest_div (by omega)
    have hout := payout_lt_reserve hX' hY' f t
    rw [exchangeWithPool_send_eq hX' hY' hY.2 hf' t]
    generalize (10000 - f) * (Y * t) / (10000 * X + (10000 - f) * t) = g at hgreatest hout ⊢
    refine ⟨_, rfl, ?_, ?_⟩
    · constructor
      · intro ⟨p, hp⟩
        split_ifs at hp with h1 h2
        exact ⟨by omega, _, hgreatest, by omega⟩
      · rintro ⟨hroom, y, hy, hy1⟩
        have hg : (g : ℤ) = y := hgreatest.unique hy
        rw [if_neg (by omega), if_neg (by omega)]
        exact ⟨_, rfl⟩
    · intro toPool fromPool h
      split_ifs at h with h1 h2
      cases h
      exact ⟨rfl, hgreatest, by omega, by exact_mod_cast hout⟩
  · -- strict receive: the amount paid in is the least one the product allows
    intro mrfp hmrfp
    obtain ⟨o, rfl⟩ := Int.eq_ofNat_of_zero_le hmrfp
    rw [exchangeWithPool_receive_eq hX' hY' hY.2 hf' o]
    refine ⟨_, rfl, ?_⟩
    by_cases ho : Y ≤ o
    · -- the reserve cannot cover the trade
      rw [if_pos ho]
      exact ⟨⟨(fun ⟨_, hp⟩ => nomatch hp), fun h => absurd h.1 (by omega)⟩, fun _ _ h => nomatch h⟩
    have hset : {t : ℤ | 0 ≤ t ∧ KeepsPoolProduct f X Y t o} =
        {t : ℤ | 0 ≤ t ∧ ((10000 * (X * o) : ℕ) : ℤ) ≤ t * (((Y - o) * (10000 - f) : ℕ) : ℤ)} :=
      Set.ext fun t => and_congr_right' (keepsPoolProduct_receive_iff hf' (Nat.lt_of_not_le ho) t)
    have hleast : IsLeast {t | 0 ≤ t ∧ KeepsPoolProduct f X Y t o}
        ((ceilDiv (10000 * (X * o)) ((Y - o) * (10000 - f)) : ℕ) : ℤ) := by
      rw [hset]
      exact isLeast_ceilDiv (Nat.mul_pos (by omega) (by omega))
    rw [if_neg ho]
    generalize ceilDiv (10000 * (X * o)) ((Y - o) * (10000 - f)) = c at hleast ⊢
    refine ⟨⟨fun ⟨p, hp⟩ => ?_, fun ⟨_, t, ht, hroom⟩ => ?_⟩, fun toPool fromPool h => ?_⟩
    · split_ifs at hp with h1
      exact ⟨by omega, _, hleast, h1⟩
    · rw [← hleast.unique ht] at hroom
      rw [if_pos hroom]
      exact ⟨_, rfl⟩
    · split_ifs at h
      cases h
      exact ⟨rfl, hleast⟩

theorem exchangeWithPool_optimum_thousands :
    (0 : ℤ) < 1000 ∧ ((0 : ℤ) < 1000 ∧ (1000 : ℤ) ≤ INT64_MAX) ∧ ((0 : ℤ) ≤ 30 ∧ (30 : ℤ) < 10000) ∧
    (∀ maxSendToPool, 0 ≤ maxSendToPool → ∃ res,
      exchangeWithPool 1000 maxSendToPool 1000 INT64_MAX 30 .PATH_PAYMENT_STRICT_SEND = .ok res ∧
      ((∃ p, res = some p) ↔ maxSendToPool ≤ INT64_MAX - 1000 ∧
        ∃ y, IsGreatest {o | KeepsPoolProduct 30 1000 1000 maxSendToPool o} y ∧ 1 ≤ y) ∧
      ∀ toPool fromPool, res = some (toPool, fromPool) → toPool = maxSendToPool ∧
        IsGreatest {o | KeepsPoolProduct 30 1000 1000 maxSendToPool o} fromPool ∧
        1 ≤ fromPool ∧ fromPool < 1000) ∧
    (∀ maxReceiveFromPool, 0 ≤ maxReceiveFromPool → ∃ res,
      exchangeWithPool 1000 INT64_MAX 1000 maxReceiveFromPool 30
        .PATH_PAYMENT_STRICT_RECEIVE = .ok res ∧
      ((∃ p, res = some p) ↔ maxReceiveFromPool < 1000 ∧
        ∃ t, IsLeast {t' | 0 ≤ t' ∧ KeepsPoolProduct 30 1000 1000 t' maxReceiveFromPool} t ∧
          t ≤ INT64_MAX - 1000) ∧
      ∀ toPool fromPool, res = some (toPool, fromPool) → fromPool = maxReceiveFromPool ∧
        IsLeast {t' | 0 ≤ t' ∧ KeepsPoolProduct 30 1000 1000 t' maxReceiveFromPool} toPool) := by
  have hY : (0 : ℤ) < 1000 ∧ (1000 : ℤ) ≤ INT64_MAX := ⟨by decide, by decide⟩
  have hf : (0 : ℤ) ≤ 30 ∧ (30 : ℤ) < 10000 := ⟨by decide, by decide⟩
  exact ⟨by decide, hY, hf, exchangeWithPool_optimum (by decide) hY hf⟩

end LiquidityPool

end HcnetCore
