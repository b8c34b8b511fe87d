import HcnetCore.Pool.LiquidityPool
import HcnetCore.Systems.Reach

/-!
# The liquidity-pool invariant

A pool entry's reserves and shares are a state of the abstract constant-product pool
of `ConstantProduct` (`LiquidityPoolConstantProduct.toState`), and the pool is good
when that state is (`LiquidityPoolConstantProduct.Good`): nothing negative, shares at
most `√(reserveA · reserveB)`, and the three zero together.

The refinement is one lemma per operation, each read off the operation's
specification lemma: a call that returns either leaves the pool as it was or makes
one of the three abstract moves.

* `depositMove` — the first deposit is `Move.create` (`⌊√(a b)⌋² ≤ a b`); later
  deposits are `Move.rescale`, because the amounts are rounded up from the shares;
* `withdrawalMove` — a withdrawal, and the redemption of a revoked pool-share trust
  line, is `Move.rescale`, because the amounts are rounded down from the shares,
  and returning every share returns every reserve;
* `exchangeMove` — a trade in either path-payment mode is `Move.trade`.

`PoolCall.apply` runs any of the four operations; `poolSystem` is the pool's life
from the empty pool, and `Good.move` carries the invariant over every step
(`poolSystem_reachable_good`). Through the same refinement, `Move.value_le` says that
no operation dilutes the shares (`PoolCall.apply_share_value_le`).

The code itself never states the invariant; it only relies on its consequence
`ConstantProduct.Good.shares_le_or` (one reserve is at least the shares) in the
comments of `depositIntoNonEmptyPool`, to argue that its two "This can't happen"
exceptions cannot be thrown. `depositIntoNonEmptyPool_throws` proves that argument:
in a good pool with shares, the only exception left is `bigMultiply`'s assertion in
`isBadPrice`.
-/

namespace HcnetCore

namespace LiquidityPool

open Numeric ConstantProduct

variable {Asset : Type}

/-- The reserves and shares of a pool entry, as a state of the abstract pool. -/
def LiquidityPoolConstantProduct.toState (cp : LiquidityPoolConstantProduct Asset) :
    ConstantProduct.State ℤ :=
  ⟨cp.reserveA, cp.reserveB, cp.totalPoolShares⟩

/-- A pool entry is good when its reserves and shares are non-negative, satisfy
`totalPoolShares² ≤ reserveA · reserveB`, and are zero together. -/
def LiquidityPoolConstantProduct.Good (cp : LiquidityPoolConstantProduct Asset) : Prop :=
  ConstantProduct.Good cp.toState

instance (cp : LiquidityPoolConstantProduct Asset) : Decidable cp.Good :=
  inferInstanceAs (Decidable (ConstantProduct.Good cp.toState))

variable {cp cp' : LiquidityPoolConstantProduct Asset}

/-! ### Refinement: every operation is a stutter or a move -/

/-- **A deposit is a move.** Into an empty pool it creates the pool with
`⌊√(a b)⌋` shares; into a pool with shares it rescales it at no better than the
current reserves per share. -/
theorem depositMove [DecidableEq Asset] {op : LiquidityPoolDepositOp} {src : DepositSource}
    {code : LiquidityPoolDepositResultCode} (hg : cp.Good)
    (h : LiquidityPoolDepositOpFrame.doApply op src cp = .ok (code, cp')) :
    cp' = cp ∨ Move cp.toState cp'.toState := by
  rcases LiquidityPoolDepositOpFrame.doApply_spec h with rfl | ⟨amts, hdep, ha, hb, hs, rfl⟩
  · exact .inl rfl
  right
  split_ifs at hdep with hS
  · -- a pool with shares: the amounts cover the shares at the current ratio
    obtain ⟨hS', hs0, hra, hrb⟩ := depositIntoNonEmptyPool_spec hdep
    have hA := hg.a_nonneg
    have hB := hg.b_nonneg
    refine Move.rescale hS' ?_ ?_ ?_ ?_ ?_ ?_ <;>
      simp only [LiquidityPoolConstantProduct.toState] at hA hB ⊢
    · linarith
    · linarith
    · linarith
    · linarith
    · linarith
    · intro h0
      linarith
  · -- an empty pool: its reserves are zero too, and the shares are `⌊√(a b)⌋`
    obtain ⟨hA, hB, -, hsq⟩ := depositIntoEmptyPool_spec hdep
    have hempty := hg.eq_empty (not_not.mp hS)
    simp only [LiquidityPoolConstantProduct.toState, State.mk.injEq] at hempty
    obtain ⟨hA0, hB0, hS0⟩ := hempty
    have hcast : ((op.maxAmountA.toNat * op.maxAmountB.toNat : ℕ) : ℤ) = amts.amountA * amts.amountB := by
      rw [hA, hB]
      exact toNat_mul_cast (by omega) (by omega)
    simp only [LiquidityPoolConstantProduct.toState, hA0, hB0, hS0, zero_add]
    exact Move.create ha hb hs (hcast ▸ hsq)

/-- **One reserve's part of a withdrawal**: `w` of `S` shares take `a = ⌊w R / S⌋` of
reserve `R`, which leaves at least the remaining shares' part of it, and all of it
when all shares are taken. -/
theorem withdrawal_reserve {w S R a : ℤ} (h : getPoolWithdrawalAmount w S R = .ok a) :
    0 ≤ R - a ∧ (S - w) * R ≤ S * (R - a) ∧ (w = S → R - a = 0) := by
  obtain ⟨hw, hwS, hS, hR, ha, hle, hlt⟩ := getPoolWithdrawalAmount_spec h
  -- `a S ≤ w R ≤ S R`, so `a ≤ R`
  have hwR : w * R ≤ S * R := mul_le_mul_of_nonneg_right hwS hR
  have haR : a ≤ R := le_of_mul_le_mul_right (by linarith) hS
  refine ⟨by linarith, by linarith, ?_⟩
  rintro rfl
  -- all shares: `S R < (a + 1) S`, so `R < a + 1`
  have : R < a + 1 := lt_of_mul_lt_mul_right (by linarith) hS.le
  omega

/-- **A withdrawal of the reserves' rounded-down parts is a move**, a rescaling at
no better than the current reserves per share. -/
theorem withdrawalMove {w amountA amountB : ℤ}
    (hA : getPoolWithdrawalAmount w cp.totalPoolShares cp.reserveA = .ok amountA)
    (hB : getPoolWithdrawalAmount w cp.totalPoolShares cp.reserveB = .ok amountB) :
    Move cp.toState ⟨cp.reserveA - amountA, cp.reserveB - amountB, cp.totalPoolShares - w⟩ := by
  obtain ⟨hw, hwS, hS, -⟩ := getPoolWithdrawalAmount_spec hA
  obtain ⟨hA0, hra, hallA⟩ := withdrawal_reserve hA
  obtain ⟨hB0, hrb, hallB⟩ := withdrawal_reserve hB
  refine Move.rescale hS hA0 hB0 (by simp only; omega) hra hrb ?_
  intro h0
  exact ⟨hallA (by simp only at h0; omega), hallB (by simp only at h0; omega)⟩

/-- **A trade is a move**: it keeps the shares and the product of the reserves. -/
theorem exchangeMove [DecidableEq Asset] {toPoolAsset fromPoolAsset : Asset}
    {maxSendToPool maxReceiveFromPool maxOffersToCross : ℤ} {round : RoundingType}
    {o : Option (ℤ × ℤ)}
    (h : exchangeWithLiquidityPool toPoolAsset maxSendToPool fromPoolAsset maxReceiveFromPool
      round maxOffersToCross cp = .ok (o, cp')) :
    cp' = cp ∨ Move cp.toState cp'.toState := by
  rcases exchangeWithLiquidityPool_spec h with rfl | ⟨-, hS, hA, hB, hA', hB', hprod⟩
  · exact .inl rfl
  · exact .inr (Move.trade hA hB hS hprod hA' hB')

/-! ### The pool's life -/

/-- The operations that change a pool: a deposit, a withdrawal, the redemption of a
revoked pool-share trust line, and a trade in a path payment. -/
inductive PoolCall (Asset : Type)
  | deposit (op : LiquidityPoolDepositOp) (src : DepositSource)
  | withdraw (op : LiquidityPoolWithdrawOp) (src : WithdrawSource)
  | redeem (balance : ℤ) (resultA resultB : RemoveResult)
  | exchange (toPoolAsset : Asset) (maxSendToPool : ℤ) (fromPoolAsset : Asset)
      (maxReceiveFromPool : ℤ) (round : RoundingType) (maxOffersToCross : ℤ)

/-- The pool after an operation that returns (whatever its result code). -/
def PoolCall.apply [DecidableEq Asset] :
    PoolCall Asset → LiquidityPoolConstantProduct Asset →
      Except String (LiquidityPoolConstantProduct Asset)
  | .deposit op src, cp => do
    let r ← LiquidityPoolDepositOpFrame.doApply op src cp
    pure r.2
  | .withdraw op src, cp => do
    let r ← LiquidityPoolWithdrawOpFrame.doApply op src cp
    pure r.2
  | .redeem balance resultA resultB, cp => do
    let r ← redeemPoolShareTrustLine balance resultA resultB cp
    pure r.2
  | .exchange toPoolAsset maxSendToPool fromPoolAsset maxReceiveFromPool round maxOffersToCross,
      cp => do
    let r ← exchangeWithLiquidityPool toPoolAsset maxSendToPool fromPoolAsset
      maxReceiveFromPool round maxOffersToCross cp
    pure r.2

/-- **Every operation that returns is a stutter or a move** of the abstract pool. -/
theorem PoolCall.apply_move [DecidableEq Asset] {c : PoolCall Asset} (hg : cp.Good)
    (h : c.apply cp = .ok cp') : cp' = cp ∨ Move cp.toState cp'.toState := by
  cases c with
  | deposit op src =>
    obtain ⟨⟨code, cp''⟩, hd, h⟩ := Except.bind_eq_ok.mp h
    cases h
    exact depositMove hg hd
  | withdraw op src =>
    obtain ⟨⟨code, cp''⟩, hd, h⟩ := Except.bind_eq_ok.mp h
    cases h
    rcases LiquidityPoolWithdrawOpFrame.doApply_spec hd with rfl | ⟨a, b, hA, hB, rfl⟩
    · exact .inl rfl
    · exact .inr (withdrawalMove hA hB)
  | redeem balance resultA resultB =>
    obtain ⟨⟨code, cp''⟩, hd, h⟩ := Except.bind_eq_ok.mp h
    cases h
    rcases redeemPoolShareTrustLine_spec hd with rfl | ⟨a, b, hA, hB, rfl⟩
    · exact .inl rfl
    · exact .inr (withdrawalMove hA hB)
  | exchange toPoolAsset maxSendToPool fromPoolAsset maxReceiveFromPool round maxOffersToCross =>
    obtain ⟨⟨o, cp''⟩, hd, h⟩ := Except.bind_eq_ok.mp h
    cases h
    exact exchangeMove hd

/-- **Every operation that returns keeps a pool good.** -/
theorem PoolCall.apply_good [DecidableEq Asset] {c : PoolCall Asset} (hg : cp.Good)
    (h : c.apply cp = .ok cp') : cp'.Good := by
  rcases c.apply_move hg h with rfl | hmove
  · exact hg
  · exact ConstantProduct.Good.move hg hmove

/-- A pool's life: created empty with its parameters, then changed by operations that
return. -/
def poolSystem [DecidableEq Asset] (params : LiquidityPoolConstantProductParameters Asset) :
    System (LiquidityPoolConstantProduct Asset) (PoolCall Asset) where
  init := ⟨params, 0, 0, 0⟩
  step cp c cp' := c.apply cp = .ok cp'

/-- **Every pool reached from the empty pool is good.** -/
theorem poolSystem_reachable_good [DecidableEq Asset]
    (params : LiquidityPoolConstantProductParameters Asset) {cp : LiquidityPoolConstantProduct Asset}
    (h : (poolSystem params).Reachable cp) : cp.Good :=
  @System.Reachable.induction _ _ (poolSystem params) (fun cp => cp.Good) good_empty
    (fun _ _ _ _ hg hstep => PoolCall.apply_good hg hstep) _ h

/-! ### The exceptions of a deposit into a pool with shares -/

/-- **The shares a deposit buys are covered by both maximum amounts.** Whichever
quotient `minAmongValid` takes, and whether or not the other overflowed, the shares
`s` satisfy `s A ≤ S maxAmountA` and `s B ≤ S maxAmountB`. -/
theorem shares_mul_le {S A B mA mB s : ℤ} {sA sB : Option ℤ} (hS : 0 ≤ S) (hA : 0 < A)
    (hB : 0 < B) (hmA : 0 ≤ mA) (hmB : 0 ≤ mB)
    (hsA : bigDivide S mA A .ROUND_DOWN = .ok sA) (hsB : bigDivide S mB B .ROUND_DOWN = .ok sB)
    (hs : minAmongValid sA sB = some s) :
    0 ≤ s ∧ s * A ≤ S * mA ∧ s * B ≤ S * mB := by
  obtain ⟨hmem, hleA, hleB⟩ := minAmongValid_spec hs
  -- `s` is one of the two quotients, so within `int64_t`
  have hs0 : 0 ≤ s ∧ s ≤ INT64_MAX := by
    rcases hmem with rfl | rfl
    · obtain ⟨h0, -, -, hmax⟩ := bigDivide_down_spec hsA
      exact ⟨h0, hmax⟩
    · obtain ⟨h0, -, -, hmax⟩ := bigDivide_down_spec hsB
      exact ⟨h0, hmax⟩
  -- against each reserve: below its quotient, or below `INT64_MAX` when that overflowed
  have bound : ∀ {R m : ℤ} {o : Option ℤ}, 0 < R → 0 ≤ m →
      bigDivide S m R .ROUND_DOWN = .ok o → (∀ v, o = some v → s ≤ v) → s * R ≤ S * m := by
    intro R m o hR hm hd hle
    rcases o with _ | q
    · exact bigDivide_down_none_spec hS hm hR hd hs0.2
    · calc s * R ≤ q * R := mul_le_mul_of_nonneg_right (hle q rfl) hR.le
        _ ≤ S * m := (bigDivide_down_spec hd).2.1
  exact ⟨hs0.1, bound hA hmA hsA hleA, bound hB hmB hsB hleB⟩

/-- **A deposit into a good pool with shares throws only `isBadPrice`'s assertion**:
one reserve covers the shares, so one share quotient fits in `int64_t`, and the
amounts for the shares bought are at most the maximum amounts. -/
theorem depositIntoNonEmptyPool_throws {op : LiquidityPoolDepositOp}
    {availableA availableB availableLimitPoolShares : ℤ} (hg : cp.Good) (hS : 0 < cp.totalPoolShares)
    (hmA : 0 < op.maxAmountA) (hmA' : op.maxAmountA ≤ INT64_MAX)
    (hmB : 0 < op.maxAmountB) (hmB' : op.maxAmountB ≤ INT64_MAX) :
    Except.Spec (· = "(a >= 0) && (b >= 0)") (fun _ => True)
      (depositIntoNonEmptyPool op availableA availableB availableLimitPoolShares cp) := by
  have hA : 0 < cp.reserveA := hg.a_pos hS
  have hB : 0 < cp.reserveB := hg.b_pos hS
  -- both share quotients return, and one of them fits
  obtain ⟨sA, hsA⟩ : ∃ o, bigDivide cp.totalPoolShares op.maxAmountA cp.reserveA .ROUND_DOWN = .ok o :=
    ⟨_, bigDivide_eq hS.le hmA.le hA _⟩
  obtain ⟨sB, hsB⟩ : ∃ o, bigDivide cp.totalPoolShares op.maxAmountB cp.reserveB .ROUND_DOWN = .ok o :=
    ⟨_, bigDivide_eq hS.le hmB.le hB _⟩
  obtain ⟨s, hs⟩ : ∃ s, minAmongValid sA sB = some s := by
    rcases hg.shares_le_or with hle | hle
    · obtain ⟨q, hq⟩ := bigDivide_down_isSome hS.le hmA.le hmA' hA hle
      rw [hsA, Except.ok.injEq] at hq
      subst hq
      rcases sB with _ | _ <;> exact ⟨_, rfl⟩
    · obtain ⟨q, hq⟩ := bigDivide_down_isSome hS.le hmB.le hmB' hB hle
      rw [hsB, Except.ok.injEq] at hq
      subst hq
      rcases sA with _ | _ <;> exact ⟨_, rfl⟩
  obtain ⟨hs0, hsa, hsb⟩ := shares_mul_le hS.le hA hB hmA.le hmB.le hsA hsB hs
  -- the amounts rounded up from the shares are at most the maximum amounts
  obtain ⟨amountA, hrA⟩ := bigDivide_up_isSome hs0 hA.le hS hmA' hsa
  obtain ⟨amountB, hrB⟩ := bigDivide_up_isSome hs0 hB.le hS hmB' hsb
  simp only [depositIntoNonEmptyPool, hsA, hsB, Except.ok_bind, hs, hrA, hrB]
  refine Except.Spec.ite (fun _ => trivial) (fun _ => ?_)
  refine (isBadPrice_throws _ _ _ _).bind fun _ _ => ?_
  exact Except.Spec.ite (fun _ => trivial) (fun _ => Except.Spec.ite (fun _ => trivial) (fun _ => trivial))

/-! ### The invariant -/

/-- **The liquidity-pool invariant.** Every pool reached from the empty pool is good;
every deposit (into an empty or a non-empty pool), withdrawal, redemption of a revoked
pool-share trust line and trade in either path-payment mode that returns keeps a pool
good; and in a good pool with shares, for maximum amounts in `(0, INT64_MAX]`,
`depositIntoNonEmptyPool` throws neither of its "This can't happen" exceptions. -/
theorem liquidityPool_good_invariant [DecidableEq Asset]
    (params : LiquidityPoolConstantProductParameters Asset) :
    (∀ cp, (poolSystem params).Reachable cp → cp.Good) ∧
    (∀ (cp cp' : LiquidityPoolConstantProduct Asset) (c : PoolCall Asset),
      cp.Good → c.apply cp = .ok cp' → cp'.Good) ∧
    (∀ (cp : LiquidityPoolConstantProduct Asset) (op : LiquidityPoolDepositOp)
      (availableA availableB availableLimitPoolShares : ℤ),
      cp.Good → 0 < cp.totalPoolShares → 0 < op.maxAmountA → op.maxAmountA ≤ INT64_MAX →
      0 < op.maxAmountB → op.maxAmountB ≤ INT64_MAX →
      depositIntoNonEmptyPool op availableA availableB availableLimitPoolShares cp ≠
          .error "both shares calculations overflowed" ∧
        depositIntoNonEmptyPool op availableA availableB availableLimitPoolShares cp ≠
          .error "amount overflowed") := by
  refine ⟨fun _ h => poolSystem_reachable_good params h,
    fun _ _ _ hg h => PoolCall.apply_good hg h, ?_⟩
  intro cp op availableA availableB availableLimitPoolShares hg hS hmA hmA' hmB hmB'
  have hspec : Except.Spec _ _ (depositIntoNonEmptyPool op availableA availableB
      availableLimitPoolShares cp) := depositIntoNonEmptyPool_throws hg hS hmA hmA' hmB hmB'
  exact ⟨hspec.not_error (by decide), hspec.not_error (by decide)⟩

/-- The first deposit of `1000` and `2000` into an empty pool issues `1414` shares, and
the pool it leaves is good and takes a further deposit without those exceptions. -/
theorem liquidityPool_good_after_first_deposit :
    (⟨⟨false, true, 30⟩, 1000, 2000, 1414⟩ : LiquidityPoolConstantProduct Bool).Good ∧
      depositIntoNonEmptyPool ⟨500, 500, ⟨1, 10⟩, ⟨10, 1⟩⟩ 1000 1000 1000
          (⟨⟨false, true, 30⟩, 1000, 2000, 1414⟩ : LiquidityPoolConstantProduct Bool) ≠
        .error "amount overflowed" :=
  ⟨(@liquidityPool_good_invariant Bool _ ⟨false, true, 30⟩).1 _
      (System.Reachable.step (a := .deposit ⟨1000, 2000, ⟨1, 10⟩, ⟨10, 1⟩⟩ ⟨true, true, 1000, 2000, 5000⟩)
        System.Reachable.init rfl),
    ((@liquidityPool_good_invariant Bool _ ⟨false, true, 30⟩).2.2 _ ⟨500, 500, ⟨1, 10⟩, ⟨10, 1⟩⟩
      1000 1000 1000 (by decide) (by decide) (by decide) (by decide) (by decide) (by decide)).2⟩

/-- **No operation dilutes the shares.** On a good pool, a deposit, a withdrawal, the
redemption of a revoked trust line or a trade that returns, and leaves the pool with
shares, does not lower the squared value of a share,
`reserveA · reserveB / totalPoolShares²`. -/
theorem PoolCall.apply_share_value_le [DecidableEq Asset] {c : PoolCall Asset} (hg : cp.Good)
    (h : c.apply cp = .ok cp') (hp : 0 < cp.totalPoolShares) (hq : 0 < cp'.totalPoolShares) :
    cp.reserveA * cp.reserveB * (cp'.totalPoolShares * cp'.totalPoolShares) ≤
      cp'.reserveA * cp'.reserveB * (cp.totalPoolShares * cp.totalPoolShares) := by
  rcases c.apply_move hg h with rfl | hmove
  · exact le_rfl
  · exact Move.value_le hg hmove hp hq

/-- A deposit of up to `500` of each asset into the pool of `1000` and `2000` with `1414`
shares takes `250` and `500` for `353` shares; a share is then worth more, not less. -/
theorem apply_share_value_le_deposit :
    (⟨⟨false, true, 30⟩, 1000, 2000, 1414⟩ : LiquidityPoolConstantProduct Bool).Good ∧
      (PoolCall.deposit ⟨500, 500, ⟨1, 10⟩, ⟨10, 1⟩⟩
          ⟨true, true, 1000, 1000, 5000⟩ : PoolCall Bool).apply ⟨⟨false, true, 30⟩, 1000, 2000, 1414⟩ =
        .ok ⟨⟨false, true, 30⟩, 1250, 2500, 1767⟩ ∧
      (1000 : ℤ) * 2000 * (1767 * 1767) ≤ 1250 * 2500 * (1414 * 1414) := by
  have hg : (⟨⟨false, true, 30⟩, 1000, 2000, 1414⟩ : LiquidityPoolConstantProduct Bool).Good := by
    decide
  have h : (PoolCall.deposit ⟨500, 500, ⟨1, 10⟩, ⟨10, 1⟩⟩
      ⟨true, true, 1000, 1000, 5000⟩ : PoolCall Bool).apply ⟨⟨false, true, 30⟩, 1000, 2000, 1414⟩ =
        .ok ⟨⟨false, true, 30⟩, 1250, 2500, 1767⟩ := rfl
  exact ⟨hg, h, PoolCall.apply_share_value_le hg h (by decide) (by decide)⟩

end LiquidityPool

end HcnetCore
