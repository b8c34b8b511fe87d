import HcnetCore.Arith.ConstantProduct
import HcnetCore.Util.Numeric

/-!
# Constant-product liquidity pools (`transactions/`)

The operations of the ledger that change a liquidity pool's reserves and shares:

* `LiquidityPoolDepositOpFrame.doApply`, with `depositIntoEmptyPool` (the first
  deposit issues `⌊√(a b)⌋` shares) and `depositIntoNonEmptyPool` (shares rounded
  down from each reserve's ratio, amounts rounded up from the shares);
* `LiquidityPoolWithdrawOpFrame.doApply`, with `getPoolWithdrawalAmount` (amounts
  rounded down);
* `redeemPoolShareTrustLine`, the part of `removeOffersAndPoolShareTrustLines`
  (`TransactionUtils.cpp`) that pays out a revoked pool-share trust line;
* `exchangeWithPool`, the trade against the reserves in both path-payment modes, and
  `exchangeWithLiquidityPool`, its overload that loads the pool and updates the
  reserves (`OfferExchange.cpp`).

Only the pool side of each operation is modelled. What the source account holds and
can receive enters as the numbers the code reads from it (`DepositSource`,
`WithdrawSource`), and the claimable balances of a redemption as the results their
creation returned. A result code other than success leaves the pool as it was: the
operation's ledger transaction is rolled back.

Each function has a specification lemma that callers use instead of unfolding it;
`Pool.Invariant` builds on them.
-/

namespace HcnetCore

namespace LiquidityPool

open Numeric

/-- `LIQUIDITY_POOL_FEE_V18`, in basis points. -/
def LIQUIDITY_POOL_FEE_V18 : ℤ := 30

/-- A price `n / d`. -/
structure Price where
  n : ℤ
  d : ℤ
deriving DecidableEq, Repr

/-- The fixed parameters of a constant-product pool. -/
structure LiquidityPoolConstantProductParameters (Asset : Type) where
  assetA : Asset
  assetB : Asset
  fee : ℤ
deriving DecidableEq, Repr

/-- The body of a constant-product pool entry. -/
structure LiquidityPoolConstantProduct (Asset : Type) where
  params : LiquidityPoolConstantProductParameters Asset
  reserveA : ℤ
  reserveB : ℤ
  totalPoolShares : ℤ
deriving DecidableEq, Repr

/-- `LiquidityPoolDepositOp`. -/
structure LiquidityPoolDepositOp where
  maxAmountA : ℤ
  maxAmountB : ℤ
  minPrice : Price
  maxPrice : Price
deriving DecidableEq, Repr

/-- What a deposit reads from its source account: whether it holds a pool-share trust
line, whether its asset trust lines are authorized, its available balances of the two
assets and how many more pool shares its trust line can take
(`getMaxAmountReceive`). -/
structure DepositSource where
  poolTrustLine : Bool
  authorized : Bool
  availableA : ℤ
  availableB : ℤ
  availableLimitPoolShares : ℤ
deriving DecidableEq, Repr

/-- The result codes of a deposit. -/
inductive LiquidityPoolDepositResultCode
  | SUCCESS
  | NO_TRUST
  | NOT_AUTHORIZED
  | UNDERFUNDED
  | LINE_FULL
  | BAD_PRICE
  | POOL_FULL
deriving DecidableEq, Repr

/-- The three amounts a deposit computes (the `int64_t&` outputs of the two deposit
functions). -/
structure DepositAmounts where
  amountA : ℤ
  amountB : ℤ
  amountPoolShares : ℤ
deriving DecidableEq, Repr

/-- `isBadPrice`: `a / b` outside `[minPrice, maxPrice]`, compared by cross products. -/
def isBadPrice (amountA amountB : ℤ) (minPrice maxPrice : Price) : Except String Bool :=
  if amountA = 0 ∨ amountB = 0 then pure true
  else do
    let l1 ← bigMultiply amountA minPrice.d
    let r1 ← bigMultiply amountB minPrice.n
    if l1 < r1 then pure true
    else do
      let l2 ← bigMultiply amountA maxPrice.d
      let r2 ← bigMultiply amountB maxPrice.n
      pure (decide (l2 > r2))

/-- `depositIntoEmptyPool`: the whole of both maximum amounts, for `⌊√(a b)⌋` shares.
`.error code` is the code's `return false` with that result code. -/
def depositIntoEmptyPool (op : LiquidityPoolDepositOp) (availableA availableB
    availableLimitPoolShares : ℤ) :
    Except String (Except LiquidityPoolDepositResultCode DepositAmounts) := do
  let amountA := op.maxAmountA
  let amountB := op.maxAmountB
  if availableA < amountA ∨ availableB < amountB then
    pure (.error .UNDERFUNDED)
  else if ← isBadPrice amountA amountB op.minPrice op.maxPrice then
    pure (.error .BAD_PRICE)
  else
    -- the `int64_t` amounts are passed to the `uint64_t` parameters of `bigSquareRoot`
    let amountPoolShares : ℤ := ← bigSquareRoot amountA.toNat amountB.toNat
    if availableLimitPoolShares < amountPoolShares then
      pure (.error .LINE_FULL)
    else
      pure (.ok ⟨amountA, amountB, amountPoolShares⟩)

/-- `minAmongValid(res, x, xValid, y, yValid)`: the least of the valid values, with a
valid value `x` as `some x`. -/
def minAmongValid : Option ℤ → Option ℤ → Option ℤ
  | some x, some y => some (min x y)
  | some x, none => some x
  | none, some y => some y
  | none, none => none

/-- `depositIntoNonEmptyPool`: as many shares as the scarcer maximum amount buys
(rounded down), paid for by amounts rounded up. -/
def depositIntoNonEmptyPool {Asset : Type} (op : LiquidityPoolDepositOp)
    (availableA availableB availableLimitPoolShares : ℤ)
    (cp : LiquidityPoolConstantProduct Asset) :
    Except String (Except LiquidityPoolDepositResultCode DepositAmounts) := do
  let sharesA ← bigDivide cp.totalPoolShares op.maxAmountA cp.reserveA .ROUND_DOWN
  let sharesB ← bigDivide cp.totalPoolShares op.maxAmountB cp.reserveB .ROUND_DOWN
  match minAmongValid sharesA sharesB with
  | none => throw "both shares calculations overflowed"
  | some amountPoolShares =>
    let resA ← bigDivide amountPoolShares cp.reserveA cp.totalPoolShares .ROUND_UP
    let resB ← bigDivide amountPoolShares cp.reserveB cp.totalPoolShares .ROUND_UP
    match resA, resB with
    | some amountA, some amountB =>
      if availableA < amountA ∨ availableB < amountB then
        pure (.error .UNDERFUNDED)
      else if ← isBadPrice amountA amountB op.minPrice op.maxPrice then
        pure (.error .BAD_PRICE)
      else if availableLimitPoolShares < amountPoolShares then
        pure (.error .LINE_FULL)
      else
        pure (.ok ⟨amountA, amountB, amountPoolShares⟩)
    | _, _ => throw "amount overflowed"

/-- `LiquidityPoolDepositOpFrame::doApply`, on the pool: choose the deposit by whether
the pool has shares, refuse a deposit that would overflow a reserve, and add the
amounts to the reserves and the shares. -/
def LiquidityPoolDepositOpFrame.doApply {Asset : Type} [DecidableEq Asset]
    (op : LiquidityPoolDepositOp) (src : DepositSource) (cp : LiquidityPoolConstantProduct Asset) :
    Except String (LiquidityPoolDepositResultCode × LiquidityPoolConstantProduct Asset) := do
  if !src.poolTrustLine then
    pure (.NO_TRUST, cp)
  else if cp.params.assetA = cp.params.assetB then
    throw "Depositing to invalid liquidity pool"
  else if !src.authorized then
    pure (.NOT_AUTHORIZED, cp)
  else
    let r ← (if cp.totalPoolShares ≠ 0 then
        depositIntoNonEmptyPool op src.availableA src.availableB src.availableLimitPoolShares cp
      else
        depositIntoEmptyPool op src.availableA src.availableB src.availableLimitPoolShares)
    match r with
    | .error code => pure (code, cp)
    | .ok ⟨amountA, amountB, amountPoolShares⟩ =>
      if INT64_MAX - amountA < cp.reserveA ∨ INT64_MAX - amountB < cp.reserveB ∨
          INT64_MAX - amountPoolShares < cp.totalPoolShares then
        pure (.POOL_FULL, cp)
      else if amountA ≤ 0 ∨ amountB ≤ 0 ∨ amountPoolShares ≤ 0 then
        throw "must deposit positive amounts and receive a positive amount of pool shares"
      else do
        let some reserveA ← addBalance cp.reserveA amountA INT64_MAX
          | throw "insufficient liquidity pool limit"
        let some reserveB ← addBalance cp.reserveB amountB INT64_MAX
          | throw "insufficient liquidity pool limit"
        let some totalPoolShares ← addBalance cp.totalPoolShares amountPoolShares INT64_MAX
          | throw "insufficient liquidity pool limit"
        pure (.SUCCESS, { cp with reserveA, reserveB, totalPoolShares })

/-- `LiquidityPoolWithdrawOp`. -/
structure LiquidityPoolWithdrawOp where
  amount : ℤ
  minAmountA : ℤ
  minAmountB : ℤ
deriving DecidableEq, Repr

/-- What a withdrawal reads from its source account: whether it holds a pool-share
trust line, its available pool shares, and how much of each asset it can still
receive. -/
structure WithdrawSource where
  poolTrustLine : Bool
  availablePoolShares : ℤ
  availableLimitA : ℤ
  availableLimitB : ℤ
deriving DecidableEq, Repr

/-- The result codes of a withdrawal. -/
inductive LiquidityPoolWithdrawResultCode
  | SUCCESS
  | NO_TRUST
  | UNDERFUNDED
  | LINE_FULL
  | UNDER_MINIMUM
deriving DecidableEq, Repr

/-- `getPoolWithdrawalAmount`: the share `amountPoolShares / totalPoolShares` of a
reserve, rounded down. -/
def getPoolWithdrawalAmount (amountPoolShares totalPoolShares reserve : ℤ) : Except String ℤ :=
  if amountPoolShares > totalPoolShares then throw "Invalid amountPoolShares"
  else bigDivideOrThrow amountPoolShares reserve totalPoolShares .ROUND_DOWN

/-- `tryAddAssetBalance`: the result code that stops the withdrawal, if any — the
amount is below the requested minimum, or the account cannot receive it. -/
def tryAddAssetBalance (minAmount amount availableLimit : ℤ) :
    Option LiquidityPoolWithdrawResultCode :=
  if amount < minAmount then some .UNDER_MINIMUM
  else if availableLimit < amount then some .LINE_FULL
  else none

/-- `LiquidityPoolWithdrawOpFrame::doApply`, on the pool. -/
def LiquidityPoolWithdrawOpFrame.doApply {Asset : Type} (op : LiquidityPoolWithdrawOp)
    (src : WithdrawSource) (cp : LiquidityPoolConstantProduct Asset) :
    Except String (LiquidityPoolWithdrawResultCode × LiquidityPoolConstantProduct Asset) := do
  if !src.poolTrustLine then
    pure (.NO_TRUST, cp)
  else if src.availablePoolShares < op.amount then
    pure (.UNDERFUNDED, cp)
  else
    let amountA ← getPoolWithdrawalAmount op.amount cp.totalPoolShares cp.reserveA
    match tryAddAssetBalance op.minAmountA amountA src.availableLimitA with
    | some code => pure (code, cp)
    | none =>
      let amountB ← getPoolWithdrawalAmount op.amount cp.totalPoolShares cp.reserveB
      match tryAddAssetBalance op.minAmountB amountB src.availableLimitB with
      | some code => pure (code, cp)
      | none => do
        let some totalPoolShares ← addBalance cp.totalPoolShares (-op.amount)
          | throw "insufficient totalPoolShares"
        let some reserveA ← addBalance cp.reserveA (-amountA)
          | throw "insufficient reserveA"
        let some reserveB ← addBalance cp.reserveB (-amountB)
          | throw "insufficient reserveB"
        pure (.SUCCESS, { cp with reserveA, reserveB, totalPoolShares })

/-- `RemoveResult`. -/
inductive RemoveResult
  | SUCCESS
  | LOW_RESERVE
  | TOO_MANY_SPONSORING
deriving DecidableEq, Repr

/-- The redemption of one revoked pool-share trust line holding `balance` shares, in
`removeOffersAndPoolShareTrustLines`: each reserve's share is paid into a claimable
balance (whose creation returned `resultA`, `resultB`), then taken from the pool. -/
def redeemPoolShareTrustLine {Asset : Type} (balance : ℤ) (resultA resultB : RemoveResult)
    (cp : LiquidityPoolConstantProduct Asset) :
    Except String (RemoveResult × LiquidityPoolConstantProduct Asset) :=
  if balance ≠ 0 then do
    let amountA ← getPoolWithdrawalAmount balance cp.totalPoolShares cp.reserveA
    if resultA ≠ .SUCCESS then
      pure (resultA, cp)
    else
      let amountB ← getPoolWithdrawalAmount balance cp.totalPoolShares cp.reserveB
      if resultB ≠ .SUCCESS then
        pure (resultB, cp)
      else
        let totalPoolShares := cp.totalPoolShares - balance
        let reserveA := cp.reserveA - amountA
        let reserveB := cp.reserveB - amountB
        pure (.SUCCESS, { cp with reserveA, reserveB, totalPoolShares })
  else
    pure (.SUCCESS, cp)

/-- `RoundingType`. -/
inductive RoundingType
  | NORMAL
  | PATH_PAYMENT_STRICT_SEND
  | PATH_PAYMENT_STRICT_RECEIVE
deriving DecidableEq, Repr

/-- `exchangeWithPool(reservesToPool, maxSendToPool, toPool, reservesFromPool,
maxReceiveFromPool, fromPool, feeBps, round)`: `some (toPool, fromPool)` for `true`.
Strict send pays in exactly `maxSendToPool` and pays out the fee-adjusted
constant-product amount rounded down; strict receive pays out exactly
`maxReceiveFromPool` and takes in the amount rounded up. -/
def exchangeWithPool (reservesToPool maxSendToPool reservesFromPool maxReceiveFromPool
    feeBps : ℤ) (round : RoundingType) : Except String (Option (ℤ × ℤ)) := do
  let maxBps : ℤ := 10000
  if feeBps < 0 ∨ maxBps ≤ feeBps then
    throw "Liquidity pool fee out of range"
  else if reservesToPool ≤ 0 ∨ reservesFromPool ≤ 0 then
    throw "non-positive reserve in exchangeWithPool"
  else
    match round with
    | .PATH_PAYMENT_STRICT_SEND =>
      if maxReceiveFromPool ≠ INT64_MAX then
        throw "strict send with bounded receive?"
      else
        let maxReceiveFromPool := reservesFromPool
        if maxSendToPool > INT64_MAX - reservesToPool then
          pure none
        else
          let toPool := maxSendToPool
          let denominator := (← bigMultiply maxBps reservesToPool) +
            (← bigMultiply (maxBps - feeBps) toPool)
          let res ← hugeDivide (maxBps - feeBps) (← bigMultiply reservesFromPool toPool)
            denominator .ROUND_DOWN
          match res with
          | none => pure none
          | some fromPool =>
            if fromPool > maxReceiveFromPool then
              throw "received too much from pool"
            else if fromPool < 0 then
              throw "fromPool is negative"
            else
              -- a payout rounded down to zero is refused
              pure (if fromPool ≠ 0 then some (toPool, fromPool) else none)
    | .PATH_PAYMENT_STRICT_RECEIVE =>
      if maxSendToPool ≠ INT64_MAX then
        throw "strict receive with bounded send?"
      else
        let maxSendToPool := INT64_MAX - reservesToPool
        if maxReceiveFromPool ≥ reservesFromPool then
          pure none
        else
          let fromPool := maxReceiveFromPool
          let res ← hugeDivide maxBps (← bigMultiply reservesToPool fromPool)
            (← bigMultiply (reservesFromPool - fromPool) (maxBps - feeBps)) .ROUND_UP
          match res with
          | none => pure none
          | some toPool =>
            if toPool < 0 then
              throw "toPool is negative"
            else
              pure (if toPool ≤ maxSendToPool then some (toPool, fromPool) else none)
    | .NORMAL => throw "Invalid rounding type"

/-- The overload of `exchangeWithPool` that trades with the pool of two assets and
updates its reserves (from the point where the pool is loaded; the protocol-version
and trading-disabled checks of the ledger header are not modelled). -/
def exchangeWithLiquidityPool {Asset : Type} [DecidableEq Asset] (toPoolAsset : Asset)
    (maxSendToPool : ℤ) (fromPoolAsset : Asset) (maxReceiveFromPool : ℤ) (round : RoundingType)
    (maxOffersToCross : ℤ) (cp : LiquidityPoolConstantProduct Asset) :
    Except String (Option (ℤ × ℤ) × LiquidityPoolConstantProduct Asset) :=
  if round = .NORMAL then pure (none, cp)
  else if maxOffersToCross = 0 then pure (none, cp)
  else if cp.reserveA ≤ 0 ∨ cp.reserveB ≤ 0 then pure (none, cp)
  else if toPoolAsset = cp.params.assetA ∧ fromPoolAsset = cp.params.assetB then do
    match ← exchangeWithPool cp.reserveA maxSendToPool cp.reserveB maxReceiveFromPool
        LIQUIDITY_POOL_FEE_V18 round with
    | none => pure (none, cp)
    | some (toPool, fromPool) =>
      let some reserveA ← addBalance cp.reserveA toPool | throw "could not update reserves"
      let some reserveB ← addBalance cp.reserveB (-fromPool) | throw "could not update reserves"
      pure (some (toPool, fromPool), { cp with reserveA, reserveB })
  else if fromPoolAsset = cp.params.assetA ∧ toPoolAsset = cp.params.assetB then do
    match ← exchangeWithPool cp.reserveB maxSendToPool cp.reserveA maxReceiveFromPool
        LIQUIDITY_POOL_FEE_V18 round with
    | none => pure (none, cp)
    | some (toPool, fromPool) =>
      let some reserveA ← addBalance cp.reserveA (-fromPool) | throw "could not update reserves"
      let some reserveB ← addBalance cp.reserveB toPool | throw "could not update reserves"
      pure (some (toPool, fromPool), { cp with reserveA, reserveB })
  else
    throw "Invalid liquidity pool assets"

/-! ### Specifications -/

section Specs

variable {Asset : Type}

/-- `isBadPrice` throws nothing but the assertion of `bigMultiply`. -/
theorem isBadPrice_throws (amountA amountB : ℤ) (minPrice maxPrice : Price) :
    Except.Spec (· = "(a >= 0) && (b >= 0)") (fun _ => True)
      (isBadPrice amountA amountB minPrice maxPrice) := by
  unfold isBadPrice
  refine Except.Spec.ite (fun _ => trivial) (fun _ => ?_)
  refine (bigMultiply_throws _ _).bind fun _ _ => (bigMultiply_throws _ _).bind fun _ _ => ?_
  refine Except.Spec.ite (fun _ => trivial) (fun _ => ?_)
  exact (bigMultiply_throws _ _).bind fun _ _ => (bigMultiply_throws _ _).bind fun _ _ => trivial

/-- `minAmongValid` picks one of the valid values, at most every valid value. -/
theorem minAmongValid_spec {x y : Option ℤ} {s : ℤ} (h : minAmongValid x y = some s) :
    (x = some s ∨ y = some s) ∧ (∀ v, x = some v → s ≤ v) ∧ (∀ v, y = some v → s ≤ v) := by
  rcases x with _ | x <;> rcases y with _ | y <;> simp only [minAmongValid, reduceCtorEq,
    Option.some.injEq] at h
  · subst h; simp
  · subst h; simp
  · subst h
    refine ⟨?_, by simp, by simp⟩
    rcases min_choice x y with h | h <;> simp [h]

/-- **What a first deposit returns**: both maximum amounts, and shares whose square is
at most their product. -/
theorem depositIntoEmptyPool_spec {op : LiquidityPoolDepositOp} {availableA availableB
    availableLimitPoolShares : ℤ} {amts : DepositAmounts}
    (h : depositIntoEmptyPool op availableA availableB availableLimitPoolShares = .ok (.ok amts)) :
    amts.amountA = op.maxAmountA ∧ amts.amountB = op.maxAmountB ∧ 0 ≤ amts.amountPoolShares ∧
      amts.amountPoolShares * amts.amountPoolShares ≤
        ((op.maxAmountA.toNat * op.maxAmountB.toNat : ℕ) : ℤ) := by
  simp only [depositIntoEmptyPool] at h
  split_ifs at h
  · cases h
  obtain ⟨bad, -, h⟩ := Except.bind_eq_ok.mp h
  split_ifs at h
  · cases h
  obtain ⟨z, hz, h⟩ := Except.bind_eq_ok.mp h
  split_ifs at h
  · cases h
  cases h
  refine ⟨rfl, rfl, by positivity, ?_⟩
  dsimp only
  exact_mod_cast bigSquareRoot_mul_self_le hz

/-- **What a deposit into a non-empty pool returns**: non-negative shares, paid for at
no less than the pool's reserves per share. -/
theorem depositIntoNonEmptyPool_spec {op : LiquidityPoolDepositOp} {availableA availableB
    availableLimitPoolShares : ℤ} {cp : LiquidityPoolConstantProduct Asset} {amts : DepositAmounts}
    (h : depositIntoNonEmptyPool op availableA availableB availableLimitPoolShares cp =
      .ok (.ok amts)) :
    0 < cp.totalPoolShares ∧ 0 ≤ amts.amountPoolShares ∧
      amts.amountPoolShares * cp.reserveA ≤ amts.amountA * cp.totalPoolShares ∧
      amts.amountPoolShares * cp.reserveB ≤ amts.amountB * cp.totalPoolShares := by
  simp only [depositIntoNonEmptyPool] at h
  obtain ⟨sharesA, hA, h⟩ := Except.bind_eq_ok.mp h
  obtain ⟨sharesB, hB, h⟩ := Except.bind_eq_ok.mp h
  cases hs : minAmongValid sharesA sharesB with
  | none => simp [hs] at h
  | some s =>
    simp only [hs] at h
    -- the shares are one of the two rounded-down quotients, so not negative
    have hs0 : 0 ≤ s := by
      rcases (minAmongValid_spec hs).1 with rfl | rfl
      · exact (bigDivide_down_spec hA).1
      · exact (bigDivide_down_spec hB).1
    obtain ⟨resA, hrA, h⟩ := Except.bind_eq_ok.mp h
    obtain ⟨resB, hrB, h⟩ := Except.bind_eq_ok.mp h
    rcases resA with _ | amountA <;> rcases resB with _ | amountB <;> simp only at h
    · cases h
    · cases h
    · cases h
    -- the line-full test does not depend on the price test: it is split first
    split_ifs at h with hfunds hline
    · cases h
    · obtain ⟨_, -, h⟩ := Except.bind_eq_ok.mp h
      split_ifs at h <;> cases h
    · obtain ⟨_, -, h⟩ := Except.bind_eq_ok.mp h
      split_ifs at h
      · cases h
      · cases h
        obtain ⟨-, -, hS, -, -⟩ := bigDivide_spec hrA
        exact ⟨hS, hs0, (bigDivide_up_spec hrA).2.1, (bigDivide_up_spec hrB).2.1⟩

/-- **A deposit either leaves the pool alone or adds positive amounts** that the
deposit function of the pool's state computed. -/
theorem LiquidityPoolDepositOpFrame.doApply_spec [DecidableEq Asset]
    {op : LiquidityPoolDepositOp} {src : DepositSource} {cp cp' : LiquidityPoolConstantProduct Asset}
    {code : LiquidityPoolDepositResultCode}
    (h : LiquidityPoolDepositOpFrame.doApply op src cp = .ok (code, cp')) :
    cp' = cp ∨ ∃ amts : DepositAmounts,
      (if cp.totalPoolShares ≠ 0 then
          depositIntoNonEmptyPool op src.availableA src.availableB src.availableLimitPoolShares cp
        else depositIntoEmptyPool op src.availableA src.availableB src.availableLimitPoolShares) =
        .ok (.ok amts) ∧
      0 < amts.amountA ∧ 0 < amts.amountB ∧ 0 < amts.amountPoolShares ∧
      cp' = { cp with
        reserveA := cp.reserveA + amts.amountA
        reserveB := cp.reserveB + amts.amountB
        totalPoolShares := cp.totalPoolShares + amts.amountPoolShares } := by
  unfold LiquidityPoolDepositOpFrame.doApply at h
  -- the three guards, one at a time, so that the choice of deposit function stays whole
  split at h
  · cases h; exact .inl rfl
  split at h
  · cases h
  split at h
  · cases h; exact .inl rfl
  obtain ⟨r, hr, h⟩ := Except.bind_eq_ok.mp h
  rcases r with code' | ⟨amountA, amountB, amountPoolShares⟩
  · cases h; exact .inl rfl
  simp only at h
  split at h
  · cases h; exact .inl rfl
  split at h
  · cases h
  -- the three additions succeed, each returning the sum
  obtain ⟨oA, hA, h⟩ := Except.bind_eq_ok.mp h
  rcases oA with _ | reserveA
  · simp at h
  obtain ⟨oB, hB, h⟩ := Except.bind_eq_ok.mp h
  rcases oB with _ | reserveB
  · simp at h
  obtain ⟨oS, hS, h⟩ := Except.bind_eq_ok.mp h
  rcases oS with _ | totalPoolShares
  · simp at h
  cases h
  refine .inr ⟨⟨amountA, amountB, amountPoolShares⟩, hr, ?_, ?_, ?_, ?_⟩ <;> dsimp only
  · omega
  · omega
  · omega
  · rw [(addBalance_spec hA).1, (addBalance_spec hB).1, (addBalance_spec hS).1]

/-- **What `getPoolWithdrawalAmount` returns**: for `0 ≤ w ≤ S` shares of `S`, the
share `w / S` of the reserve rounded down. -/
theorem getPoolWithdrawalAmount_spec {w S reserve r : ℤ}
    (h : getPoolWithdrawalAmount w S reserve = .ok r) :
    0 ≤ w ∧ w ≤ S ∧ 0 < S ∧ 0 ≤ reserve ∧ 0 ≤ r ∧ r * S ≤ w * reserve ∧
      w * reserve < (r + 1) * S := by
  unfold getPoolWithdrawalAmount at h
  by_cases hgt : w > S
  · rw [if_pos hgt] at h
    cases h
  rw [if_neg hgt] at h
  have hd := bigDivideOrThrow_eq_ok.mp h
  obtain ⟨hw, hres, hS, -, -⟩ := bigDivide_spec hd
  obtain ⟨hr, hle, hlt, -⟩ := bigDivide_down_spec hd
  exact ⟨hw, by omega, hS, hres, hr, hle, hlt⟩

/-- **A withdrawal either leaves the pool alone or takes out the withdrawn shares and
each reserve's rounded-down part of them.** -/
theorem LiquidityPoolWithdrawOpFrame.doApply_spec {op : LiquidityPoolWithdrawOp}
    {src : WithdrawSource} {cp cp' : LiquidityPoolConstantProduct Asset}
    {code : LiquidityPoolWithdrawResultCode}
    (h : LiquidityPoolWithdrawOpFrame.doApply op src cp = .ok (code, cp')) :
    cp' = cp ∨ ∃ amountA amountB,
      getPoolWithdrawalAmount op.amount cp.totalPoolShares cp.reserveA = .ok amountA ∧
      getPoolWithdrawalAmount op.amount cp.totalPoolShares cp.reserveB = .ok amountB ∧
      cp' = { cp with
        reserveA := cp.reserveA - amountA
        reserveB := cp.reserveB - amountB
        totalPoolShares := cp.totalPoolShares - op.amount } := by
  unfold LiquidityPoolWithdrawOpFrame.doApply at h
  split at h
  · cases h; exact .inl rfl
  split at h
  · cases h; exact .inl rfl
  obtain ⟨amountA, hA, h⟩ := Except.bind_eq_ok.mp h
  cases hcodeA : tryAddAssetBalance op.minAmountA amountA src.availableLimitA with
  | some c => simp only [hcodeA] at h; cases h; exact .inl rfl
  | none =>
  simp only [hcodeA] at h
  obtain ⟨amountB, hB, h⟩ := Except.bind_eq_ok.mp h
  cases hcodeB : tryAddAssetBalance op.minAmountB amountB src.availableLimitB with
  | some c => simp only [hcodeB] at h; cases h; exact .inl rfl
  | none =>
  simp only [hcodeB] at h
  obtain ⟨oS, hS, h⟩ := Except.bind_eq_ok.mp h
  rcases oS with _ | totalPoolShares
  · simp at h
  obtain ⟨oA, hA', h⟩ := Except.bind_eq_ok.mp h
  rcases oA with _ | reserveA
  · simp at h
  obtain ⟨oB, hB', h⟩ := Except.bind_eq_ok.mp h
  rcases oB with _ | reserveB
  · simp at h
  cases h
  refine .inr ⟨amountA, amountB, hA, hB, ?_⟩
  rw [(addBalance_spec hS).1, (addBalance_spec hA').1, (addBalance_spec hB').1]
  simp only [sub_eq_add_neg]

/-- **A redemption either leaves the pool alone or takes out the redeemed shares and
each reserve's rounded-down part of them**, as a withdrawal does. -/
theorem redeemPoolShareTrustLine_spec {balance : ℤ} {resultA resultB res : RemoveResult}
    {cp cp' : LiquidityPoolConstantProduct Asset}
    (h : redeemPoolShareTrustLine balance resultA resultB cp = .ok (res, cp')) :
    cp' = cp ∨ ∃ amountA amountB,
      getPoolWithdrawalAmount balance cp.totalPoolShares cp.reserveA = .ok amountA ∧
      getPoolWithdrawalAmount balance cp.totalPoolShares cp.reserveB = .ok amountB ∧
      cp' = { cp with
        reserveA := cp.reserveA - amountA
        reserveB := cp.reserveB - amountB
        totalPoolShares := cp.totalPoolShares - balance } := by
  unfold redeemPoolShareTrustLine at h
  split at h
  · obtain ⟨amountA, hA, h⟩ := Except.bind_eq_ok.mp h
    split at h
    · cases h; exact .inl rfl
    obtain ⟨amountB, hB, h⟩ := Except.bind_eq_ok.mp h
    split at h
    · cases h; exact .inl rfl
    cases h
    exact .inr ⟨amountA, amountB, hA, hB, rfl⟩
  · cases h; exact .inl rfl

/-- **A trade keeps the product of the reserves.** A successful exchange pays out less
than the reserve it pays from, takes in no more than the other reserve has room for,
and leaves `X Y ≤ (X + toPool) (Y - fromPool)`: strict send rounds the payout down,
strict receive rounds the intake up, and the fee only helps. -/
theorem exchangeWithPool_spec {X maxSend Y maxReceive feeBps t f : ℤ} {round : RoundingType}
    (h : exchangeWithPool X maxSend Y maxReceive feeBps round = .ok (some (t, f))) :
    0 < X ∧ 0 < Y ∧ 0 ≤ t ∧ 0 ≤ f ∧ f < Y ∧ t ≤ INT64_MAX - X ∧ X * Y ≤ (X + t) * (Y - f) := by
  simp only [exchangeWithPool] at h
  -- the two guards that throw come first
  have hfee : ¬ (feeBps < 0 ∨ 10000 ≤ feeBps) := fun hc => by
    rw [if_pos hc] at h; cases h
  rw [if_neg hfee] at h
  have hres : ¬ (X ≤ 0 ∨ Y ≤ 0) := fun hc => by
    rw [if_pos hc] at h; cases h
  rw [if_neg hres] at h
  have hX : 0 < X := by omega
  have hY : 0 < Y := by omega
  have hγ : 0 < 10000 - feeBps := by omega
  have hγM : 10000 - feeBps ≤ 10000 := by omega
  -- a payout of the whole reserve would leave a zero product, so `f ≤ Y` is enough
  suffices key : 0 ≤ t ∧ 0 ≤ f ∧ f ≤ Y ∧ t ≤ INT64_MAX - X ∧ X * Y ≤ (X + t) * (Y - f) by
    obtain ⟨ht, hf, hfY, hroom, hprod⟩ := key
    refine ⟨hX, hY, ht, hf, lt_of_le_of_ne hfY ?_, hroom, hprod⟩
    rintro rfl
    have := mul_pos hX hY
    simp only [sub_self, mul_zero] at hprod
    linarith
  cases round with
  | NORMAL => cases h
  | PATH_PAYMENT_STRICT_SEND =>
    simp only at h
    split at h
    · cases h
    split at h
    · cases h
    obtain ⟨n1, hn1, h⟩ := Except.bind_eq_ok.mp h
    obtain ⟨n2, hn2, h⟩ := Except.bind_eq_ok.mp h
    obtain ⟨n3, hn3, h⟩ := Except.bind_eq_ok.mp h
    obtain ⟨res, hdiv, h⟩ := Except.bind_eq_ok.mp h
    rcases res with _ | fp
    · cases h
    simp only at h
    split at h
    · cases h
    split at h
    · cases h
    split at h <;> cases h
    obtain ⟨-, -, hn1⟩ := bigMultiply_spec hn1
    obtain ⟨-, ht, hn2⟩ := bigMultiply_spec hn2
    obtain ⟨-, -, hn3⟩ := bigMultiply_spec hn3
    obtain ⟨hf, hdown⟩ := hugeDivide_down_spec hdiv
    push_cast at hdown
    rw [hn1, hn2, hn3] at hdown
    exact ⟨ht, hf, by omega, by omega,
      ConstantProduct.le_mul_sub_of_send hX.le hf hγ hγM hdown⟩
  | PATH_PAYMENT_STRICT_RECEIVE =>
    simp only at h
    split at h
    · cases h
    split at h
    · cases h
    obtain ⟨n1, hn1, h⟩ := Except.bind_eq_ok.mp h
    obtain ⟨n2, hn2, h⟩ := Except.bind_eq_ok.mp h
    obtain ⟨res, hdiv, h⟩ := Except.bind_eq_ok.mp h
    rcases res with _ | tp
    · cases h
    simp only at h
    split at h
    · cases h
    split at h <;> cases h
    obtain ⟨-, hf, hn1⟩ := bigMultiply_spec hn1
    obtain ⟨-, -, hn2⟩ := bigMultiply_spec hn2
    obtain ⟨ht, hup⟩ := hugeDivide_up_spec hdiv
    rw [hn1, hn2] at hup
    exact ⟨ht, hf, by omega, by omega,
      ConstantProduct.le_mul_sub_of_receive hX.le hf hγ hγM hup⟩

/-- **A trade with a pool either leaves it alone or keeps its shares and the product of
its reserves**, trading only against positive reserves and leaving them positive. -/
theorem exchangeWithLiquidityPool_spec [DecidableEq Asset] {toPoolAsset fromPoolAsset : Asset}
    {maxSendToPool maxReceiveFromPool maxOffersToCross : ℤ} {round : RoundingType}
    {cp cp' : LiquidityPoolConstantProduct Asset} {o : Option (ℤ × ℤ)}
    (h : exchangeWithLiquidityPool toPoolAsset maxSendToPool fromPoolAsset maxReceiveFromPool
      round maxOffersToCross cp = .ok (o, cp')) :
    cp' = cp ∨ (cp'.params = cp.params ∧ cp'.totalPoolShares = cp.totalPoolShares ∧
      0 < cp.reserveA ∧ 0 < cp.reserveB ∧ 0 < cp'.reserveA ∧ 0 < cp'.reserveB ∧
      cp.reserveA * cp.reserveB ≤ cp'.reserveA * cp'.reserveB) := by
  unfold exchangeWithLiquidityPool at h
  split at h
  · cases h; exact .inl rfl
  split at h
  · cases h; exact .inl rfl
  split at h
  · cases h; exact .inl rfl
  split at h
  · -- the first asset goes into the pool
    obtain ⟨res, hex, h⟩ := Except.bind_eq_ok.mp h
    rcases res with _ | ⟨t, f⟩
    · cases h; exact .inl rfl
    simp only at h
    obtain ⟨oA, hA, h⟩ := Except.bind_eq_ok.mp h
    rcases oA with _ | reserveA
    · simp at h
    obtain ⟨oB, hB, h⟩ := Except.bind_eq_ok.mp h
    rcases oB with _ | reserveB
    · simp at h
    cases h
    obtain ⟨hX, hY, ht, -, hfY, -, hprod⟩ := exchangeWithPool_spec hex
    rw [(addBalance_spec hA).1, (addBalance_spec hB).1]
    refine .inr ⟨rfl, rfl, hX, hY, ?_, ?_, ?_⟩ <;> dsimp only
    · omega
    · omega
    · rwa [← sub_eq_add_neg]
  split at h
  · -- the second asset goes into the pool
    obtain ⟨res, hex, h⟩ := Except.bind_eq_ok.mp h
    rcases res with _ | ⟨t, f⟩
    · cases h; exact .inl rfl
    simp only at h
    obtain ⟨oA, hA, h⟩ := Except.bind_eq_ok.mp h
    rcases oA with _ | reserveA
    · simp at h
    obtain ⟨oB, hB, h⟩ := Except.bind_eq_ok.mp h
    rcases oB with _ | reserveB
    · simp at h
    cases h
    obtain ⟨hX, hY, ht, -, hfY, -, hprod⟩ := exchangeWithPool_spec hex
    rw [(addBalance_spec hA).1, (addBalance_spec hB).1]
    refine .inr ⟨rfl, rfl, hY, hX, ?_, ?_, ?_⟩ <;> dsimp only
    · omega
    · omega
    · calc cp.reserveA * cp.reserveB = cp.reserveB * cp.reserveA := mul_comm _ _
        _ ≤ (cp.reserveB + t) * (cp.reserveA - f) := hprod
        _ = (cp.reserveA + -f) * (cp.reserveB + t) := by ring
  · cases h

end Specs

end LiquidityPool

end HcnetCore
