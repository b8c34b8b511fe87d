import HcnetCore.Util.Numeric
import HcnetCore.Util.GlobalChecks

/-!
# Surge pricing and the operation limit of the transaction queue (`herder/`)

The transaction queue bounds the operations it holds with a `TxQueueLimiter`. The
limiter keeps every queued transaction in a `SurgePricingPriorityQueue`, a set of
single-transaction stacks ordered by fee rate with the cheapest on top. When a new
transaction does not fit, `canFitWithEviction` walks the set from the top and picks
stacks to evict until enough operations are freed. It gives up on the first stack
whose fee rate is not strictly below the new transaction's, or whose source
account is the new transaction's.

This module models:

* `TransactionFrame`, the part of a transaction the queue reads;
* `feeRate3WayCompare` and `computeBetterFee` (`SurgePricingUtils.cpp`);
* the limiter's `SurgePricingPriorityQueue` with `add`, `erase`, `sizeOps` and
  `canFitWithEviction`;
* `TxQueueLimiter` with `canAddTx`, `addTransaction` and `removeTransaction`
  (`TxQueueLimiter.cpp`). `evictTransactions` calls back into the queue, so it is
  modelled with the queue in `Herder.TransactionQueue`.

Calls end in `Failure` (`Util.GlobalChecks`) when they throw or abort.

Op counts are `uint32_t` in the source and natural numbers here. The sums the
limiter forms stay below `2 ^ 32` as long as twice the queue's operation limit does.
-/

namespace HcnetCore

namespace Herder

open Numeric

/-- The exceptions of `util/numeric.cpp` as exceptions of the caller. -/
def liftNumeric {α : Type} (x : Except String α) : Except Failure α :=
  x.mapError .exception

@[simp] theorem liftNumeric_ok {α : Type} (a : α) :
    liftNumeric (.ok a : Except String α) = .ok a := rfl

@[simp] theorem liftNumeric_error {α : Type} (e : String) :
    liftNumeric (.error e : Except String α) = .error (.exception e) := rfl

@[simp] theorem liftNumeric_eq_ok {α : Type} {x : Except String α} {a : α} :
    liftNumeric x = .ok a ↔ x = .ok a := by
  cases x <;> simp [liftNumeric, Except.mapError]

/-- Account identifiers; only their equality and order matter to the queue. -/
abbrev AccountID := ℕ

/-- Transaction hashes; only their equality matters to the queue. -/
abbrev Hash := ℕ

/-- The envelope types of a transaction. -/
inductive EnvelopeType
  | ENVELOPE_TYPE_TX_V0
  | ENVELOPE_TYPE_TX
  | ENVELOPE_TYPE_TX_FEE_BUMP
deriving DecidableEq, Repr

/-- What the queue reads of a `TransactionFrameBase`. For a fee bump, the source
account, sequence number and sequence conditions are those of the inner transaction,
`numOperations` counts the inner operations plus one, and `innerFullHash` is the
inner transaction's hash. -/
structure TransactionFrame where
  envelopeType : EnvelopeType
  fullHash : Hash
  innerFullHash : Hash
  sourceID : AccountID
  feeSourceID : AccountID
  seqNum : ℤ
  minSeqNum : Option ℤ
  minSeqAge : ℕ
  minSeqLedgerGap : ℕ
  numOperations : ℕ
  feeBid : ℤ
deriving DecidableEq, Repr

/-! ### Fee rates -/

/-- `feeRate3WayCompare(lFeeBid, lNbOps, rFeeBid, rNbOps)`: the sign of
`lFeeBid / lNbOps - rFeeBid / rNbOps`, compared as `lFeeBid * rNbOps` against
`rFeeBid * lNbOps`. -/
def feeRate3WayCompare (lFeeBid : ℤ) (lNbOps : ℕ) (rFeeBid : ℤ) (rNbOps : ℕ) :
    Except Failure ℤ := do
  let v1 ← liftNumeric (bigMultiply lFeeBid rNbOps)
  let v2 ← liftNumeric (bigMultiply rFeeBid lNbOps)
  pure (if v1 < v2 then -1 else if v1 > v2 then 1 else 0)

/-- `computeBetterFee(tx, refFeeBid, refNbOps)`: the least fee bid for `tx` whose
fee rate beats `refFeeBid / refNbOps`, or `INT64_MAX` when it does not fit. -/
def computeBetterFee (tx : TransactionFrame) (refFeeBid : ℤ) (refNbOps : ℕ) :
    Except Failure ℤ := do
  let v ← liftNumeric (bigDivide refFeeBid tx.numOperations refNbOps .ROUND_DOWN)
  pure (match v with
    | some v => if v < INT64_MAX then v + 1 else INT64_MAX
    | none => INT64_MAX)

/-- `TxStackComparator::compareFeeOnly` of the limiter's queue, which is built with
`isHighestPriority = false`: `tx1`'s fee rate is strictly below `tx2`'s. -/
def compareFeeOnly (tx1 tx2 : TransactionFrame) : Except Failure Bool := do
  let c ← feeRate3WayCompare tx1.feeBid tx1.numOperations tx2.feeBid tx2.numOperations
  pure (c < 0)

/-! ### The priority queue -/

/-- The `SurgePricingPriorityQueue` of a `TxQueueLimiter`. Its stacks hold one
transaction each, so the set is the list of those transactions, cheapest fee rate
first. `mOpsCount` is kept by `add` and `erase` as the sum of the stacks' operations,
which `sizeOps` computes. -/
structure SurgePricingPriorityQueue where
  mOpsLimit : ℕ
  mTxStackSet : List TransactionFrame
deriving DecidableEq, Repr

namespace SurgePricingPriorityQueue

/-- `sizeOps()`: the operations of all stacks. -/
def sizeOps (q : SurgePricingPriorityQueue) : ℕ :=
  (q.mTxStackSet.map TransactionFrame.numOperations).sum

/-- `updateOpsLimit(newLimit)`. -/
def updateOpsLimit (q : SurgePricingPriorityQueue) (newLimit : ℕ) : SurgePricingPriorityQueue :=
  { q with mOpsLimit := newLimit }

/-- Insertion into `mTxStackSet` under `TxStackComparator`: before the first stack
whose fee rate is strictly higher. Among equal fee rates the source orders stacks by
their addresses xor a random seed; the model puts the new stack last among them,
which is one of the orders that the seed can give. -/
def insertStack (tx : TransactionFrame) : List TransactionFrame → Except Failure (List TransactionFrame)
  | [] => pure [tx]
  | s :: rest => do
    let c ← feeRate3WayCompare tx.feeBid tx.numOperations s.feeBid s.numOperations
    if c < 0 then
      pure (tx :: s :: rest)
    else do
      let rest ← insertStack tx rest
      pure (s :: rest)

/-- `add(txStack)`: a stack already in the set is not inserted again. -/
def add (q : SurgePricingPriorityQueue) (tx : TransactionFrame) :
    Except Failure SurgePricingPriorityQueue :=
  if tx ∈ q.mTxStackSet then
    pure q
  else do
    let s ← insertStack tx q.mTxStackSet
    pure { q with mTxStackSet := s }

/-- `erase(txStack)`: removing a stack that is not in the set does nothing. -/
def erase (q : SurgePricingPriorityQueue) (tx : TransactionFrame) : SurgePricingPriorityQueue :=
  { q with mTxStackSet := q.mTxStackSet.erase tx }

/-- Erasing a stack of the set takes its operations off `sizeOps`. -/
theorem sizeOps_erase {q : SurgePricingPriorityQueue} {tx : TransactionFrame}
    (h : tx ∈ q.mTxStackSet) : tx.numOperations + (q.erase tx).sizeOps = q.sizeOps :=
  List.sum_map_erase _ h

/-- The `while (neededTotalOps > 0)` loop of `canFitWithEviction`, from the stack at
`iter` on, with the stacks picked so far in `txStacksToEvict`. -/
def canFitWithEvictionLoop (tx : TransactionFrame) :
    ℤ → List TransactionFrame → List TransactionFrame →
      Except Failure ((Bool × ℤ) × List TransactionFrame)
  | neededTotalOps, iter, txStacksToEvict =>
    if neededTotalOps > 0 then
      match iter with
      | [] => throw (.abort "iter != mTxStackSet.end()")
      | evictTx :: iter => do
        -- a single-transaction stack has its transaction's operations, so
        -- `releaseAssert(evictOps == evictTx.getNumOperations())` holds
        let cheaper ← compareFeeOnly evictTx tx
        if !cheaper then
          let minFee ← computeBetterFee tx evictTx.feeBid evictTx.numOperations
          pure ((false, minFee), txStacksToEvict)
        else if tx.sourceID = evictTx.sourceID then
          pure ((false, 0), txStacksToEvict)
        else
          let txStacksToEvict := txStacksToEvict ++ [evictTx]
          let neededTotalOps := neededTotalOps - evictTx.numOperations
          if neededTotalOps ≤ 0 then
            pure ((true, 0), txStacksToEvict)
          else
            canFitWithEvictionLoop tx neededTotalOps iter txStacksToEvict
    else
      throw (.abort "false")

/-- `canFitWithEviction(tx, txOpsDiscount, txStacksToEvict)`: whether `tx`, less
`txOpsDiscount` of its operations, fits under the limit once the returned stacks are
evicted; on refusal, the fee that would have let it evict (or `0`). The limiter's
queue keeps the lowest fee rate on top, so `releaseAssert(!mComparator.isGreater())`
holds. -/
def canFitWithEviction (q : SurgePricingPriorityQueue) (tx : TransactionFrame)
    (txOpsDiscount : ℕ) : Except Failure ((Bool × ℤ) × List TransactionFrame) :=
  if tx.numOperations < txOpsDiscount then
    throw (.exception "Discount shouldn't be larger than transaction operations count")
  else
    let txNewOps := tx.numOperations - txOpsDiscount
    if txNewOps > q.mOpsLimit then
      pure ((false, 0), [])
    else
      let newTotalOps := q.sizeOps + txNewOps
      if newTotalOps ≤ q.mOpsLimit then
        pure ((true, 0), [])
      else do
        let neededTotalOps : ℤ := max 0 ((newTotalOps : ℤ) - q.mOpsLimit)
        releaseAssert (neededTotalOps > 0) "neededTotalOps > 0"
        canFitWithEvictionLoop tx neededTotalOps q.mTxStackSet []

/-! #### What `canFitWithEviction` decides -/

/-- The eviction loop only accepts after picking a stack. -/
theorem canFitWithEvictionLoop_accepts_ne_nil {tx : TransactionFrame} :
    ∀ {needed : ℤ} {iter acc evict : List TransactionFrame} {fee : ℤ},
      canFitWithEvictionLoop tx needed iter acc = .ok ((true, fee), evict) → evict ≠ []
  | needed, [], acc, evict, fee, h => by
    unfold canFitWithEvictionLoop at h
    split at h <;> cases h
  | needed, evictTx :: iter, acc, evict, fee, h => by
    unfold canFitWithEvictionLoop at h
    split at h
    · obtain ⟨cheaper, -, h⟩ := Except.bind_eq_ok.mp h
      split at h
      · obtain ⟨minFee, -, h⟩ := Except.bind_eq_ok.mp h
        cases h
      split at h
      · cases h
      -- the picked stack is appended before the remaining need is tested
      dsimp only at h
      split at h
      · cases h
        simp
      · exact canFitWithEvictionLoop_accepts_ne_nil h
    · cases h

/-- A transaction whose charged operations (its own less the discount) fit under the
limit is accepted with nothing to evict. -/
theorem canFitWithEviction_of_fits {q : SurgePricingPriorityQueue} {tx : TransactionFrame}
    {d : ℕ} (hd : d ≤ tx.numOperations) (hfit : q.sizeOps + (tx.numOperations - d) ≤ q.mOpsLimit) :
    q.canFitWithEviction tx d = .ok ((true, 0), []) := by
  have hnew : ¬ tx.numOperations - d > q.mOpsLimit := by omega
  simp only [canFitWithEviction, if_neg (Nat.not_lt.mpr hd), if_neg hnew, if_pos hfit]
  rfl

/-- Accepting with nothing to evict means that the charged operations fit. -/
theorem fits_of_canFitWithEviction {q : SurgePricingPriorityQueue} {tx : TransactionFrame}
    {d : ℕ} {fee : ℤ} (h : q.canFitWithEviction tx d = .ok ((true, fee), [])) :
    d ≤ tx.numOperations ∧ q.sizeOps + (tx.numOperations - d) ≤ q.mOpsLimit := by
  simp only [canFitWithEviction] at h
  split at h
  · cases h
  split at h
  · cases h
  split at h
  · exact ⟨by omega, by assumption⟩
  · simp only [releaseAssert_bind] at h
    split at h
    · exact absurd rfl (canFitWithEvictionLoop_accepts_ne_nil h)
    · cases h

end SurgePricingPriorityQueue

/-! ### The limiter -/

/-- `TxQueueLimiter`: the queued transactions and the fee bid of the last evicted one
(`{0, 0}` until the first eviction). The source creates `mTxs` lazily on the first
`canAddTx`, with the current limit; `canAddTx` sets the limit again before using
it, so the model starts from an empty queue with limit `0`. -/
structure TxQueueLimiter where
  mTxs : SurgePricingPriorityQueue
  mEvictedFeeBid : ℤ × ℕ
deriving DecidableEq, Repr

namespace TxQueueLimiter

/-- The limiter of a new transaction queue. -/
def empty : TxQueueLimiter := ⟨⟨0, []⟩, (0, 0)⟩

/-- `computeBetterFee(evictedBid, tx)` of `TxQueueLimiter.cpp`: the fee `tx` must
bid to beat the last evicted transaction, or `0` when it already does. -/
def computeBetterFee (evictedBid : ℤ × ℕ) (tx : TransactionFrame) : Except Failure ℤ :=
  if evictedBid.2 ≠ 0 then do
    let c ← feeRate3WayCompare evictedBid.1 evictedBid.2 tx.feeBid tx.numOperations
    if c ≥ 0 then Herder.computeBetterFee tx evictedBid.1 evictedBid.2 else pure 0
  else
    pure 0

/-- `canAddTx(newTx, oldTx, txsToEvict)`, with `maxQueueSizeOps()` read from the
ledger as `maxQueueSizeOps`: whether `newTx` can be added, replacing `oldTx` when
given, the fee it would need otherwise, and the stacks to evict; the limiter comes
back with its limit updated. -/
def canAddTx (lim : TxQueueLimiter) (maxQueueSizeOps : ℕ) (newTx : TransactionFrame)
    (oldTx : Option TransactionFrame) :
    Except Failure ((Bool × ℤ) × List TransactionFrame × TxQueueLimiter) := do
  let minFeeToBeatEvicted ← computeBetterFee lim.mEvictedFeeBid newTx
  if minFeeToBeatEvicted > 0 then
    pure ((false, minFeeToBeatEvicted), [], lim)
  else do
    let txOpsDiscount ← (match oldTx with
      | none => pure 0
      | some oldTx => do
        -- Bump transactions must have at least the old amount of operations.
        releaseAssert (oldTx.numOperations ≤ newTx.numOperations) "oldTxOps <= newTxOps"
        pure (newTx.numOperations - oldTx.numOperations))
    let mTxs := lim.mTxs.updateOpsLimit maxQueueSizeOps
    let (res, txsToEvict) ← mTxs.canFitWithEviction newTx txOpsDiscount
    pure (res, txsToEvict, { lim with mTxs := mTxs })

/-- `addTransaction(tx)`. -/
def addTransaction (lim : TxQueueLimiter) (tx : TransactionFrame) : Except Failure TxQueueLimiter := do
  let mTxs ← lim.mTxs.add tx
  pure { lim with mTxs := mTxs }

/-- `removeTransaction(tx)`. `mStackForTx` holds the same transactions as the set. -/
def removeTransaction (lim : TxQueueLimiter) (tx : TransactionFrame) : Except Failure TxQueueLimiter :=
  if tx ∈ lim.mTxs.mTxStackSet then
    pure { lim with mTxs := lim.mTxs.erase tx }
  else
    throw (.exception "invalid state (missing tx) while removing tx in TxQueueLimiter")

/-! #### How `canAddTx` charges a replacement -/

variable {lim : TxQueueLimiter} {maxOps : ℕ} {newTx oldTx : TransactionFrame} {m : ℤ}

/-- A replacement with fewer operations than the transaction it replaces trips the
assertion of `canAddTx`, once the new transaction beats the last evicted fee. -/
theorem canAddTx_abort_of_fewer_ops (hfee : computeBetterFee lim.mEvictedFeeBid newTx = .ok m)
    (hm : m ≤ 0) (hops : newTx.numOperations < oldTx.numOperations) :
    lim.canAddTx maxOps newTx (some oldTx) = .error (.abort "oldTxOps <= newTxOps") := by
  have hle : ¬ oldTx.numOperations ≤ newTx.numOperations := by omega
  simp only [canAddTx, hfee, Except.ok_bind, if_neg (not_lt.mpr hm), releaseAssert_bind,
    if_neg hle]
  rfl

/-- **The charge of a replacement.** `canAddTx` passes the discount
`ops(newTx) - ops(oldTx)` to `canFitWithEviction`, which subtracts it from
`ops(newTx)`: a replacement is charged `ops(oldTx)` on top of a queue that still
holds `oldTx`. So it is accepted with nothing to evict exactly when
`sizeOps + ops(oldTx) ≤ maxOps`, whatever its own operation count; the limiter comes
back with only its limit changed. -/
theorem canAddTx_replacement_without_eviction
    (hfee : computeBetterFee lim.mEvictedFeeBid newTx = .ok m) (hm : m ≤ 0)
    (hops : oldTx.numOperations ≤ newTx.numOperations) :
    (∃ fee, lim.canAddTx maxOps newTx (some oldTx) =
        .ok ((true, fee), [], { lim with mTxs := lim.mTxs.updateOpsLimit maxOps })) ↔
      lim.mTxs.sizeOps + oldTx.numOperations ≤ maxOps := by
  have hcharge : newTx.numOperations - (newTx.numOperations - oldTx.numOperations) =
      oldTx.numOperations := by omega
  have hd : newTx.numOperations - oldTx.numOperations ≤ newTx.numOperations := Nat.sub_le _ _
  simp only [canAddTx, hfee, Except.ok_bind, if_neg (not_lt.mpr hm), releaseAssert_bind,
    if_pos hops, pure_bind]
  constructor
  · rintro ⟨fee, h⟩
    obtain ⟨⟨res, evict⟩, hfit, h⟩ := Except.bind_eq_ok.mp h
    cases h
    have := (SurgePricingPriorityQueue.fits_of_canFitWithEviction hfit).2
    rwa [hcharge] at this
  · intro hfit
    have hq : (lim.mTxs.updateOpsLimit maxOps).sizeOps +
        (newTx.numOperations - (newTx.numOperations - oldTx.numOperations)) ≤
        (lim.mTxs.updateOpsLimit maxOps).mOpsLimit := by
      rw [hcharge]
      exact hfit
    rw [SurgePricingPriorityQueue.canFitWithEviction_of_fits hd hq]
    exact ⟨0, rfl⟩

end TxQueueLimiter

end Herder

end HcnetCore
