import Mathlib.Data.List.Sort
import Mathlib.Data.List.Dedup
import HcnetCore.Herder.SurgePricing
import HcnetCore.Systems.Reach

/-!
# The transaction queue and replace-by-fee (`herder/TransactionQueue.cpp`)

The queue keeps, per source account, the pending transactions in sequence-number
order, the fees each account owes as a fee source, the hashes of banned
transactions, and the `TxQueueLimiter` that bounds the queued operations.
`tryAdd(tx)` admits a transaction in two phases:

* `canAdd` decides. It rejects a banned or filtered transaction. It finds where the
  sequence number of `tx` falls among its source account's transactions. A fee bump
  with the sequence number of a queued transaction `oldTx` may replace it if its fee
  rate is ten times `oldTx`'s (`canReplaceByFee`). Then it asks the limiter whether
  the operations fit, evicting cheaper transactions of other accounts if needed
  (`canAddTx`). Last it runs the ledger checks and the fee-source balance check.
* `tryAdd` then drops `oldTx` (`prepareDropTransaction`), puts `tx` in its place or
  at the end, evicts what `canAdd` chose by banning it (`evictTransactions`), and
  adds `tx` to the limiter.

Outside the queue, `canAdd` reads the ledger (`checkValid`, the fee source's
available balance, the limit `maxQueueSizeOps`) and the configured operation filter.
These enter as a `QueueContext`. The queue's metrics, broadcast bookkeeping
(`mQueueSizeOps`, `mBroadcastQueueOps`, `mBroadcasted`), ages and known-hash index
are written by these functions but read by none of them, and are left out. The ban
generations are merged into one list, since `shift` is not modelled.
-/

namespace HcnetCore

namespace Herder

/-- The per-account state: the fees the account owes as a fee source and its queued
transactions, in sequence-number order. -/
structure AccountState where
  mTotalFees : ℤ
  mTransactions : List TransactionFrame
deriving DecidableEq, Repr

/-- What `canAdd` reads outside the queue. -/
structure QueueContext where
  /-- `maxQueueSizeOps()`: the ledger's last maximum tx set size times the pool
  multiplier. -/
  maxQueueSizeOps : ℕ
  /-- `isFiltered(tx)`: `tx` contains an excluded operation type. -/
  isFiltered : TransactionFrame → Bool
  /-- `tx->checkValid(ltx, seqNum, 0, upperBoundCloseTimeOffset)`. -/
  checkValid : TransactionFrame → ℤ → Bool
  /-- `getAvailableBalance(header, loadAccount(ltx, account))`. -/
  availableBalance : AccountID → ℤ

/-- `TransactionQueue::AddResult`. -/
inductive AddResult
  | ADD_STATUS_PENDING
  | ADD_STATUS_DUPLICATE
  | ADD_STATUS_ERROR
  | ADD_STATUS_TRY_AGAIN_LATER
  | ADD_STATUS_FILTERED
deriving DecidableEq, Repr

/-- What `canAdd` writes into `tx->getResult()`: nothing (a failed `checkValid`
writes its own code), or a result code, with the fee to bid for
`txINSUFFICIENT_FEE`. -/
inductive TxResult
  | unset
  | txBAD_SEQ
  | txINSUFFICIENT_FEE (feeCharged : ℤ)
  | txINSUFFICIENT_BALANCE
deriving DecidableEq, Repr

/-- The state of a `TransactionQueue`. -/
structure TransactionQueue where
  mAccountStates : AccountID → Option AccountState
  mBannedTransactions : List Hash
  mTxQueueLimiter : TxQueueLimiter

/-! ### Finding a transaction by sequence number -/

/-- `findBySeq(seq, minSeqNum, transactions, iter)`: whether `seq` can go into the
account's queue, and the position of the queued transaction with that sequence
number (`none` is `transactions.end()`). Callers pass a non-empty queue. -/
def findBySeq (seq : ℤ) (minSeqNum : Option ℤ) (transactions : List TransactionFrame) :
    Bool × Option (Fin transactions.length) :=
  match transactions.head?, transactions.getLast? with
  | some first, some last =>
    if seq < first.seqNum then
      (false, none)
    else if seq > last.seqNum then
      ((match minSeqNum with
        | some minSeqNum => decide (minSeqNum ≤ last.seqNum)
        | none => decide (seq = last.seqNum + 1)), none)
    else
      -- `std::lower_bound` on the sequence numbers
      match transactions.findFinIdx? (fun t => decide ¬ t.seqNum < seq) with
      | some i => if transactions[i].seqNum ≠ seq then (false, none) else (true, some i)
      | none => (true, none)
  | _, _ => (false, none)

/-- `isDuplicateTx(oldTx, newTx)`: `newTx` is `oldTx`, or the inner transaction of
the fee bump `oldTx`. -/
def isDuplicateTx (oldTx newTx : TransactionFrame) : Bool :=
  if oldTx.envelopeType = newTx.envelopeType then
    oldTx.fullHash = newTx.fullHash
  else if oldTx.envelopeType = .ENVELOPE_TYPE_TX_FEE_BUMP then
    oldTx.innerFullHash = newTx.fullHash
  else
    false

/-- `findTx(tx, transactions, txIter)`: moves `txIter` to the queued transaction with
`tx`'s sequence number if it is `tx` itself. -/
def findTx (tx : TransactionFrame) (transactions : List TransactionFrame)
    (txIter : Option (Fin transactions.length)) : Option (Fin transactions.length) :=
  match (findBySeq tx.seqNum tx.minSeqNum transactions).2 with
  | some i => if transactions[i].fullHash = tx.fullHash then some i else txIter
  | none => txIter

/-- `TransactionQueue::FEE_MULTIPLIER`. -/
def FEE_MULTIPLIER : ℕ := 10

/-- `canReplaceByFee(tx, oldTx, minFee)`: whether the fee rate of `tx` is at least
`FEE_MULTIPLIER` times that of `oldTx`; when not, the least fee `tx` would need
(`INT64_MAX` if it does not fit). The source leaves `minFee` unset on success; the
model returns `0` there. -/
def canReplaceByFee (tx oldTx : TransactionFrame) : Except Failure (Bool × ℤ) := do
  let newFee := tx.feeBid
  let newNumOps := max 1 tx.numOperations
  let oldFee := oldTx.feeBid
  let oldNumOps := max 1 oldTx.numOperations
  -- newFee / newNumOps >= FEE_MULTIPLIER * oldFee / oldNumOps, cross-multiplied
  let v1 ← liftNumeric (Numeric.bigMultiply newFee oldNumOps)
  let v2 ← liftNumeric (Numeric.bigMultiply oldFee newNumOps)
  let minFeeN := v2 * FEE_MULTIPLIER
  if v1 ≥ minFeeN then
    pure (true, 0)
  else do
    let minFee ← liftNumeric (Numeric.bigDivide128 minFeeN oldNumOps .ROUND_UP)
    pure (false, minFee.getD Numeric.INT64_MAX)

namespace TransactionQueue

/-- A queue with no transactions, no bans and an empty limiter. -/
def empty : TransactionQueue := ⟨fun _ => none, [], TxQueueLimiter.empty⟩

/-- `isBanned(hash)`. -/
def isBanned (q : TransactionQueue) (h : Hash) : Bool := h ∈ q.mBannedTransactions

/-- Overwrites (or erases, with `none`) the state of one account. -/
def setAccountState (q : TransactionQueue) (a : AccountID) (st : Option AccountState) :
    TransactionQueue :=
  { q with mAccountStates := Function.update q.mAccountStates a st }

@[simp] theorem setAccountState_mTxQueueLimiter (q : TransactionQueue) (a : AccountID)
    (st : Option AccountState) : (q.setAccountState a st).mTxQueueLimiter = q.mTxQueueLimiter :=
  rfl

/-- Replaces the limiter. -/
def setLimiter (q : TransactionQueue) (lim : TxQueueLimiter) : TransactionQueue :=
  { q with mTxQueueLimiter := lim }

@[simp] theorem setLimiter_mAccountStates (q : TransactionQueue) (lim : TxQueueLimiter) :
    (q.setLimiter lim).mAccountStates = q.mAccountStates :=
  rfl

/-- `mAccountStates[a]`: the state of `a`, created empty if absent. -/
def accountState (q : TransactionQueue) (a : AccountID) : AccountState :=
  (q.mAccountStates a).getD ⟨0, []⟩

/-! ### Dropping and banning -/

/-- `releaseFeeMaybeEraseAccountState(tx)`: the fee source of `tx` stops owing its
fee, and its state goes once it owes nothing and has no transactions. -/
def releaseFeeMaybeEraseAccountState (q : TransactionQueue) (tx : TransactionFrame) :
    Except Failure TransactionQueue :=
  match q.mAccountStates tx.feeSourceID with
  | some st =>
    if st.mTotalFees ≥ tx.feeBid then
      let st := { st with mTotalFees := st.mTotalFees - tx.feeBid }
      if st.mTransactions = [] ∧ st.mTotalFees = 0 then
        pure (q.setAccountState tx.feeSourceID none)
      else
        pure (q.setAccountState tx.feeSourceID (some st))
    else
      throw (.abort "iter != mAccountStates.end() && iter->second.mTotalFees >= tx->getFeeBid()")
  | none =>
    throw (.abort "iter != mAccountStates.end() && iter->second.mTotalFees >= tx->getFeeBid()")

/-- `prepareDropTransaction(as, tstx)`: takes `tx` out of the limiter and releases
its fee; the caller removes it from its account's list. -/
def prepareDropTransaction (q : TransactionQueue) (tx : TransactionFrame) :
    Except Failure TransactionQueue := do
  let lim ← q.mTxQueueLimiter.removeTransaction tx
  (q.setLimiter lim).releaseFeeMaybeEraseAccountState tx

/-- `dropTransactions(stateIter, begin, end)`: drops the transactions of account `a`
from position `start` to the end. -/
def dropTransactions (q : TransactionQueue) (a : AccountID) (start : ℕ) :
    Except Failure TransactionQueue := do
  let q ← ((q.accountState a).mTransactions.drop start).foldlM prepareDropTransaction q
  -- the account keeps its transactions before `start` until here, so it still exists
  let st := q.accountState a
  let st := { st with mTransactions := st.mTransactions.take start }
  if st.mTransactions = [] ∧ st.mTotalFees = 0 then
    pure (q.setAccountState a none)
  else
    pure (q.setAccountState a (some st))

/-- The part of `ban(banTxs)` for one source account `a`, given the banned
transactions of `a`: the banned transaction with the lowest sequence number that is
queued, and every transaction after it, are banned and dropped. -/
def banAccount (q : TransactionQueue) (a : AccountID) (txs : List TransactionFrame) :
    Except Failure TransactionQueue :=
  match q.mAccountStates a with
  | none => pure q
  | some st =>
    let transactions := st.mTransactions
    if transactions = [] then
      pure q
    else
      let txIter := txs.foldl (fun txIter tx =>
        match txIter with
        | none => findTx tx transactions txIter
        | some it =>
          if tx.seqNum < transactions[it].seqNum then findTx tx transactions txIter else txIter)
        none
      let start := match txIter with
        | some it => it.val
        | none => transactions.length
      let q := { q with
        mBannedTransactions := q.mBannedTransactions ++ (transactions.drop start).map TransactionFrame.fullHash }
      q.dropTransactions a start

/-- `ban(banTxs)`: bans the hashes, then each source account in increasing order
(`std::map`) drops the banned transactions it holds and everything after them. -/
def ban (q : TransactionQueue) (banTxs : List TransactionFrame) : Except Failure TransactionQueue :=
  let q := { q with mBannedTransactions := q.mBannedTransactions ++ banTxs.map TransactionFrame.fullHash }
  let accounts := ((banTxs.map TransactionFrame.sourceID).dedup).insertionSort (· ≤ ·)
  accounts.foldlM (fun q a => q.banAccount a (banTxs.filter (·.sourceID = a))) q

/-! ### Admission -/

/-- What the source account's queue says about `tx`: an early result, or the fee to
check against the fee source's balance (`netFee`), the sequence number `checkValid`
runs against, and the transaction that `tx` replaces by fee (`oldTxIter`: its
position and the transaction there). -/
inductive AccountCheck
  | reject (result : AddResult) (txResult : TxResult)
  | pass (netFee seqNum : ℤ) (oldTxIter : Option (ℕ × TransactionFrame))
deriving DecidableEq, Repr

/-- The part of `canAdd` that reads the source account's queue (the block under
`stateIter != mAccountStates.end()`). -/
def checkSourceAccount (q : TransactionQueue) (tx : TransactionFrame) : Except Failure AccountCheck :=
  match q.mAccountStates tx.sourceID with
  | none => pure (.pass tx.feeBid 0 none)
  | some st =>
    let transactions := st.mTransactions
    match transactions.getLast? with
    | none => pure (.pass tx.feeBid 0 none)
    | some last =>
      if tx.envelopeType ≠ .ENVELOPE_TYPE_TX_FEE_BUMP then
        let duplicate := match findBySeq tx.seqNum tx.minSeqNum transactions with
          | (true, some i) => isDuplicateTx transactions[i] tx
          | _ => false
        if duplicate then
          pure (.reject .ADD_STATUS_DUPLICATE .unset)
        -- only the first transaction of an account may carry these conditions
        else if tx.minSeqAge ≠ 0 ∨ tx.minSeqLedgerGap ≠ 0 then
          pure (.reject .ADD_STATUS_TRY_AGAIN_LATER .unset)
        else
          pure (.pass tx.feeBid last.seqNum none)
      else
        match findBySeq tx.seqNum tx.minSeqNum transactions with
        | (false, _) => pure (.reject .ADD_STATUS_ERROR .txBAD_SEQ)
        | (true, none) =>
          -- a new transaction after the last one: `oldTxIter` is `end`, not `begin`
          if tx.minSeqAge ≠ 0 ∨ tx.minSeqLedgerGap ≠ 0 then
            pure (.reject .ADD_STATUS_TRY_AGAIN_LATER .unset)
          else
            pure (.pass tx.feeBid last.seqNum none)
        | (true, some i) =>
          -- replace-by-fee
          let oldTx := transactions[i]
          if isDuplicateTx oldTx tx then
            pure (.reject .ADD_STATUS_DUPLICATE .unset)
          else do
            let (canReplace, minFee) ← canReplaceByFee tx oldTx
            if !canReplace then
              pure (.reject .ADD_STATUS_ERROR (.txINSUFFICIENT_FEE minFee))
            else
              let netFee :=
                if oldTx.feeSourceID = tx.feeSourceID then tx.feeBid - oldTx.feeBid else tx.feeBid
              if i.val ≠ 0 ∧ (tx.minSeqAge ≠ 0 ∨ tx.minSeqLedgerGap ≠ 0) then
                pure (.reject .ADD_STATUS_TRY_AGAIN_LATER .unset)
              else
                -- the sequence number of the transaction before `oldTx`, `0` if none
                let seqNum := match (transactions.take i.val).getLast? with
                  | some prev => prev.seqNum
                  | none => 0
                pure (.pass netFee seqNum (some (i.val, oldTx)))

/-- The outputs of `canAdd(tx, stateIter, oldTxIter, txsToEvict)`: the result, what
it wrote into `tx`'s result, and, for `ADD_STATUS_PENDING`, the transaction to
replace and the transactions to evict. -/
structure CanAddResult where
  result : AddResult
  txResult : TxResult
  oldTxIter : Option (ℕ × TransactionFrame)
  txsToEvict : List TransactionFrame
deriving DecidableEq, Repr

/-- `canAdd(tx, stateIter, oldTxIter, txsToEvict)`. A transaction the limiter turns
down is banned. -/
def canAdd (q : TransactionQueue) (ctx : QueueContext) (tx : TransactionFrame) :
    Except Failure (CanAddResult × TransactionQueue) :=
  if q.isBanned tx.fullHash then
    pure (⟨.ADD_STATUS_TRY_AGAIN_LATER, .unset, none, []⟩, q)
  else if ctx.isFiltered tx then
    pure (⟨.ADD_STATUS_FILTERED, .unset, none, []⟩, q)
  else do
    match ← q.checkSourceAccount tx with
    | .reject result txResult => pure (⟨result, txResult, none, []⟩, q)
    | .pass netFee seqNum oldTxIter =>
      let ((canAddRes, minFee), txsToEvict, lim) ←
        q.mTxQueueLimiter.canAddTx ctx.maxQueueSizeOps tx (oldTxIter.map Prod.snd)
      let q := q.setLimiter lim
      if !canAddRes then do
        let q ← q.ban [tx]
        if minFee ≠ 0 then
          pure (⟨.ADD_STATUS_ERROR, .txINSUFFICIENT_FEE minFee, none, []⟩, q)
        else
          pure (⟨.ADD_STATUS_TRY_AGAIN_LATER, .unset, none, []⟩, q)
      else if !ctx.checkValid tx seqNum then
        pure (⟨.ADD_STATUS_ERROR, .unset, none, []⟩, q)
      else
        let totalFees := match q.mAccountStates tx.feeSourceID with
          | some st => st.mTotalFees
          | none => 0
        if ctx.availableBalance tx.feeSourceID - netFee < totalFees then
          pure (⟨.ADD_STATUS_ERROR, .txINSUFFICIENT_BALANCE, none, []⟩, q)
        else
          pure (⟨.ADD_STATUS_PENDING, .unset, oldTxIter, txsToEvict⟩, q)

/-- The loop of `TxQueueLimiter::evictTransactions(txsToEvict, opsToFit, evict)`
with the callback of `tryAdd`, which bans each evicted transaction: it stops as soon
as `opsToFit` more operations fit under `maxOps`. -/
def evictLoop (maxOps opsToFit : ℕ) :
    List TransactionFrame → TransactionQueue → Except Failure TransactionQueue
  | [], q => pure q
  | tx :: rest, q => do
    let q := q.setLimiter { q.mTxQueueLimiter with mEvictedFeeBid := (tx.feeBid, tx.numOperations) }
    let q ← q.ban [tx]
    if q.mTxQueueLimiter.mTxs.sizeOps + opsToFit ≤ maxOps then
      pure q
    else
      evictLoop maxOps opsToFit rest q

/-- `TxQueueLimiter::evictTransactions(txsToEvict, opsToFit, evict)`, with `tryAdd`'s
callback: evicts, then asserts that `opsToFit` operations fit. -/
def evictTransactions (q : TransactionQueue) (maxOps : ℕ) (txsToEvict : List TransactionFrame)
    (opsToFit : ℕ) : Except Failure TransactionQueue := do
  let q ← evictLoop maxOps opsToFit txsToEvict q
  releaseAssert (q.mTxQueueLimiter.mTxs.sizeOps + opsToFit ≤ maxOps)
    "mTxs->sizeOps() + opsToFit <= maxOps"
  pure q

/-- Puts `tx` into its source account's queue: in place of the transaction at
`oldTxIter`, dropped first, or at the end. -/
def putTransaction (q : TransactionQueue) (tx : TransactionFrame)
    (oldTxIter : Option (ℕ × TransactionFrame)) : Except Failure TransactionQueue :=
  match oldTxIter with
  | some (i, oldTx) => do
    let q ← q.prepareDropTransaction oldTx
    let st := q.accountState tx.sourceID
    pure (q.setAccountState tx.sourceID (some { st with mTransactions := st.mTransactions.set i tx }))
  | none =>
    let st := q.accountState tx.sourceID
    pure (q.setAccountState tx.sourceID (some { st with mTransactions := st.mTransactions ++ [tx] }))

/-- `tryAdd(tx, submittedFromSelf)`. -/
def tryAdd (q : TransactionQueue) (ctx : QueueContext) (tx : TransactionFrame) :
    Except Failure (AddResult × TransactionQueue) := do
  let (res, q) ← q.canAdd ctx tx
  if res.result ≠ .ADD_STATUS_PENDING then
    pure (res.result, q)
  else do
    let q ← q.putTransaction tx res.oldTxIter
    let feeSource := q.accountState tx.feeSourceID
    let q := q.setAccountState tx.feeSourceID
      (some { feeSource with mTotalFees := feeSource.mTotalFees + tx.feeBid })
    -- make space so that we can add this transaction
    let q ← q.evictTransactions ctx.maxQueueSizeOps res.txsToEvict tx.numOperations
    let lim ← q.mTxQueueLimiter.addTransaction tx
    pure (res.result, q.setLimiter lim)

end TransactionQueue

/-- The transaction queue under `tryAdd`, in a fixed ledger context: a step submits
one transaction and ends in the state `tryAdd` returns. -/
def queueSystem (ctx : QueueContext) : System TransactionQueue TransactionFrame where
  init := TransactionQueue.empty
  step q tx q' := ∃ r, q.tryAdd ctx tx = .ok (r, q')

/-! ### Replace-by-fee with a different operation count

`canAdd` checks a fee bump that replaces `oldTx` for sequence number, duplicates and
fee rate, never for its operation count, and hands it to `canAddTx` with `oldTx`.
There a bump with fewer operations than `oldTx` trips `releaseAssert(oldTxOps <=
newTxOps)`. A bump with more operations is charged `ops(oldTx)` by
`canFitWithEviction` (`TxQueueLimiter.canAddTx_replacement_without_eviction`), while
`tryAdd` then asserts that all of `ops(tx)` fits after dropping `oldTx`.
`tryAdd_aborts_of_fewer_ops` and `tryAdd_aborts_of_more_ops` state the two aborts for
every queue; `replaceByFee_aborts` reaches both from the empty queue. -/

namespace TransactionQueue

variable {q : TransactionQueue} {ctx : QueueContext} {tx oldTx : TransactionFrame}

/-- Once the source account's queue routes a fee bump to the replacement of a
transaction with more operations, `tryAdd` aborts, whatever the ledger and the limit:
only the fee of the last eviction is checked before the assertion. -/
theorem tryAdd_aborts_of_fewer_ops {netFee seqNum m : ℤ} {i : ℕ}
    (hban : q.isBanned tx.fullHash = false) (hfilt : ctx.isFiltered tx = false)
    (hcheck : q.checkSourceAccount tx = .ok (.pass netFee seqNum (some (i, oldTx))))
    (hfee : TxQueueLimiter.computeBetterFee q.mTxQueueLimiter.mEvictedFeeBid tx = .ok m)
    (hm : m ≤ 0) (hops : tx.numOperations < oldTx.numOperations) :
    q.tryAdd ctx tx = .error (.abort "oldTxOps <= newTxOps") := by
  have hlim : q.mTxQueueLimiter.canAddTx ctx.maxQueueSizeOps tx (some oldTx) =
      .error (.abort "oldTxOps <= newTxOps") :=
    TxQueueLimiter.canAddTx_abort_of_fewer_ops hfee hm hops
  simp only [tryAdd, canAdd, hban, hfilt, hcheck, Bool.false_eq_true, if_false, Except.ok_bind,
    Option.map_some, hlim]
  rfl

/-- Releasing the fee of a queued transaction whose fee source owes at least that fee
returns, and leaves the limiter alone. -/
theorem releaseFeeMaybeEraseAccountState_ok {st : AccountState}
    (hsrc : q.mAccountStates oldTx.feeSourceID = some st) (hfees : oldTx.feeBid ≤ st.mTotalFees) :
    ∃ q', q.releaseFeeMaybeEraseAccountState oldTx = .ok q' ∧
      q'.mTxQueueLimiter = q.mTxQueueLimiter := by
  unfold releaseFeeMaybeEraseAccountState
  rw [hsrc]
  simp only [ge_iff_le, if_pos hfees]
  split <;> exact ⟨_, rfl, rfl⟩

/-- `putTransaction` of a replacement takes `oldTx` out of the limiter and puts nothing in
its place there: `tryAdd` adds `tx` to the limiter only after the evictions. -/
theorem putTransaction_replace (tx : TransactionFrame) (i : ℕ) {st : AccountState}
    (hqueued : oldTx ∈ q.mTxQueueLimiter.mTxs.mTxStackSet)
    (hsrc : q.mAccountStates oldTx.feeSourceID = some st) (hfees : oldTx.feeBid ≤ st.mTotalFees) :
    ∃ q', q.putTransaction tx (some (i, oldTx)) = .ok q' ∧
      q'.mTxQueueLimiter.mTxs = q.mTxQueueLimiter.mTxs.erase oldTx := by
  obtain ⟨q', hrel, hlim⟩ := releaseFeeMaybeEraseAccountState_ok
    (q := q.setLimiter ⟨q.mTxQueueLimiter.mTxs.erase oldTx, q.mTxQueueLimiter.mEvictedFeeBid⟩)
    hsrc hfees
  refine ⟨q'.setAccountState tx.sourceID (some { q'.accountState tx.sourceID with
    mTransactions := (q'.accountState tx.sourceID).mTransactions.set i tx }), ?_, ?_⟩
  · simp only [putTransaction, prepareDropTransaction, TxQueueLimiter.removeTransaction,
      if_pos hqueued, pure_bind, Except.ok_bind, hrel]
    rfl
  · rw [setAccountState_mTxQueueLimiter, hlim]
    rfl

/-- `canAdd` lets a replacement through once the limiter accepts it with nothing to
evict and the ledger checks pass; the limiter comes back from `canAddTx`. -/
theorem canAdd_replacement {netFee seqNum fee : ℤ} {i : ℕ} {lim : TxQueueLimiter}
    (hban : q.isBanned tx.fullHash = false) (hfilt : ctx.isFiltered tx = false)
    (hcheck : q.checkSourceAccount tx = .ok (.pass netFee seqNum (some (i, oldTx))))
    (hlim : q.mTxQueueLimiter.canAddTx ctx.maxQueueSizeOps tx (some oldTx) =
      .ok ((true, fee), [], lim))
    (hvalid : ctx.checkValid tx seqNum = true)
    (hbal : ((q.mAccountStates tx.feeSourceID).elim 0 AccountState.mTotalFees) ≤
      ctx.availableBalance tx.feeSourceID - netFee) :
    q.canAdd ctx tx = .ok (⟨.ADD_STATUS_PENDING, .unset, some (i, oldTx), []⟩, q.setLimiter lim) := by
  have hbal' : ¬ ctx.availableBalance tx.feeSourceID - netFee <
      (match (q.setLimiter lim).mAccountStates tx.feeSourceID with
        | some st => st.mTotalFees
        | none => 0) := by
    rw [setLimiter_mAccountStates]
    cases h : q.mAccountStates tx.feeSourceID <;> simp only [h, Option.elim] at hbal ⊢ <;> omega
  simp only [canAdd, hban, hfilt, hcheck, Bool.false_eq_true, if_false, Except.ok_bind,
    Option.map_some, hlim, Bool.not_true, hvalid, if_neg hbal']
  rfl

/-- With nothing to evict, `evictTransactions` only asserts that `opsToFit` operations
fit. -/
theorem evictTransactions_nil_abort {maxOps opsToFit : ℕ}
    (h : ¬ q.mTxQueueLimiter.mTxs.sizeOps + opsToFit ≤ maxOps) :
    q.evictTransactions maxOps [] opsToFit =
      .error (.abort "mTxs->sizeOps() + opsToFit <= maxOps") := by
  simp only [evictTransactions, evictLoop, pure_bind, releaseAssert_bind, if_neg h]

/-- **A replacement with more operations aborts in `evictTransactions`.** Once the limiter
charges the replacement `ops(oldTx)` and finds room with nothing to evict
(`TxQueueLimiter.canAddTx_replacement_without_eviction`), and the ledger checks pass,
`canAdd` answers `ADD_STATUS_PENDING`. `tryAdd` then drops `oldTx` and asserts that all of
`ops(tx)` fits, which fails as soon as `sizeOps - ops(oldTx) + ops(tx)` exceeds the
limit. -/
theorem tryAdd_aborts_of_more_ops {netFee seqNum m : ℤ} {i : ℕ} {st : AccountState}
    (hban : q.isBanned tx.fullHash = false) (hfilt : ctx.isFiltered tx = false)
    (hcheck : q.checkSourceAccount tx = .ok (.pass netFee seqNum (some (i, oldTx))))
    (hfee : TxQueueLimiter.computeBetterFee q.mTxQueueLimiter.mEvictedFeeBid tx = .ok m)
    (hm : m ≤ 0) (hops : oldTx.numOperations ≤ tx.numOperations)
    (hfit : q.mTxQueueLimiter.mTxs.sizeOps + oldTx.numOperations ≤ ctx.maxQueueSizeOps)
    (hvalid : ctx.checkValid tx seqNum = true)
    (hbal : ((q.mAccountStates tx.feeSourceID).elim 0 AccountState.mTotalFees) ≤
      ctx.availableBalance tx.feeSourceID - netFee)
    (hqueued : oldTx ∈ q.mTxQueueLimiter.mTxs.mTxStackSet)
    (hsrc : q.mAccountStates oldTx.feeSourceID = some st) (hfees : oldTx.feeBid ≤ st.mTotalFees)
    (hover : ctx.maxQueueSizeOps + oldTx.numOperations <
      q.mTxQueueLimiter.mTxs.sizeOps + tx.numOperations) :
    ((q.canAdd ctx tx).map fun r => r.1.result) = .ok .ADD_STATUS_PENDING ∧
      q.tryAdd ctx tx = .error (.abort "mTxs->sizeOps() + opsToFit <= maxOps") := by
  obtain ⟨fee, hlim⟩ :=
    (TxQueueLimiter.canAddTx_replacement_without_eviction hfee hm hops).mpr hfit
  have hcan := canAdd_replacement hban hfilt hcheck hlim hvalid hbal
  refine ⟨by rw [hcan]; rfl, ?_⟩
  obtain ⟨q', hput, hmTxs⟩ := putTransaction_replace tx i
    (q := q.setLimiter { q.mTxQueueLimiter with
      mTxs := q.mTxQueueLimiter.mTxs.updateOpsLimit ctx.maxQueueSizeOps }) hqueued hsrc hfees
  -- after `oldTx` is dropped the queue holds `sizeOps - ops(oldTx)` operations
  have hsize : oldTx.numOperations + q'.mTxQueueLimiter.mTxs.sizeOps =
      q.mTxQueueLimiter.mTxs.sizeOps := by
    rw [hmTxs]
    exact SurgePricingPriorityQueue.sizeOps_erase hqueued
  have hnot : ¬ q'.mTxQueueLimiter.mTxs.sizeOps + tx.numOperations ≤ ctx.maxQueueSizeOps := by
    omega
  simp only [tryAdd, hcan, Except.ok_bind, ne_eq, not_true_eq_false, if_false, hput]
  -- crediting the fee source leaves the limiter as `putTransaction` left it
  rw [evictTransactions_nil_abort (q := q'.setAccountState _ _) hnot]
  rfl

end TransactionQueue

/-- A ledger in which every transaction below is valid, every account has `1000000`
available, and the queue may hold `maxQueueSizeOps` operations. -/
def rbfLedger (maxQueueSizeOps : ℕ) : QueueContext :=
  ⟨maxQueueSizeOps, fun _ => false, fun _ _ => true, fun _ => 1000000⟩

/-- A transaction of account `7` with sequence number `8`, `ops` operations and a fee
of `100` per operation. -/
def queuedTx (ops : ℕ) : TransactionFrame :=
  ⟨.ENVELOPE_TYPE_TX, 1, 1, 7, 7, 8, none, 0, 0, ops, 100 * ops⟩

/-- A fee bump paid by account `9` with fee `10000`, for another transaction of
account `7` with sequence number `8`; `ops` counts the inner operations and the bump. -/
def feeBumpTx (ops : ℕ) : TransactionFrame :=
  ⟨.ENVELOPE_TYPE_TX_FEE_BUMP, 2, 3, 7, 9, 8, none, 0, 0, ops, 10000⟩

/-- **Replace-by-fee crashes the node.** Once account `7` has queued a transaction
with three operations, a fee bump of its sequence number with two operations aborts in
`canAddTx`. Once it has queued one with one operation under a limit of two, a fee bump
with three operations passes every check of `canAdd` and aborts in
`evictTransactions`. -/
theorem replaceByFee_aborts :
    (∃ q, (queueSystem (rbfLedger 100)).Reachable q ∧
      q.tryAdd (rbfLedger 100) (feeBumpTx 2) = .error (.abort "oldTxOps <= newTxOps")) ∧
    (∃ q, (queueSystem (rbfLedger 2)).Reachable q ∧
      ((q.canAdd (rbfLedger 2) (feeBumpTx 3)).map fun r => r.1.result) = .ok .ADD_STATUS_PENDING ∧
      q.tryAdd (rbfLedger 2) (feeBumpTx 3) =
        .error (.abort "mTxs->sizeOps() + opsToFit <= maxOps")) := by
  refine ⟨⟨_, System.Reachable.step (a := queuedTx 3) System.Reachable.init
      ⟨.ADD_STATUS_PENDING, rfl⟩, ?_⟩,
    ⟨_, System.Reachable.step (a := queuedTx 1) System.Reachable.init
      ⟨.ADD_STATUS_PENDING, rfl⟩, ?_⟩⟩
  · -- two operations replace three
    exact TransactionQueue.tryAdd_aborts_of_fewer_ops rfl rfl rfl rfl le_rfl (by decide)
  · -- one operation queued under a limit of two: the bump is charged one, and needs three
    exact TransactionQueue.tryAdd_aborts_of_more_ops rfl rfl rfl rfl le_rfl (by decide) (by decide)
      rfl (by decide) (by decide) rfl (by decide) (by decide)

end Herder

end HcnetCore
