import HcnetCore.Util.GlobalChecks

/-!
# Catchup ranges (`catchup/CatchupRange.cpp`)

A node that falls behind catches up to `toLedger` in one of three ways: it replays
ledgers after its last closed ledger, it applies the buckets of a checkpoint, or it
applies buckets and then replays the ledgers after them. `calculateCatchupRange`
chooses among five cases from the last closed ledger, the target, the number of
ledgers the user asked to replay and the checkpoint arithmetic of `HistoryManager`.

Ledger numbers, counts and the checkpoint frequency are `uint32_t` in the source and
`UInt32` here, so that every sum, difference and product wraps as it does in the
source. The `releaseAssert`s of `LedgerRange`, of `CatchupRange::checkInvariants` and
of `lastLedgerBeforeCheckpointContaining` end the call in `Failure.abort`; the
`std::invalid_argument` and `std::logic_error` exceptions in `Failure.exception`.

`HistoryManager` is reduced to its checkpoint frequency, the one virtual function the
checkpoint arithmetic calls. A `CatchupConfiguration` built from a history archive state
carries the archive state and a header; `calculateCatchupRange` reads neither, and they
are left out.
-/

namespace HcnetCore

namespace Catchup

/-- `LedgerManager::GENESIS_LEDGER_SEQ`. -/
def GENESIS_LEDGER_SEQ : UInt32 := 1

/-- `std::numeric_limits<uint32_t>::max()`. -/
def UINT32_MAX : UInt32 := 4294967295

/-! ### `LedgerRange` -/

/-- `LedgerRange`: the half-open range of `mCount` ledgers from `mFirst`. -/
structure LedgerRange where
  mFirst : UInt32
  mCount : UInt32
deriving DecidableEq, Repr

namespace LedgerRange

/-- The constructor `LedgerRange(first, count)`. -/
def make (first count : UInt32) : Except Failure LedgerRange := do
  releaseAssert (count = 0 ∨ first > 0) "count == 0 || mFirst > 0"
  pure ⟨first, count⟩

/-- `limit()`: `first + count`, the exclusive end of the range. -/
def limit (r : LedgerRange) : UInt32 := r.mFirst + r.mCount

/-- `last()`: `first + count - 1`, the inclusive end of a non-empty range. -/
def last (r : LedgerRange) : Except Failure UInt32 :=
  if r.mCount = 0 then
    throw (.exception "last() cannot be called on LedgerRange when mCount == 0")
  else pure (r.limit - 1)

end LedgerRange

/-! ### `CatchupConfiguration` -/

/-- `CatchupConfiguration::Mode`. -/
inductive Mode
  | OFFLINE_BASIC
  | OFFLINE_COMPLETE
  | ONLINE
  | LOCAL_BUCKETS_ONLY
deriving DecidableEq, Repr

/-- `CatchupConfiguration(toLedger, count, mode)`. -/
structure CatchupConfiguration where
  toLedger : UInt32
  count : UInt32
  mode : Mode
deriving DecidableEq, Repr

namespace CatchupConfiguration

/-- `CatchupConfiguration::CURRENT`: catch up to the latest checkpoint of the archive. -/
def CURRENT : UInt32 := 0

/-- `localBucketsOnly()`. -/
def localBucketsOnly (cfg : CatchupConfiguration) : Bool := cfg.mode = .LOCAL_BUCKETS_ONLY

end CatchupConfiguration

/-! ### Checkpoint arithmetic (`history/HistoryManager.h`) -/

/-- The part of `HistoryManager` that the checkpoint arithmetic reads. -/
structure HistoryManager where
  getCheckpointFrequency : UInt32

namespace HistoryManager

variable (hm : HistoryManager)

/-- `checkpointContainingLedger(ledger)`: the last ledger of the checkpoint of `ledger`,
one before the next multiple of the frequency. -/
def checkpointContainingLedger (ledger : UInt32) : UInt32 :=
  let freq := hm.getCheckpointFrequency
  ((ledger / freq) + 1) * freq - 1

/-- `isLastLedgerInCheckpoint(ledger)`. -/
def isLastLedgerInCheckpoint (ledger : UInt32) : Bool :=
  hm.checkpointContainingLedger ledger = ledger

/-- `sizeOfCheckpointContaining(ledger)`: the first checkpoint is one ledger short. -/
def sizeOfCheckpointContaining (ledger : UInt32) : UInt32 :=
  let freq := hm.getCheckpointFrequency
  if ledger < freq then freq - 1 else freq

/-- `firstLedgerInCheckpointContaining(ledger)`. -/
def firstLedgerInCheckpointContaining (ledger : UInt32) : UInt32 :=
  let last := hm.checkpointContainingLedger ledger
  let size := hm.sizeOfCheckpointContaining ledger
  last - (size - 1)

/-- `lastLedgerBeforeCheckpointContaining(ledger)`: zero inside the first checkpoint. -/
def lastLedgerBeforeCheckpointContaining (ledger : UInt32) : Except Failure UInt32 := do
  let last := hm.checkpointContainingLedger ledger
  let size := hm.sizeOfCheckpointContaining ledger
  releaseAssert (last ≥ size) "last >= size"
  pure (last - size)

end HistoryManager

/-! ### `CatchupRange` -/

/-- `CatchupRange`: whether to apply buckets, at which ledger, and the ledgers to replay
after that. -/
structure CatchupRange where
  mApplyBuckets : Bool
  mApplyBucketsAtLedger : UInt32
  mReplayRange : LedgerRange
deriving DecidableEq, Repr

namespace CatchupRange

variable (r : CatchupRange)

/-- `applyBuckets()`. -/
def applyBuckets : Bool := r.mApplyBuckets

/-- `replayLedgers()`. -/
def replayLedgers : Bool := r.mReplayRange.mCount > 0

/-- `getReplayFirst()`. -/
def getReplayFirst : UInt32 := r.mReplayRange.mFirst

/-- `getReplayCount()`. -/
def getReplayCount : UInt32 := r.mReplayRange.mCount

/-- `getBucketApplyLedger()`. -/
def getBucketApplyLedger : Except Failure UInt32 :=
  if r.mApplyBuckets then pure r.mApplyBucketsAtLedger
  else throw (.exception
    "getBucketApplyLedger() cannot be called on CatchupRange when mApplyBuckets == false")

/-- `count()`: the ledgers replayed, and the one whose buckets are applied. -/
def count : UInt32 := if r.mApplyBuckets then r.mReplayRange.mCount + 1 else r.mReplayRange.mCount

/-- `last()`: the last replayed ledger, else the bucket-apply ledger. -/
def last : Except Failure UInt32 :=
  if r.mReplayRange.mCount ≠ 0 then r.mReplayRange.last
  else do
    releaseAssert (r.mApplyBuckets = true) "mApplyBuckets"
    pure r.mApplyBucketsAtLedger

/-- `getFullRangeIncludingBucketApply()`: the replay range, extended down to the
bucket-apply ledger when buckets are applied. -/
def getFullRangeIncludingBucketApply : Except Failure LedgerRange :=
  if r.mApplyBuckets then LedgerRange.make r.mApplyBucketsAtLedger (r.mReplayRange.mCount + 1)
  else pure r.mReplayRange

/-- `checkInvariants()`: buckets, replay, or both; and the bucket-apply ledger and the
replay fit the case. -/
def checkInvariants : Except Failure Unit := do
  releaseAssert (r.applyBuckets = true ∨ r.replayLedgers = true) "applyBuckets() || replayLedgers()"
  if r.applyBuckets = false ∧ r.replayLedgers = true then
    -- Cases 1, 2 and 4: no buckets, only replay.
    releaseAssert (r.mApplyBucketsAtLedger = 0) "mApplyBucketsAtLedger == 0"
    releaseAssert (r.mReplayRange.mFirst ≠ 0) "mReplayRange.mFirst != 0"
  else if r.applyBuckets = true ∧ r.replayLedgers = true then
    -- Case 5: buckets and replay.
    releaseAssert (r.mApplyBucketsAtLedger ≠ 0) "mApplyBucketsAtLedger != 0"
    releaseAssert (r.mReplayRange.mFirst ≠ 0) "mReplayRange.mFirst != 0"
    releaseAssert (r.mApplyBucketsAtLedger + 1 = r.mReplayRange.mFirst)
      "mApplyBucketsAtLedger + 1 == mReplayRange.mFirst"
  else
    -- Case 3: buckets only, no replay.
    releaseAssert (r.applyBuckets = true ∧ r.replayLedgers = false)
      "applyBuckets() && !replayLedgers()"
    releaseAssert (r.mReplayRange.mFirst = 0) "mReplayRange.mFirst == 0"

end CatchupRange

/-- `CatchupRange(applyBucketsAtLedger)`: apply buckets only. -/
def CatchupRange.ofApplyBuckets (applyBucketsAtLedger : UInt32) : Except Failure CatchupRange := do
  let r : CatchupRange := ⟨true, applyBucketsAtLedger, ← LedgerRange.make 0 0⟩
  r.checkInvariants
  pure r

/-- `CatchupRange(replayRange)`: replay only. -/
def CatchupRange.ofReplayRange (replayRange : LedgerRange) : Except Failure CatchupRange := do
  let r : CatchupRange := ⟨false, 0, replayRange⟩
  r.checkInvariants
  pure r

/-- `CatchupRange(applyBucketsAtLedger, replayRange)`: apply buckets, then replay. -/
def CatchupRange.ofApplyBucketsAndReplay (applyBucketsAtLedger : UInt32)
    (replayRange : LedgerRange) : Except Failure CatchupRange := do
  let r : CatchupRange := ⟨true, applyBucketsAtLedger, replayRange⟩
  r.checkInvariants
  pure r

/-- `checkCatchupPreconditions(lastClosedLedger, configuration)`. -/
def checkCatchupPreconditions (lastClosedLedger : UInt32) (configuration : CatchupConfiguration) :
    Except Failure Unit := do
  if lastClosedLedger < GENESIS_LEDGER_SEQ ∧ configuration.localBucketsOnly = false then
    throw (.exception "lastClosedLedger == 0")
  if configuration.toLedger ≤ lastClosedLedger then
    throw (.exception "configuration.toLedger() <= lastClosedLedger")
  if configuration.toLedger ≤ GENESIS_LEDGER_SEQ then
    throw (.exception "configuration.toLedger() <= LedgerManager::GENESIS_LEDGER_SEQ")
  if configuration.toLedger = CatchupConfiguration.CURRENT then
    throw (.exception "configuration.toLedger() == CatchupConfiguration::CURRENT")

/-- `calculateCatchupRange(lcl, cfg, hm)`: the five cases. -/
def calculateCatchupRange (lcl : UInt32) (cfg : CatchupConfiguration) (hm : HistoryManager) :
    Except Failure CatchupRange := do
  checkCatchupPreconditions lcl cfg
  let init := GENESIS_LEDGER_SEQ
  let fullReplayCount := cfg.toLedger - lcl
  -- Case 1: replay from LCL as we're already past genesis.
  if lcl > init then
    CatchupRange.ofReplayRange (← LedgerRange.make (lcl + 1) fullReplayCount)
  else
    -- All remaining cases have LCL == genesis.
    releaseAssert (lcl = init ∨ cfg.localBucketsOnly = true) "lcl == init || cfg.localBucketsOnly()"
    let fullReplay ← LedgerRange.make (init + 1) fullReplayCount
    -- Case 2: full replay because count >= target - init.
    if cfg.count ≥ fullReplayCount then CatchupRange.ofReplayRange fullReplay
    -- Case 3: buckets only, at the exact end of a checkpoint.
    else if cfg.count = 0 ∧
        (hm.isLastLedgerInCheckpoint cfg.toLedger = true ∨ cfg.localBucketsOnly = true) then
      CatchupRange.ofApplyBuckets cfg.toLedger
    else
      let targetStart := cfg.toLedger - cfg.count + 1
      let firstInCheckpoint := hm.firstLedgerInCheckpointContaining targetStart
      -- Case 4: target is inside first checkpoint, just replay.
      if firstInCheckpoint = init then CatchupRange.ofReplayRange fullReplay
      else
        -- Case 5: apply buckets, then replay.
        let applyBucketsAt ← hm.lastLedgerBeforeCheckpointContaining targetStart
        CatchupRange.ofApplyBucketsAndReplay applyBucketsAt
          (← LedgerRange.make firstInCheckpoint (cfg.toLedger - applyBucketsAt))

/-- `CatchupRange(lastClosedLedger, configuration, historyManager)`. -/
def CatchupRange.ofConfiguration (lastClosedLedger : UInt32) (configuration : CatchupConfiguration)
    (historyManager : HistoryManager) : Except Failure CatchupRange := do
  let r ← calculateCatchupRange lastClosedLedger configuration historyManager
  if configuration.localBucketsOnly = true then
    releaseAssert (r.applyBuckets = true) "applyBuckets()"
  r.checkInvariants
  pure r

end Catchup

end HcnetCore
