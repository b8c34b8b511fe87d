import Mathlib.Data.Finset.Basic
import HcnetCore.Bucket.ListGeometry

/-!
# The spill schedule of `BucketList::addBatch`

An abstract model of how batches move through the bucket list. A bucket is seen as
the set of ledgers whose batches it holds, and a merge as the union of its inputs.
Merges run in the background in the source (`FutureBucket`): `prepare` starts one
into `mNextCurr`, and `commit` makes its result the level's `curr` at the level's
next spill. The control of `addBatch` is the source's, with its spill test
`levelShouldSpill` and `shouldMergeWithEmptyCurr` from `Bucket.ListGeometry`.

The shadow buckets, which merges ignore from protocol 12 on, are not modelled; the
assertions on the size of their list hold for every number of levels. Resolving
finished merges early (`resolveAnyReadyFutures`) changes no bucket's contents and
is left out.
-/

namespace HcnetCore

namespace BucketList

/-- `BucketLevel`: the level's `curr` and `snap`, and the merge in progress that
will become its `curr` (`mNextCurr`, `none` when no merge is running). -/
structure BucketLevel where
  mCurr : Finset ℕ
  mSnap : Finset ℕ
  mNextCurr : Option (Finset ℕ)
deriving DecidableEq

namespace BucketLevel

/-- A level with empty buckets and no merge. -/
def empty : BucketLevel := ⟨∅, ∅, none⟩

/-- `snap()`: `curr` becomes the `snap`, and `curr` starts empty; returns the new
`snap`. -/
def snap (lv : BucketLevel) : BucketLevel × Finset ℕ :=
  ({ lv with mSnap := lv.mCurr, mCurr := ∅ }, lv.mCurr)

/-- `commit()`: the result of the merge in progress, if any, becomes `curr`. -/
def commit (lv : BucketLevel) : BucketLevel :=
  match lv.mNextCurr with
  | some b => { lv with mCurr := b, mNextCurr := none }
  | none => lv

/-- `prepare(app, currLedger, protocol, snap, shadows, countMergeEvents)`: starts
merging `snap` into `curr`, or into an empty bucket when `curr` is about to be
snapshotted (`shouldMergeWithEmptyCurr`). -/
def prepare (lv : BucketLevel) (currLedger : UInt32) (level : ℕ) (snap : Finset ℕ) :
    Except Failure BucketLevel := do
  releaseAssert (lv.mNextCurr = none) "!mNextCurr.isMerging()"
  let mergeWithEmpty ← shouldMergeWithEmptyCurr currLedger level
  let curr := if mergeWithEmpty then ∅ else lv.mCurr
  pure { lv with mNextCurr := some (curr ∪ snap) }

end BucketLevel

/-- The loop of `addBatch` over `i` from `n` down to `1`: when level `i - 1` spills
at `currLedger`, it snaps, and level `i` commits its merge and starts merging that
snap. -/
def spillLevels (currLedger : UInt32) :
    ℕ → (ℕ → BucketLevel) → Except Failure (ℕ → BucketLevel)
  | 0, levels => pure levels
  | i + 1, levels => do
    let spill ← levelShouldSpill currLedger i
    let levels ← if spill then do
        let (lvSnapped, snap) := (levels i).snap
        let lv ← (levels (i + 1)).commit.prepare currLedger (i + 1) snap
        pure (Function.update (Function.update levels i lvSnapped) (i + 1) lv)
      else pure levels
    spillLevels currLedger i levels

/-- `addBatch(app, currLedger, ...)`: the spills, from the deepest level up, then
level `0` merges the new batch into its `curr` at once. -/
def addBatch (levels : ℕ → BucketLevel) (currLedger : UInt32) :
    Except Failure (ℕ → BucketLevel) := do
  releaseAssert (currLedger > 0) "currLedger > 0"
  let levels ← spillLevels currLedger (kNumLevels - 1) levels
  let lv ← (levels 0).prepare currLedger 0 {currLedger.toNat}
  pure (Function.update levels 0 lv.commit)

/-- The levels after `addBatch` for the ledgers `1, ..., n` in turn, from empty
levels. -/
def addBatches : ℕ → Except Failure (ℕ → BucketLevel)
  | 0 => pure fun _ => BucketLevel.empty
  | n + 1 => do
    let levels ← addBatches n
    addBatch levels (UInt32.ofNat (n + 1))

end BucketList

end HcnetCore
