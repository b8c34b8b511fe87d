import Mathlib.Algebra.Order.Group.Nat
import HcnetCore.Util.GlobalChecks

/-!
# The geometry of the bucket list (`bucket/BucketList.cpp`)

The bucket list keeps the ledger state in `kNumLevels` levels, each with a `curr`
and a `snap` bucket. Level `l` spills every `levelHalf(l)` ledgers: its `curr`
becomes its `snap`, and the old `snap` is merged into the next level. The static
functions modelled here say, without looking at any bucket, how many ledgers'
worth of batches each bucket holds after ledger `ledger` closed (`sizeOfCurr`,
`sizeOfSnap`), which ledger is the oldest one in it (`oldestLedgerInCurr`,
`oldestLedgerInSnap`), and when a level spills (`levelShouldSpill`,
`shouldMergeWithEmptyCurr`).

Ledger numbers and sizes are `uint32_t` in the source and `UInt32` here, so that a
subtraction that goes below zero wraps as it does in the source. Level numbers stay
below `kNumLevels` and are natural numbers. Every `releaseAssert` is kept, and a
call that trips one ends in `Failure.abort`.

`sizeOfCurr`, `sizeOfSnap` and the loop that sums the sizes of the levels above a
level (`levelsBelow`) call each other. The recursion is well founded: each call goes
to a lower level, to the `curr` of the same level from its `snap`, or to an earlier
ledger of the same level.
-/

namespace HcnetCore

namespace BucketList

/-- `BucketList::kNumLevels`. -/
def kNumLevels : ℕ := 11

/-- `std::numeric_limits<uint32_t>::max()`. -/
def UINT32_MAX : UInt32 := 4294967295

/-- `levelSize(level)`: `4 ^ (level + 1)`, computed as `1UL << (2 * (level + 1))`. -/
def levelSize (level : ℕ) : Except Failure UInt32 := do
  releaseAssert (level < kNumLevels) "level < kNumLevels"
  pure (UInt32.ofNat (1 <<< (2 * (level + 1))))

/-- `levelHalf(level)`: half of `levelSize(level)`. -/
def levelHalf (level : ℕ) : Except Failure UInt32 := do
  let size ← levelSize level
  pure (size >>> 1)

/-- `mask(v, m)`: clears the bits of `v` below those of `m - 1`. -/
def mask (v m : UInt32) : UInt32 := v &&& ~~~(m - 1)

theorem mask_le (v m : UInt32) : mask v m ≤ v := by
  rw [UInt32.le_iff_toNat_le, mask, UInt32.toNat_and]
  exact Nat.and_le_left

/-- `std::max` of two `uint32_t`s is below a common bound. -/
theorem max_le_of_le {a b c : UInt32} (ha : a ≤ c) (hb : b ≤ c) : max a b ≤ c := by
  show (if a ≤ b then b else a) ≤ c
  split <;> assumption

/-- The ledger `sizeOfCurr` recurses to lies before `ledger`. -/
theorem previousRelevantLedger_lt {ledger : UInt32} (h : ledger ≠ 0) (a b c d : UInt32) :
    (max (max (mask (ledger - 1) a) (mask (ledger - 1) b))
      (max (mask (ledger - 1) c) (mask (ledger - 1) d))).toNat < ledger.toNat := by
  have hpos : 0 < ledger.toNat := by
    rw [Nat.pos_iff_ne_zero, Ne, ← UInt32.toNat_zero, UInt32.toNat_inj]
    exact h
  have hsub : (ledger - 1).toNat = ledger.toNat - 1 := by
    rw [UInt32.toNat_sub_of_le _ _ (by rw [UInt32.le_iff_toNat_le]; simp; omega)]
    simp
  -- every mask of `ledger - 1` is at most `ledger - 1`, and so is their maximum
  have hmax : max (max (mask (ledger - 1) a) (mask (ledger - 1) b))
      (max (mask (ledger - 1) c) (mask (ledger - 1) d)) ≤ ledger - 1 :=
    max_le_of_le (max_le_of_le (mask_le _ _) (mask_le _ _))
      (max_le_of_le (mask_le _ _) (mask_le _ _))
  have := UInt32.le_iff_toNat_le.mp hmax
  omega

mutual

/-- `sizeOfCurr(ledger, level)`: the number of ledgers whose batches the `curr`
bucket of `level` holds after `ledger` closed. -/
def sizeOfCurr (ledger : UInt32) (level : ℕ) : Except Failure UInt32 :=
  if _ : ledger ≠ 0 then do
    releaseAssert (level < kNumLevels) "level < kNumLevels"
    if level = 0 then
      pure (if ledger = 1 then 1 else 1 + ledger % 2)
    else do
      let size ← levelSize level
      let half ← levelHalf level
      if level ≠ kNumLevels - 1 ∧ mask ledger half ≠ 0 then
        let sizeDelta : UInt32 := UInt32.ofNat (1 <<< (2 * level - 1))
        if mask ledger half = ledger ∨ mask ledger size = ledger then
          pure sizeDelta
        else do
          let prevSize ← levelSize (level - 1)
          let prevHalf ← levelHalf (level - 1)
          let previousRelevantLedger :=
            max (max (mask (ledger - 1) prevHalf) (mask (ledger - 1) prevSize))
              (max (mask (ledger - 1) half) (mask (ledger - 1) size))
          if mask ledger prevHalf = ledger ∨ mask ledger prevSize = ledger then do
            let s ← sizeOfCurr previousRelevantLedger level
            pure (s + sizeDelta)
          else
            sizeOfCurr previousRelevantLedger level
      else do
        let blsize ← levelsBelow ledger level
        pure (ledger - blsize)
  else
    throw (.abort "ledger != 0")
termination_by (level, 1, ledger.toNat)
decreasing_by
  all_goals first
    | exact Prod.Lex.right _ (Prod.Lex.right _ (previousRelevantLedger_lt (by assumption) _ _ _ _))
    | exact Prod.Lex.right _ (Prod.Lex.left _ _ Nat.zero_lt_one)

/-- `sizeOfSnap(ledger, level)`: the number of ledgers whose batches the `snap`
bucket of `level` holds after `ledger` closed. -/
def sizeOfSnap (ledger : UInt32) (level : ℕ) : Except Failure UInt32 :=
  if ledger ≠ 0 then do
    releaseAssert (level < kNumLevels) "level < kNumLevels"
    if level = kNumLevels - 1 then
      pure 0
    else do
      let size ← levelSize level
      if mask ledger size ≠ 0 then
        levelHalf level
      else do
        let s ← levelsBelow ledger level
        let c ← sizeOfCurr ledger level
        pure (ledger - (s + c))
  else
    throw (.abort "ledger != 0")
termination_by (level, 2, 0)
decreasing_by
  all_goals first
    | exact Prod.Lex.right _ (Prod.Lex.left _ _ Nat.one_lt_two)
    | exact Prod.Lex.right _ (Prod.Lex.left _ _ Nat.zero_lt_two)

/-- The loop `for (l = 0; l < level; l++) { s += sizeOfCurr(ledger, l);
s += sizeOfSnap(ledger, l); }` of `sizeOfCurr` and `sizeOfSnap`. -/
def levelsBelow (ledger : UInt32) : ℕ → Except Failure UInt32
  | 0 => pure 0
  | n + 1 => do
    let s ← levelsBelow ledger n
    let c ← sizeOfCurr ledger n
    let sn ← sizeOfSnap ledger n
    pure (s + c + sn)
termination_by n => (n, 0, 0)
decreasing_by
  all_goals first
    | exact Prod.Lex.left _ _ (Nat.lt_succ_self n)

end

/-- `oldestLedgerInCurr(ledger, level)`: the oldest ledger whose batch the `curr`
bucket of `level` holds, or `UINT32_MAX` when it holds none. -/
def oldestLedgerInCurr (ledger : UInt32) (level : ℕ) : Except Failure UInt32 := do
  releaseAssert (ledger ≠ 0) "ledger != 0"
  releaseAssert (level < kNumLevels) "level < kNumLevels"
  let size ← sizeOfCurr ledger level
  if size = 0 then
    pure UINT32_MAX
  else do
    let count ← (List.range level).foldlM (fun count l => do
      let c ← sizeOfCurr ledger l
      let s ← sizeOfSnap ledger l
      pure (count - c - s)) ledger
    let c ← sizeOfCurr ledger level
    pure (count - c + 1)

/-- `oldestLedgerInSnap(ledger, level)`: the oldest ledger whose batch the `snap`
bucket of `level` holds, or `UINT32_MAX` when it holds none. -/
def oldestLedgerInSnap (ledger : UInt32) (level : ℕ) : Except Failure UInt32 := do
  releaseAssert (ledger ≠ 0) "ledger != 0"
  releaseAssert (level < kNumLevels) "level < kNumLevels"
  let size ← sizeOfSnap ledger level
  if size = 0 then
    pure UINT32_MAX
  else do
    let count ← (List.range (level + 1)).foldlM (fun count l => do
      let c ← sizeOfCurr ledger l
      let s ← sizeOfSnap ledger l
      pure (count - c - s)) ledger
    pure (count + 1)

/-- `levelShouldSpill(ledger, level)`: `ledger` is a multiple of `levelHalf(level)`
(or of `levelSize(level)`), except on the deepest level, which never spills. -/
def levelShouldSpill (ledger : UInt32) (level : ℕ) : Except Failure Bool :=
  if level = kNumLevels - 1 then
    pure false
  else do
    let half ← levelHalf level
    if ledger = mask ledger half then
      pure true
    else do
      let size ← levelSize level
      pure (decide (ledger = mask ledger size))

/-- `shouldMergeWithEmptyCurr(ledger, level)`: whether the merge that `level`
starts at `ledger` leaves its `curr` out, because that `curr` will have been
snapshotted by the time the merge is committed. -/
def shouldMergeWithEmptyCurr (ledger : UInt32) (level : ℕ) : Except Failure Bool :=
  if level ≠ 0 then do
    let prevHalf ← levelHalf (level - 1)
    let mergeStartLedger := mask ledger prevHalf
    let prevHalf ← levelHalf (level - 1)
    let nextChangeLedger := mergeStartLedger + prevHalf
    levelShouldSpill nextChangeLedger level
  else
    pure false

end BucketList

end HcnetCore
