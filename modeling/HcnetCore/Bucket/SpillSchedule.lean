import Mathlib.Order.Interval.Finset.Nat
import Mathlib.Tactic.Ring
import HcnetCore.Arith.FloorMultiple
import HcnetCore.Bucket.AddBatch

/-!
# Where every batch is, in closed form

After ledger `L` closed, the buckets of the list hold the batches of the ledgers
`1, ..., L` in consecutive runs, the newest in level `0`'s `curr`. This module
names the runs. Level `l` spills every `period l = 2 · 4 ^ l` ledgers, and
`lastSpill L l` is its last spill at or before `L`. The run of level `l` ends
`lag l` ledgers before its last spill: the lower levels still hold those ledgers.
For `0 < l < kNumLevels - 1`,

* `curr` holds `[lastSpill L l - lag l, lastSpill L (l - 1) - lag l + period (l - 1) - 1]`;
* `snap` holds the `period l` ledgers just before it;
* the merge in progress (`mNextCurr`) holds `curr` and the `snap` of level `l - 1`,
  or that `snap` alone when the level's own `curr` will be snapshotted first.

Level `0`'s `curr` ends at `L`, and the deepest level's `curr` reaches back to ledger
`1`. Runs that would begin before ledger `1` are cut there (`span`).

`levelsAt L` is this state. `Bucket.AddBatchSpec` proves that `addBatch` for the
ledgers `1, ..., L` builds it. `Bucket.ListGeometrySpec` proves that the static
functions of `BucketList.cpp` give its sizes and oldest ledgers.
-/

namespace HcnetCore

namespace BucketList

open Arith

/-! ### Periods and lags -/

/-- The spill period of level `l`, `levelHalf(l) = 2 · 4 ^ l`. -/
def period (l : ℕ) : ℕ := 2 * 4 ^ l

/-- How far the run of level `l` starts before the level's last spill. The lower
levels hold two periods' worth each. -/
def lag : ℕ → ℕ
  | 0 => 0
  | l + 1 => lag l + 2 * period l

/-- The last spill of level `l` at or before ledger `L` (`0` before the first). -/
def lastSpill (L l : ℕ) : ℕ := L / period l * period l

theorem period_pos (l : ℕ) : 0 < period l :=
  Nat.mul_pos (by decide) (Nat.pow_pos (by decide))

theorem period_succ (l : ℕ) : period (l + 1) = 4 * period l := by
  unfold period
  rw [pow_succ]
  ring

theorem period_eq_two_pow (l : ℕ) : period l = 2 ^ (2 * l + 1) := by
  unfold period
  rw [pow_succ, pow_mul]
  ring

@[simp] theorem lag_zero : lag 0 = 0 := rfl

theorem lag_succ (l : ℕ) : lag (l + 1) = lag l + 2 * period l := rfl

/-- The lower levels hold less than one period of level `l`. -/
theorem lag_lt_period (l : ℕ) : lag l < period l := by
  induction l with
  | zero => exact period_pos 0
  | succ l ih =>
    rw [lag_succ, period_succ]
    omega

theorem period_dvd_succ (l : ℕ) : period l ∣ period (l + 1) :=
  ⟨4, by rw [period_succ, Nat.mul_comm]⟩

theorem period_dvd_of_le {l l' : ℕ} (h : l ≤ l') : period l ∣ period l' := by
  induction h with
  | refl => exact dvd_rfl
  | step _ ih => exact ih.trans (period_dvd_succ _)

/-! ### Last spills -/

theorem lastSpill_le (L l : ℕ) : lastSpill L l ≤ L := Nat.div_mul_le_self L (period l)

/-- Coarser periods have earlier last spills. -/
theorem lastSpill_succ_le (L l : ℕ) : lastSpill L (l + 1) ≤ lastSpill L l :=
  div_mul_le_div_mul_of_dvd (period_pos l) (period_dvd_succ l)

/-- The last spill moves to `L + 1` when the level spills there. -/
theorem lastSpill_succ (L l : ℕ) :
    lastSpill (L + 1) l = if period l ∣ L + 1 then L + 1 else lastSpill L l :=
  div_mul_succ L (period l)

theorem lastSpill_of_dvd {L l : ℕ} (h : period l ∣ L + 1) : lastSpill L l = L + 1 - period l :=
  div_mul_eq_sub_of_dvd_succ h

theorem lastSpill_succ_of_dvd {L l : ℕ} (h : period l ∣ L + 1) : lastSpill (L + 1) l = L + 1 := by
  rw [lastSpill_succ, if_pos h]

theorem lastSpill_succ_of_not_dvd {L l : ℕ} (h : ¬ period l ∣ L + 1) :
    lastSpill (L + 1) l = lastSpill L l := by
  rw [lastSpill_succ, if_neg h]

/-- A level reached by the data has spilled at least once. -/
theorem period_le_lastSpill {L l : ℕ} (h : period l ≤ L) : period l ≤ lastSpill L l := by
  unfold lastSpill
  have : 1 ≤ L / period l := (Nat.le_div_iff_mul_le (period_pos l)).mpr (by omega)
  calc period l = 1 * period l := (one_mul _).symm
    _ ≤ L / period l * period l := Nat.mul_le_mul_right _ this

theorem lastSpill_eq_zero {L l : ℕ} (h : L < period l) : lastSpill L l = 0 := by
  unfold lastSpill
  rw [Nat.div_eq_of_lt h, zero_mul]

/-! ### Runs of ledgers -/

/-- The ledgers `lo, ..., hi` that are at least `1`. -/
def span (lo hi : ℤ) : Finset ℕ := Finset.Icc (max 1 lo).toNat hi.toNat

@[simp] theorem mem_span {lo hi : ℤ} {x : ℕ} : x ∈ span lo hi ↔ 1 ≤ x ∧ lo ≤ x ∧ (x : ℤ) ≤ hi := by
  unfold span
  rw [Finset.mem_Icc]
  omega

theorem card_span (lo hi : ℤ) : (span lo hi).card = (hi - max 1 lo + 1).toNat := by
  unfold span
  rw [Nat.card_Icc]
  omega

/-- Two adjacent runs make one; the first may also be cut away entirely at `1`. -/
theorem span_union {lo mid hi : ℤ} (hlo : lo ≤ mid + 1 ∨ lo ≤ 1) (hhi : mid ≤ hi) :
    span lo mid ∪ span (mid + 1) hi = span lo hi := by
  ext x
  simp only [Finset.mem_union, mem_span]
  omega

theorem span_eq_empty {lo hi : ℤ} (h : hi < 1) : span lo hi = ∅ := by
  ext x
  simp only [mem_span, Finset.notMem_empty, iff_false]
  omega

/-! ### The runs of each level -/

/-- The newest ledger in the `curr` of level `l`. -/
def currHi (L : ℕ) : ℕ → ℤ
  | 0 => L
  | l + 1 => lastSpill L l - lag (l + 1) + period l - 1

/-- The oldest ledger in the `curr` of level `l`, before the cut at `1`. -/
def currLo (L l : ℕ) : ℤ := if l + 1 < kNumLevels then lastSpill L l - lag l else 1

/-- The oldest ledger in the `snap` of level `l`, before the cut at `1`. -/
def snapLo (L l : ℕ) : ℤ := lastSpill L l - lag l - period l

/-- The newest ledger in the `snap` of level `l`. -/
def snapHi (L l : ℕ) : ℤ := lastSpill L l - lag l - 1

/-- The ledgers in the `curr` of level `l`. -/
def currLedgers (L l : ℕ) : Finset ℕ := span (currLo L l) (currHi L l)

/-- The ledgers in the `snap` of level `l`; the deepest level's is empty. -/
def snapLedgers (L l : ℕ) : Finset ℕ :=
  if l + 1 < kNumLevels then span (snapLo L l) (snapHi L l) else ∅

/-- The merge in progress at level `l`: started at the last spill of level `l - 1`,
none before the first. -/
def nextLedgers (L : ℕ) : ℕ → Option (Finset ℕ)
  | 0 => none
  | l + 1 =>
    if L < period l then none
    else if l + 2 < kNumLevels ∧ period (l + 1) ∣ lastSpill L l + period l then
      some (snapLedgers L l)
    else
      some (span (currLo L (l + 1)) (snapHi L l))

/-- The bucket list after ledger `L` closed. -/
def levelsAt (L : ℕ) (l : ℕ) : BucketLevel :=
  if l < kNumLevels then ⟨currLedgers L l, snapLedgers L l, nextLedgers L l⟩
  else BucketLevel.empty

/-- The `snap` of level `l` ends just before its `curr` begins. -/
theorem snapHi_eq (L l : ℕ) (hl : l + 1 < kNumLevels) : snapHi L l = currLo L l - 1 := by
  simp only [snapHi, currLo, if_pos hl]

/-- The `curr` of level `l + 1` ends just before the `snap` of level `l` begins. -/
theorem currHi_succ (L l : ℕ) : currHi L (l + 1) = snapLo L l - 1 := by
  simp only [currHi, snapLo, lag_succ]
  push_cast
  omega

/-- Just before level `l` spills, its `curr` ends `lag l` ledgers before the new one. -/
theorem currHi_of_dvd {L l : ℕ} (h : period l ∣ L + 1) : currHi L l = L - lag l := by
  cases l with
  | zero => simp [currHi]
  | succ l =>
    have hprev : period l ∣ L + 1 := (period_dvd_succ l).trans h
    simp only [currHi, lastSpill_of_dvd hprev, lag_succ]
    have := lastSpill_le L l
    have hle : period l ≤ L + 1 := Nat.le_of_dvd (Nat.succ_pos L) hprev
    push_cast [hle]
    omega

/-! ### From one ledger to the next

When ledger `L + 1` closes, level `l` spills if `period l ∣ L + 1`. The runs of a
level move only when the level it is fed from spills: `levelsAt_succ_of_not_dvd`.
Otherwise its old `curr` is the new `snap` of the level that spilled
(`currLedgers_eq_snapLedgers_succ`), and the merge that was running holds the new
`curr` of the level below (`nextLedgers_eq_currLedgers_succ`). -/

theorem currLo_succ {L l : ℕ} (h : ¬ (l + 1 < kNumLevels ∧ period l ∣ L + 1)) :
    currLo (L + 1) l = currLo L l := by
  unfold currLo
  by_cases hl : l + 1 < kNumLevels
  · rw [if_pos hl, if_pos hl, lastSpill_succ_of_not_dvd (fun hd => h ⟨hl, hd⟩)]
  · rw [if_neg hl, if_neg hl]

theorem snapLedgers_succ {L l : ℕ} (h : ¬ (l + 1 < kNumLevels ∧ period l ∣ L + 1)) :
    snapLedgers (L + 1) l = snapLedgers L l := by
  unfold snapLedgers snapLo snapHi
  by_cases hl : l + 1 < kNumLevels
  · rw [if_pos hl, if_pos hl, lastSpill_succ_of_not_dvd (fun hd => h ⟨hl, hd⟩)]
  · rw [if_neg hl, if_neg hl]

/-- The `curr` of level `l` becomes its `snap` when the level spills. -/
theorem currLedgers_eq_snapLedgers_succ {L l : ℕ} (h : period l ∣ L + 1)
    (hl : l + 1 < kNumLevels) : currLedgers L l = snapLedgers (L + 1) l := by
  have hle : period l ≤ L + 1 := Nat.le_of_dvd (Nat.succ_pos L) h
  unfold currLedgers snapLedgers currLo snapLo snapHi
  rw [if_pos hl, if_pos hl, currHi_of_dvd h, lastSpill_of_dvd h, lastSpill_succ_of_dvd h]
  congr 1 <;> omega

/-- Nothing has reached level `l + 1` before level `l` spilled twice. -/
theorem currLedgers_eq_empty_of_le {L l : ℕ} (h : L ≤ period l) : currLedgers L (l + 1) = ∅ := by
  have hspill : lastSpill L l ≤ period l := (lastSpill_le L l).trans h
  apply span_eq_empty
  simp only [currHi, lag_succ]
  omega

/-- The `curr` of level `l + 1` and the `snap` of level `l` are adjacent runs. -/
theorem currLedgers_union_snapLedgers (L : ℕ) {k : ℕ} (hk : k + 1 < kNumLevels) :
    currLedgers L (k + 1) ∪ snapLedgers L k = span (currLo L (k + 1)) (snapHi L k) := by
  have hlo : currLo L (k + 1) ≤ snapLo L k - 1 + 1 ∨ currLo L (k + 1) ≤ 1 := by
    unfold currLo snapLo
    split
    · have := lastSpill_succ_le L k
      left
      simp only [lag_succ]
      omega
    · exact Or.inr le_rfl
  have hhi : snapLo L k - 1 ≤ snapHi L k := by
    have := period_pos k
    simp only [snapLo, snapHi]
    omega
  unfold currLedgers snapLedgers
  rw [if_pos hk, currHi_succ, ← span_union hlo hhi, sub_add_cancel]

/-- The merge running at level `k + 1` holds what its `curr` holds after the next
spill of level `k`. -/
theorem nextLedgers_eq_currLedgers_succ {L k : ℕ} (h : period k ∣ L + 1) (hL : period k ≤ L)
    (hk : k + 1 < kNumLevels) : nextLedgers L (k + 1) = some (currLedgers (L + 1) (k + 1)) := by
  have hspill : lastSpill L k = L + 1 - period k := lastSpill_of_dvd h
  have hhi : snapHi L k = currHi (L + 1) (k + 1) := by
    simp only [snapHi, currHi, lastSpill_succ_of_dvd h, hspill, lag_succ]
    omega
  rw [nextLedgers, if_neg (Nat.not_lt.mpr hL), hspill, Nat.sub_add_cancel (by omega)]
  split
  · -- level `k + 1` spills too: the merge was the `snap` of level `k` alone
    next hc =>
    have hlo : snapLo L k = currLo (L + 1) (k + 1) := by
      simp only [snapLo, currLo, if_pos hc.1, lastSpill_succ_of_dvd hc.2, hspill, lag_succ]
      omega
    unfold snapLedgers currLedgers
    rw [if_pos hk, hlo, hhi]
  · next hc =>
    unfold currLedgers
    rw [currLo_succ hc, hhi]

/-- The merge level `k + 1` starts when level `k` spills at `L + 1`: the `snap` of
level `k`, after the level's own `curr` unless that is snapshotted first. -/
theorem nextLedgers_succ_of_dvd {L k : ℕ} (h : period k ∣ L + 1) (hk : k + 1 < kNumLevels) :
    nextLedgers (L + 1) (k + 1) =
      some ((if k + 2 < kNumLevels ∧ period (k + 1) ∣ lastSpill (L + 1) k + period k then ∅
        else currLedgers (L + 1) (k + 1)) ∪ snapLedgers (L + 1) k) := by
  have hle : period k ≤ L + 1 := Nat.le_of_dvd (Nat.succ_pos L) h
  rw [nextLedgers, if_neg (Nat.not_lt.mpr hle)]
  split
  · rw [Finset.empty_union]
  · rw [currLedgers_union_snapLedgers _ hk]

/-- A level whose feeding level does not spill keeps its runs. -/
theorem levelsAt_succ_of_not_dvd {L k : ℕ} (h : ¬ period k ∣ L + 1) :
    levelsAt (L + 1) (k + 1) = levelsAt L (k + 1) := by
  have h' : ¬ period (k + 1) ∣ L + 1 := fun hd => h ((period_dvd_succ k).trans hd)
  have hlt : L + 1 < period k ↔ L < period k := by
    constructor
    · omega
    · intro hL
      rcases Nat.lt_or_ge (L + 1) (period k) with hL' | hL'
      · exact hL'
      · exact absurd (show L + 1 = period k by omega ▸ dvd_rfl) h
  have hsnap : snapLedgers (L + 1) k = snapLedgers L k := snapLedgers_succ (fun hc => h hc.2)
  have hsnap' : snapLedgers (L + 1) (k + 1) = snapLedgers L (k + 1) :=
    snapLedgers_succ (fun hc => h' hc.2)
  have hlo : currLo (L + 1) (k + 1) = currLo L (k + 1) := currLo_succ (fun hc => h' hc.2)
  unfold levelsAt currLedgers
  rw [nextLedgers, nextLedgers, hsnap, hsnap', hlo]
  simp only [currHi, snapHi, lastSpill_succ_of_not_dvd h, hlt]

/-- Level `0` takes in the new ledger, after its `curr` moved to its `snap` if it spilled. -/
theorem currLedgers_zero_succ (L : ℕ) :
    currLedgers (L + 1) 0 = (if period 0 ∣ L + 1 then ∅ else currLedgers L 0) ∪ {L + 1} := by
  have hlo : ∀ L', currLo L' 0 = lastSpill L' 0 := fun L' => by simp [currLo, kNumLevels]
  have := lastSpill_le L 0
  unfold currLedgers
  rw [hlo, hlo, currHi, currHi, lastSpill_succ]
  by_cases hd : period 0 ∣ L + 1
  · rw [if_pos hd, if_pos hd]
    ext x
    simp
    omega
  · rw [if_neg hd, if_neg hd]
    ext x
    simp
    omega

/-! ### Sizes

The static functions of `BucketList.cpp` count ledgers: `belowLedgers L l` is what
the levels below `l` hold, and `card_belowLedgers_succ` is the tiling, counted. The
other lemmas give each size in the shape the source computes it. -/

@[simp] theorem period_zero : period 0 = 2 := rfl

/-- Rounding to a finer period first does not change the last spill of a coarser one. -/
theorem lastSpill_lastSpill (n : ℕ) {l l' : ℕ} (h : l ≤ l') :
    lastSpill (lastSpill n l) l' = lastSpill n l' :=
  div_mul_div_mul_of_dvd (period_pos l) (period_dvd_of_le h)

theorem lastSpill_of_dvd_self {L l : ℕ} (h : period l ∣ L) : lastSpill L l = L :=
  Nat.div_mul_cancel h

/-- The ledgers the levels below `l` hold: all after the `curr` of level `l`. -/
def belowLedgers (L l : ℕ) : Finset ℕ := span (currHi L l + 1) L

theorem currHi_le (L l : ℕ) : currHi L l ≤ L := by
  cases l with
  | zero => exact le_rfl
  | succ k =>
    have := lastSpill_le L k
    simp only [currHi, lag_succ]
    omega

/-- A `curr` above the deepest level begins at most one past its end. -/
theorem currLo_le_currHi {L l : ℕ} (hl : l + 1 < kNumLevels) : currLo L l ≤ currHi L l + 1 := by
  unfold currLo
  rw [if_pos hl]
  cases l with
  | zero =>
    have := lastSpill_le L 0
    simp only [currHi, lag_zero]
    omega
  | succ k =>
    have := lastSpill_succ_le L k
    have := period_pos k
    simp only [currHi]
    omega

/-- Every `curr`, the deepest included, begins (after the cut at `1`) at most one past
its end. -/
theorem max_currLo_le (L l : ℕ) : max 1 (currLo L l) ≤ max 1 (currHi L l + 1) := by
  by_cases hl : l + 1 < kNumLevels
  · have := currLo_le_currHi (L := L) hl
    omega
  · simp only [currLo, if_neg hl]
    omega

theorem snapLo_eq (L l : ℕ) : snapLo L l = snapHi L l + 1 - period l := by
  simp only [snapLo, snapHi]
  omega

@[simp] theorem belowLedgers_zero (L : ℕ) : belowLedgers L 0 = ∅ := by
  ext x
  simp only [belowLedgers, currHi, mem_span, Finset.notMem_empty, iff_false]
  omega

theorem card_belowLedgers_le (L l : ℕ) : (belowLedgers L l).card ≤ L := by
  rw [belowLedgers, card_span]
  omega

/-- **The tiling, counted.** Level `l`'s `curr` and `snap` hold what lies between the
levels below it and the level above. -/
theorem card_belowLedgers_succ {L l : ℕ} (hl : l + 1 < kNumLevels) :
    (belowLedgers L (l + 1)).card =
      (belowLedgers L l).card + (currLedgers L l).card + (snapLedgers L l).card := by
  have hhi := currHi_le L l
  have hlo := currLo_le_currHi (L := L) hl
  have hsnap := snapHi_eq L l hl
  have hslo := snapLo_eq L l
  have := period_pos l
  unfold belowLedgers currLedgers snapLedgers
  rw [if_pos hl, currHi_succ, card_span, card_span, card_span, card_span]
  omega

/-- Level `0`'s `curr` holds the last ledger, and the one before if that was odd. -/
theorem card_currLedgers_zero {L : ℕ} (hL : 1 ≤ L) :
    (currLedgers L 0).card = if L = 1 then 1 else 1 + L % 2 := by
  unfold currLedgers currLo currHi
  rw [if_pos (by decide), card_span]
  simp only [lastSpill, period_zero, lag_zero]
  split <;> omega

/-- Right at its spill, a level's `curr` holds one period of the level above. -/
theorem card_currLedgers_of_dvd {L l : ℕ} (h0 : 0 < l) (hl : l + 1 < kNumLevels)
    (h : period l ∣ L) (hL : 1 ≤ L) : (currLedgers L l).card = period (l - 1) := by
  obtain ⟨k, rfl⟩ : ∃ k, l = k + 1 := ⟨l - 1, by omega⟩
  have hk : period k ∣ L := (period_dvd_succ k).trans h
  have hp : period (k + 1) ≤ L := Nat.le_of_dvd hL h
  have := lag_lt_period (k + 1)
  unfold currLedgers currLo
  rw [if_pos hl, card_span, currHi, lastSpill_of_dvd_self h, lastSpill_of_dvd_self hk,
    Nat.add_sub_cancel]
  omega

/-- Between its spills, a level's `curr` grows by one period of the level above each
time that level spills: its size is the size at the last spill of the level above,
plus that period if the level above spills at `L` itself. -/
theorem card_currLedgers_of_not_dvd {L l : ℕ} (h0 : 0 < l) (hl : l + 1 < kNumLevels)
    (hp : period l ≤ L) (h : ¬ period l ∣ L) :
    (currLedgers L l).card = (currLedgers (lastSpill (L - 1) (l - 1)) l).card +
      if period (l - 1) ∣ L then period (l - 1) else 0 := by
  obtain ⟨k, rfl⟩ : ∃ k, l = k + 1 := ⟨l - 1, by omega⟩
  rw [Nat.add_sub_cancel]
  have := period_pos (k + 1)
  obtain ⟨M, rfl⟩ : ∃ M, L = M + 1 := ⟨L - 1, by omega⟩
  rw [Nat.add_sub_cancel]
  -- the level's own last spill is the same at `M + 1` and at the last spill of level `k`
  have hsame : lastSpill (lastSpill M k) (k + 1) = lastSpill (M + 1) (k + 1) := by
    rw [lastSpill_lastSpill M (Nat.le_succ k), lastSpill_succ_of_not_dvd h]
  have hfine : lastSpill (lastSpill M k) k = lastSpill M k := lastSpill_lastSpill M le_rfl
  have hlag := lag_lt_period (k + 1)
  have hpos : period (k + 1) ≤ lastSpill (M + 1) (k + 1) := period_le_lastSpill hp
  have hle := lastSpill_le (M + 1) (k + 1)
  unfold currLedgers currLo
  rw [if_pos hl, if_pos hl, card_span, card_span, currHi, currHi, hsame, hfine]
  split
  · next hk =>
    rw [lastSpill_succ_of_dvd hk, lastSpill_of_dvd hk]
    have := Nat.le_of_dvd (Nat.succ_pos M) hk
    omega
  · next hk =>
    rw [lastSpill_succ_of_not_dvd hk]
    omega

/-- Before its first spill, and always for the deepest level, a level's `curr` holds
everything the levels below it do not. -/
theorem card_currLedgers_of_first {L l : ℕ} (h : l + 1 = kNumLevels ∨ L < period l) :
    (currLedgers L l).card = L - (belowLedgers L l).card := by
  have hhi := currHi_le L l
  have hlo : max 1 (currLo L l) = 1 := by
    unfold currLo
    split
    · next hl =>
      have := lastSpill_eq_zero (h.resolve_left (by omega))
      omega
    · rfl
  unfold currLedgers belowLedgers
  rw [card_span, card_span, hlo]
  omega

/-- From its second spill on, a level's `snap` holds one period. -/
theorem card_snapLedgers_of_le {L l : ℕ} (hl : l + 1 < kNumLevels) (h : 2 * period l ≤ L) :
    (snapLedgers L l).card = period l := by
  have h2 : 2 * period l ≤ lastSpill L l := by
    have : 2 ≤ L / period l := (Nat.le_div_iff_mul_le (period_pos l)).mpr h
    exact Nat.mul_le_mul_right _ this
  have := lag_lt_period l
  unfold snapLedgers snapLo snapHi
  rw [if_pos hl, card_span]
  omega

/-- Before that, the `snap` holds what neither the levels below nor the `curr` do. -/
theorem card_snapLedgers_of_lt {L l : ℕ} (hl : l + 1 < kNumLevels) (h : L < 2 * period l) :
    (snapLedgers L l).card = L - ((belowLedgers L l).card + (currLedgers L l).card) := by
  have hspill : lastSpill L l ≤ period l := by
    have : L / period l ≤ 1 := Nat.lt_succ_iff.mp ((Nat.div_lt_iff_lt_mul (period_pos l)).mpr
      (by omega))
    exact (Nat.mul_le_mul_right _ this).trans (one_mul _).le
  have hall : (belowLedgers L (l + 1)).card = L := by
    rw [belowLedgers, card_span]
    simp only [currHi, lag_succ]
    omega
  have := card_belowLedgers_succ (L := L) hl
  omega

/-- A nonempty `curr` begins right after what the levels below it and itself hold. -/
theorem card_below_add_card_curr {L l : ℕ} (h : 0 < (currLedgers L l).card) :
    (belowLedgers L l).card + (currLedgers L l).card + (max 1 (currLo L l)).toNat = L + 1 := by
  have hhi := currHi_le L l
  unfold belowLedgers
  unfold currLedgers at *
  simp only [card_span] at *
  omega

/-- A nonempty `snap` begins right after what the levels up to it hold. -/
theorem card_below_succ_of_snap {L l : ℕ} (hl : l + 1 < kNumLevels)
    (h : 0 < (snapLedgers L l).card) :
    (belowLedgers L (l + 1)).card + (max 1 (snapLo L l)).toNat = L + 1 := by
  have hhi := currHi_le L l
  have hlo := currLo_le_currHi (L := L) hl
  have hsnap := snapHi_eq L l hl
  unfold belowLedgers
  unfold snapLedgers at h
  rw [if_pos hl, card_span] at h
  rw [currHi_succ, card_span]
  omega

/-- A run is the interval from its oldest ledger, as long as its size. -/
theorem span_eq_Ico (lo hi : ℤ) :
    span lo hi = Finset.Ico (max 1 lo).toNat ((max 1 lo).toNat + (span lo hi).card) := by
  rw [card_span]
  ext x
  simp only [mem_span, Finset.mem_Ico]
  omega

/-! ### The runs in order

The oldest ledger of a run, cut at `1`, plus its size is the oldest ledger of the
next younger run. -/

/-- The oldest ledger of the `snap` of level `l`; the deepest level's empty `snap`
sits where its `curr` begins. -/
def snapOldest (L l : ℕ) : ℕ :=
  if l + 1 < kNumLevels then (max 1 (snapLo L l)).toNat else (max 1 (currLo L l)).toNat

theorem currLo_add_card (L l : ℕ) :
    (max 1 (currLo L l)).toNat + (currLedgers L l).card = (max 1 (currHi L l + 1)).toNat := by
  have := max_currLo_le L l
  rw [currLedgers, card_span]
  omega

/-- A level's `snap` ends where its `curr` begins. -/
theorem snapOldest_add_card (L l : ℕ) :
    snapOldest L l + (snapLedgers L l).card = (max 1 (currLo L l)).toNat := by
  unfold snapOldest snapLedgers
  split
  · next hl =>
    have := snapHi_eq L l hl
    have := snapLo_eq L l
    have := period_pos l
    rw [card_span]
    omega
  · simp

/-- The `curr` of level `l + 1` ends where the `snap` of level `l` begins. -/
theorem currLo_succ_add_card {L l : ℕ} (hl : l + 1 < kNumLevels) :
    (max 1 (currLo L (l + 1))).toNat + (currLedgers L (l + 1)).card = snapOldest L l := by
  rw [currLo_add_card, currHi_succ, snapOldest, if_pos hl, sub_add_cancel]

theorem currLedgers_eq_Ico (L l : ℕ) :
    currLedgers L l =
      Finset.Ico (max 1 (currLo L l)).toNat ((max 1 (currLo L l)).toNat + (currLedgers L l).card) :=
  span_eq_Ico _ _

theorem snapLedgers_eq_Ico (L l : ℕ) :
    snapLedgers L l = Finset.Ico (snapOldest L l) (snapOldest L l + (snapLedgers L l).card) := by
  unfold snapOldest
  by_cases hl : l + 1 < kNumLevels
  · rw [if_pos hl]
    unfold snapLedgers
    rw [if_pos hl]
    exact span_eq_Ico _ _
  · rw [if_neg hl]
    simp [snapLedgers, hl]

end BucketList

end HcnetCore
