import HcnetCore.Bucket.ListGeometrySpec

/-!
# `addBatch` builds the closed-form bucket list

`addBatches_eq`: for every `L < 2 ^ 32`, running `addBatch` for the ledgers
`1, ..., L` from empty levels ends in `levelsAt L` (`Bucket.SpillSchedule`).

The step `addBatch_levelsAt` goes in two parts. `spillLevels_eq` says once what the
loop of `addBatch` does to each level, given the spill and merge decisions:
the level snaps if it spills, then commits and starts a merge if the level above it
spills. The second part checks, level by level, that this turns the runs at `L` into
the runs at `L + 1`. A level is left alone when the level above does not spill
(`levelsAt_succ_of_not_dvd`). When it does, the level commits the merge that holds
its `curr` and the `snap` above it (`level_succ_of_dvd`). When the level spills as
well, its old `curr` becomes its `snap` and the merge holds the `snap` above alone
(`level_succ_of_dvd_dvd`).
-/

namespace HcnetCore

namespace BucketList

namespace BucketLevel

/-- A level after `prepare`, given its decision to merge into an empty `curr`. -/
def prepared (lv : BucketLevel) (mergeWithEmpty : Bool) (snap : Finset ℕ) : BucketLevel :=
  { lv with mNextCurr := some ((if mergeWithEmpty then ∅ else lv.mCurr) ∪ snap) }

@[simp] theorem snap_snd (lv : BucketLevel) : lv.snap.2 = lv.mCurr := rfl

@[simp] theorem snap_fst (lv : BucketLevel) : lv.snap.1 = ⟨∅, lv.mCurr, lv.mNextCurr⟩ := rfl

theorem commit_of_some {lv : BucketLevel} {b : Finset ℕ} (h : lv.mNextCurr = some b) :
    lv.commit = ⟨b, lv.mSnap, none⟩ := by
  simp only [commit, h]

@[simp] theorem commit_mSnap (lv : BucketLevel) : lv.commit.mSnap = lv.mSnap := by
  unfold commit
  split <;> rfl

theorem commit_of_none {lv : BucketLevel} (h : lv.mNextCurr = none) : lv.commit = lv := by
  simp only [commit, h]

@[simp] theorem commit_prepared (lv : BucketLevel) (me : Bool) (snap : Finset ℕ) :
    (lv.prepared me snap).commit = ⟨(if me then ∅ else lv.mCurr) ∪ snap, lv.mSnap, none⟩ := rfl

@[simp] theorem commit_mNextCurr (lv : BucketLevel) : lv.commit.mNextCurr = none := by
  unfold commit
  split <;> simp_all

theorem prepare_eq {lv : BucketLevel} {c : UInt32} {l : ℕ} {snap : Finset ℕ} {me : Bool}
    (hnext : lv.mNextCurr = none) (hme : shouldMergeWithEmptyCurr c l = .ok me) :
    lv.prepare c l snap = .ok (lv.prepared me snap) := by
  simp only [prepare, releaseAssert_bind, if_pos hnext, hme, Except.ok_bind]
  rfl

end BucketLevel

/-! ### The spill loop -/

/-- What the loop of `addBatch` from `n` down leaves at level `l`, for the spill
decisions `sp` and merge decisions `me`: level `l` snaps if it spills (and `l < n`),
then, if the level above spills, commits its merge and starts merging the `curr` the
level above had. -/
def spillResult (sp me : ℕ → Bool) (n : ℕ) (levels : ℕ → BucketLevel) (l : ℕ) : BucketLevel :=
  let lv := if l < n ∧ sp l = true then (levels l).snap.1 else levels l
  if 0 < l ∧ l ≤ n ∧ sp (l - 1) = true then lv.commit.prepared (me l) (levels (l - 1)).mCurr
  else lv

/-- Two runs of the loop leave level `l` alike when they decide alike there and
start from the same levels `l` and, where it is fed, `l - 1`. -/
theorem spillResult_congr {sp me : ℕ → Bool} {n n' l : ℕ} {levels levels' : ℕ → BucketLevel}
    (hsnap : (l < n ∧ sp l = true) ↔ (l < n' ∧ sp l = true))
    (hfed : (0 < l ∧ l ≤ n ∧ sp (l - 1) = true) ↔ (0 < l ∧ l ≤ n' ∧ sp (l - 1) = true))
    (hl : levels l = levels' l)
    (hprev : 0 < l ∧ l ≤ n ∧ sp (l - 1) = true → levels (l - 1) = levels' (l - 1)) :
    spillResult sp me n levels l = spillResult sp me n' levels' l := by
  unfold spillResult
  by_cases hf : 0 < l ∧ l ≤ n ∧ sp (l - 1) = true
  · simp only [if_pos hf, if_pos (hfed.mp hf), hl, hprev hf, hsnap]
  · simp only [if_neg hf, if_neg (mt hfed.mpr hf), hl, hsnap]

/-- **The loop, level by level.** -/
theorem spillLevels_eq {c : UInt32} {sp me : ℕ → Bool} :
    ∀ {n : ℕ}, (∀ i < n, levelShouldSpill c i = .ok (sp i)) →
      (∀ k < n, sp k = true → shouldMergeWithEmptyCurr c (k + 1) = .ok (me (k + 1))) →
      ∀ levels, spillLevels c n levels = .ok (spillResult sp me n levels)
  | 0, _, _, levels => by
    simp only [spillLevels]
    congr 1
    funext l
    have hf : ¬ (0 < l ∧ l ≤ 0 ∧ sp (l - 1) = true) := by omega
    unfold spillResult
    rw [if_neg hf]
    simp
  | n + 1, hsp, hme, levels => by
    have ih := spillLevels_eq (n := n) (fun i hi => hsp i (by omega))
      (fun k hk => hme k (by omega))
    simp only [spillLevels, hsp n (by omega), Except.ok_bind]
    by_cases hn : sp n = true
    · -- level `n` snaps into level `n + 1`, which commits and starts a merge
      rw [if_pos hn, BucketLevel.prepare_eq (BucketLevel.commit_mNextCurr _)
        (hme n (by omega) hn)]
      simp only [Except.ok_bind, pure_bind, ih]
      congr 1
      funext l
      rcases Nat.lt_or_ge l n with hl | hl
      · -- below the levels this iteration touches
        exact spillResult_congr (and_congr_left' (by omega))
          (and_congr_right' (and_congr_left' (by omega)))
          (by simp [hl.ne, (show l ≠ n + 1 by omega)])
          (fun _ => by simp [(show l - 1 ≠ n by omega), (show l - 1 ≠ n + 1 by omega)])
      rcases Nat.lt_or_ge (n + 1) l with hl' | hl'
      · -- above them: neither run snaps or feeds level `l`
        exact spillResult_congr (and_congr_left' (by omega))
          (and_congr_right' (and_congr_left' (by omega)))
          (by simp [(show l ≠ n by omega), (show l ≠ n + 1 by omega)])
          (fun h => absurd h.2.1 (by omega))
      rcases (show l = n ∨ l = n + 1 by omega) with rfl | rfl
      · -- the level that snapped; it is fed as before
        by_cases hf : 0 < l ∧ sp (l - 1) = true
        · simp [spillResult, hf, hn, (show l - 1 ≠ l by omega)]
        · simp [spillResult, hn]
          rw [if_neg hf, if_neg hf]
      · -- the level that this iteration feeds
        simp [spillResult, hn]
    · -- nothing spills at this iteration
      rw [if_neg hn]
      simp only [pure_bind, ih]
      congr 1
      funext l
      refine spillResult_congr ?_ ?_ rfl (fun _ => rfl)
      · constructor
        · rintro ⟨hl, hs⟩
          exact ⟨by omega, hs⟩
        · rintro ⟨hl, hs⟩
          refine ⟨?_, hs⟩
          rcases Nat.lt_or_ge l n with h | h
          · exact h
          · obtain rfl : l = n := by omega
            exact absurd hs hn
      · constructor
        · rintro ⟨h0, hl, hs⟩
          exact ⟨h0, by omega, hs⟩
        · rintro ⟨h0, hl, hs⟩
          refine ⟨h0, ?_, hs⟩
          rcases Nat.lt_or_ge l (n + 1) with h | h
          · omega
          · obtain rfl : l = n + 1 := by omega
            exact absurd hs hn

/-- The loop leaves level `0` snapped or not. -/
theorem spillResult_zero (sp me : ℕ → Bool) (n : ℕ) (levels : ℕ → BucketLevel) :
    spillResult sp me n levels 0 = if 0 < n ∧ sp 0 = true then (levels 0).snap.1 else levels 0 := by
  simp [spillResult]

/-- The loop at level `k + 1`: snapped if it spills, then fed if level `k` spills. -/
theorem spillResult_succ (sp me : ℕ → Bool) (n : ℕ) (levels : ℕ → BucketLevel) (k : ℕ) :
    spillResult sp me n levels (k + 1) =
      let lv := if k + 1 < n ∧ sp (k + 1) = true then (levels (k + 1)).snap.1 else levels (k + 1)
      if k + 1 ≤ n ∧ sp k = true then lv.commit.prepared (me (k + 1)) (levels k).mCurr else lv := by
  simp [spillResult]

/-! ### One ledger -/

/-- The spill decisions of `addBatch` at ledger `L` (`levelShouldSpill_eq`). -/
def spillsAt (L i : ℕ) : Bool := decide (i + 1 < kNumLevels ∧ period i ∣ L)

/-- The merge decisions of `addBatch` at ledger `L` (`shouldMergeWithEmptyCurr_eq`). -/
def mergesEmptyAt (L l : ℕ) : Bool :=
  decide (l ≠ 0 ∧ l + 1 < kNumLevels ∧ period l ∣ lastSpill L (l - 1) + period (l - 1))

/-- Level `0` after the loop and the merge of the new batch. -/
theorem level_zero_succ (L : ℕ) {me : ℕ → Bool} :
    ((spillResult (spillsAt (L + 1)) me (kNumLevels - 1) (levelsAt L) 0).prepared false
      {L + 1}).commit = levelsAt (L + 1) 0 := by
  have h0 : ∀ L', levelsAt L' 0 = ⟨currLedgers L' 0, snapLedgers L' 0, none⟩ := fun L' => by
    rw [levelsAt, if_pos (by decide)]
    rfl
  rw [spillResult_zero, h0, h0, currLedgers_zero_succ]
  by_cases hd : period 0 ∣ L + 1
  · -- level `0` spilled: its `curr` is the new `snap`
    have hsp : 0 < kNumLevels - 1 ∧ spillsAt (L + 1) 0 = true :=
      ⟨by decide, decide_eq_true ⟨by decide, hd⟩⟩
    rw [if_pos hsp, if_pos hd, currLedgers_eq_snapLedgers_succ hd (by decide)]
    simp
  · have hsp : ¬ (0 < kNumLevels - 1 ∧ spillsAt (L + 1) 0 = true) := fun h =>
      hd (of_decide_eq_true h.2).2
    rw [if_neg hsp, if_neg hd, snapLedgers_succ (fun h => hd h.2)]
    simp

/-- A level fed by the spill of the level above ends with the runs at `L + 1`, once
its `curr` and `snap` are. -/
theorem prepared_eq_levelsAt {L k : ℕ} {lv : BucketLevel} (hk : k + 1 < kNumLevels)
    (h : period k ∣ L + 1) (hcurr : lv.mCurr = currLedgers (L + 1) (k + 1))
    (hsnap : lv.mSnap = snapLedgers (L + 1) (k + 1)) :
    lv.prepared (mergesEmptyAt (L + 1) (k + 1)) (levelsAt L k).mCurr = levelsAt (L + 1) (k + 1) := by
  have hprev : (levelsAt L k).mCurr = snapLedgers (L + 1) k := by
    rw [levelsAt, if_pos (by omega)]
    exact currLedgers_eq_snapLedgers_succ h (by omega)
  rw [BucketLevel.prepared, hprev, hcurr, hsnap, levelsAt, if_pos hk, nextLedgers_succ_of_dvd h hk]
  simp [mergesEmptyAt]

/-- **One ledger, one level below the top.** -/
theorem level_succ_succ {L k : ℕ} (hk : k + 1 < kNumLevels) :
    spillResult (spillsAt (L + 1)) (mergesEmptyAt (L + 1)) (kNumLevels - 1) (levelsAt L) (k + 1) =
      levelsAt (L + 1) (k + 1) := by
  have hlv : levelsAt L (k + 1) = ⟨currLedgers L (k + 1), snapLedgers L (k + 1),
      nextLedgers L (k + 1)⟩ := by
    rw [levelsAt, if_pos hk]
  rw [spillResult_succ]
  by_cases hA : period k ∣ L + 1
  · -- level `k` spills: level `k + 1` commits its merge and starts the next one
    have hfed : k + 1 ≤ kNumLevels - 1 ∧ spillsAt (L + 1) k = true := by
      simp [spillsAt, hA]
      omega
    simp only [if_pos hfed]
    by_cases hC : k + 1 + 1 < kNumLevels ∧ period (k + 1) ∣ L + 1
    · -- level `k + 1` spills as well: it snaps first
      have hsp : k + 1 < kNumLevels - 1 ∧ spillsAt (L + 1) (k + 1) = true := by
        simp [spillsAt, hC.2]
        omega
      have hL : period k ≤ L := by
        have := Nat.le_of_dvd (Nat.succ_pos L) hC.2
        have := period_pos k
        rw [period_succ] at *
        omega
      rw [if_pos hsp]
      apply prepared_eq_levelsAt hk hA
      · rw [BucketLevel.commit_of_some (b := currLedgers (L + 1) (k + 1))]
        rw [BucketLevel.snap_fst, hlv]
        exact nextLedgers_eq_currLedgers_succ hA hL hk
      · rw [hlv, BucketLevel.commit_mSnap]
        exact currLedgers_eq_snapLedgers_succ hC.2 hC.1
    · have hsp : ¬ (k + 1 < kNumLevels - 1 ∧ spillsAt (L + 1) (k + 1) = true) := by
        simp only [spillsAt, decide_eq_true_eq]
        omega
      rw [if_neg hsp]
      apply prepared_eq_levelsAt hk hA
      · rcases Nat.lt_or_ge L (period k) with hL | hL
        · -- before the first spill of level `k` nothing has reached level `k + 1`
          have hnone : (levelsAt L (k + 1)).mNextCurr = none := by
            rw [hlv]
            simp [nextLedgers, hL]
          rw [BucketLevel.commit_of_none hnone, hlv, currLedgers_eq_empty_of_le hL.le,
            currLedgers_eq_empty_of_le hL]
        · rw [BucketLevel.commit_of_some (b := currLedgers (L + 1) (k + 1))]
          rw [hlv]
          exact nextLedgers_eq_currLedgers_succ hA hL hk
      · rw [hlv, BucketLevel.commit_mSnap]
        exact (snapLedgers_succ hC).symm
  · -- level `k` does not spill, and neither does level `k + 1`
    have hfed : ¬ (k + 1 ≤ kNumLevels - 1 ∧ spillsAt (L + 1) k = true) := by
      simp [spillsAt, hA]
    have hsp : ¬ (k + 1 < kNumLevels - 1 ∧ spillsAt (L + 1) (k + 1) = true) := by
      simp only [spillsAt, decide_eq_true_eq]
      exact fun h => hA ((period_dvd_succ k).trans h.2.2)
    simp only [if_neg hfed, if_neg hsp]
    exact (levelsAt_succ_of_not_dvd hA).symm

/-- Above the deepest level nothing changes. -/
theorem level_succ_deep {L k : ℕ} (hk : ¬ k + 1 < kNumLevels) :
    spillResult (spillsAt (L + 1)) (mergesEmptyAt (L + 1)) (kNumLevels - 1) (levelsAt L) (k + 1) =
      levelsAt (L + 1) (k + 1) := by
  have hfed : ¬ (k + 1 ≤ kNumLevels - 1 ∧ spillsAt (L + 1) k = true) := by omega
  have hsp : ¬ (k + 1 < kNumLevels - 1 ∧ spillsAt (L + 1) (k + 1) = true) := by omega
  rw [spillResult_succ]
  simp only [if_neg hfed, if_neg hsp, levelsAt, if_neg hk]

/-- **The step.** `addBatch` for ledger `L + 1` turns the runs at `L` into the runs
at `L + 1`, without tripping an assertion. -/
theorem addBatch_levelsAt {L : ℕ} (hL : L + 1 < 2 ^ 32) :
    addBatch (levelsAt L) (UInt32.ofNat (L + 1)) = .ok (levelsAt (L + 1)) := by
  have hv : (UInt32.ofNat (L + 1)).toNat = L + 1 := by
    rw [UInt32.toNat_ofNat', Nat.mod_eq_of_lt hL]
  have hpos : UInt32.ofNat (L + 1) > 0 := by
    rw [gt_iff_lt, UInt32.lt_iff_toNat_lt, hv]
    simp
  have hsp : ∀ i < kNumLevels - 1,
      levelShouldSpill (UInt32.ofNat (L + 1)) i = .ok (spillsAt (L + 1) i) := fun i hi => by
    rw [levelShouldSpill_eq _ (by omega), hv]
    rfl
  have hme : ∀ k < kNumLevels - 1, spillsAt (L + 1) k = true →
      shouldMergeWithEmptyCurr (UInt32.ofNat (L + 1)) (k + 1) = .ok (mergesEmptyAt (L + 1) (k + 1)) :=
    fun k hk _ => by
      rw [shouldMergeWithEmptyCurr_eq _ (by omega), hv]
      rfl
  have hme0 : shouldMergeWithEmptyCurr (UInt32.ofNat (L + 1)) 0 = .ok false := by
    rw [shouldMergeWithEmptyCurr_eq _ (by decide)]
    simp
  -- level `0` has no merge running when the loop leaves it
  have hnext : (spillResult (spillsAt (L + 1)) (mergesEmptyAt (L + 1)) (kNumLevels - 1)
      (levelsAt L) 0).mNextCurr = none := by
    rw [spillResult_zero, levelsAt, if_pos (show 0 < kNumLevels by decide)]
    split <;> rfl
  simp only [addBatch, releaseAssert_bind, if_pos hpos, spillLevels_eq hsp hme, Except.ok_bind,
    BucketLevel.prepare_eq hnext hme0, hv]
  congr 1
  funext l
  cases l with
  | zero =>
    rw [Function.update_self]
    exact level_zero_succ L
  | succ k =>
    rw [Function.update_of_ne (Nat.succ_ne_zero k)]
    by_cases hk : k + 1 < kNumLevels
    · exact level_succ_succ hk
    · exact level_succ_deep hk

/-- Before the first ledger every bucket is empty. -/
theorem levelsAt_zero : levelsAt 0 = fun _ => BucketLevel.empty := by
  funext l
  unfold levelsAt
  split
  · have hcurr : currLedgers 0 l = ∅ := by
      cases l with
      | zero => exact span_eq_empty (by simp [currHi])
      | succ k => exact currLedgers_eq_empty_of_le (Nat.zero_le _)
    have hsnap : snapLedgers 0 l = ∅ := by
      unfold snapLedgers
      split
      · apply span_eq_empty
        simp only [snapHi, lastSpill_eq_zero (period_pos l)]
        omega
      · rfl
    have hnext : nextLedgers 0 l = none := by
      cases l with
      | zero => rfl
      | succ k => simp [nextLedgers, period_pos k]
    rw [hcurr, hsnap, hnext]
    rfl
  · rfl

/-- **The run.** Closing the ledgers `1, ..., L` one by one builds `levelsAt L`. -/
theorem addBatches_eq : ∀ {L : ℕ}, L < 2 ^ 32 → addBatches L = .ok (levelsAt L)
  | 0, _ => by
    rw [addBatches, levelsAt_zero]
    rfl
  | L + 1, hL => by
    rw [addBatches, addBatches_eq (by omega), Except.ok_bind, addBatch_levelsAt hL]

/-! ### The geometry agrees with the spill schedule -/

/-- Over all levels, the runs hold `L` ledgers. -/
theorem sum_card_levels (L : ℕ) :
    ∑ l ∈ Finset.range kNumLevels, ((currLedgers L l).card + (snapLedgers L l).card) = L := by
  have hdeep : kNumLevels = (kNumLevels - 1) + 1 := rfl
  -- the deepest level has no `snap`
  have hsnap : snapLedgers L (kNumLevels - 1) = ∅ := if_neg (by decide)
  have hbelow := card_belowLedgers_le L (kNumLevels - 1)
  -- rewrite rather than `simp`: the kernel unfolds the levels' ranges when checking a
  -- `simp` proof here
  rw [hdeep, Finset.sum_range_succ, sum_card_eq_card_belowLedgers L (by decide),
    card_currLedgers_of_first (l := kNumLevels - 1) (Or.inl rfl), hsnap, Finset.card_empty,
    Nat.add_zero]
  exact Nat.add_sub_cancel' hbelow

/-- **The bucket-list geometry.** For every ledger `1 ≤ L < 2 ^ 32`, `sizeOfCurr`,
`sizeOfSnap`, `oldestLedgerInCurr` and `oldestLedgerInSnap` return without tripping an
assertion; the ranges `[oldest, oldest + size)` they give tile `[1, L]` from the
deepest `curr` up to level `0`'s, each `snap` right before its level's `curr` and each
`curr` right before the `snap` of the level below it; and they are the ledgers that
`addBatch`, run for `1, ..., L`, leaves in each level's `curr` and `snap`. -/
theorem bucketList_ranges_tile {L : ℕ} (hL1 : 1 ≤ L) (hL : L < 2 ^ 32) :
    ∃ (levels : ℕ → BucketLevel) (c s oc os : ℕ → ℕ),
      addBatches L = .ok levels ∧
      (∀ l < kNumLevels,
        sizeOfCurr (UInt32.ofNat L) l = .ok (UInt32.ofNat (c l)) ∧
        sizeOfSnap (UInt32.ofNat L) l = .ok (UInt32.ofNat (s l)) ∧
        oldestLedgerInCurr (UInt32.ofNat L) l =
          .ok (if c l = 0 then UINT32_MAX else UInt32.ofNat (oc l)) ∧
        oldestLedgerInSnap (UInt32.ofNat L) l =
          .ok (if s l = 0 then UINT32_MAX else UInt32.ofNat (os l)) ∧
        (levels l).mCurr = Finset.Ico (oc l) (oc l + c l) ∧
        (levels l).mSnap = Finset.Ico (os l) (os l + s l) ∧
        os l + s l = oc l) ∧
      oc (kNumLevels - 1) = 1 ∧
      oc 0 + c 0 = L + 1 ∧
      (∀ l, l + 1 < kNumLevels → oc (l + 1) + c (l + 1) = os l) ∧
      ∑ l ∈ Finset.range kNumLevels, (c l + s l) = L := by
  refine ⟨levelsAt L, fun l => (currLedgers L l).card, fun l => (snapLedgers L l).card,
    fun l => (max 1 (currLo L l)).toNat, snapOldest L, addBatches_eq hL, ?_, ?_, ?_, ?_,
    sum_card_levels L⟩
  · intro l hl
    have hlv : levelsAt L l = ⟨currLedgers L l, snapLedgers L l, nextLedgers L l⟩ := by
      rw [levelsAt, if_pos hl]
    have hos : snapOldest L l = if l + 1 < kNumLevels then (max 1 (snapLo L l)).toNat
        else (max 1 (currLo L l)).toNat := rfl
    refine ⟨(sizeOf_eq hl hL1 hL).1, (sizeOf_eq hl hL1 hL).2, oldestLedgerInCurr_eq hL1 hL hl,
      ?_, by rw [hlv]; exact currLedgers_eq_Ico L l, by rw [hlv]; exact snapLedgers_eq_Ico L l,
      snapOldest_add_card L l⟩
    -- an empty `snap` reads `UINT32_MAX` whatever it is said to begin at
    rw [oldestLedgerInSnap_eq hL1 hL hl]
    by_cases hs : (snapLedgers L l).card = 0
    · simp only [if_pos hs]
    · have hl' : l + 1 < kNumLevels := by
        by_contra h
        exact hs (by simp [snapLedgers, h])
      simp only [if_neg hs, hos, if_pos hl']
  · simp [currLo, kNumLevels]
  · rw [currLo_add_card]
    simp [currHi]
  · exact fun l hl => currLo_succ_add_card hl

/-- At the first ledger: level `0`'s `curr` holds ledger `1`, everything else is empty. -/
theorem bucketList_ranges_tile_first_ledger :
    1 ≤ 1 ∧ 1 < 2 ^ 32 ∧
    ∃ (levels : ℕ → BucketLevel) (c s oc os : ℕ → ℕ),
      addBatches 1 = .ok levels ∧
      (∀ l < kNumLevels,
        sizeOfCurr (UInt32.ofNat 1) l = .ok (UInt32.ofNat (c l)) ∧
        sizeOfSnap (UInt32.ofNat 1) l = .ok (UInt32.ofNat (s l)) ∧
        oldestLedgerInCurr (UInt32.ofNat 1) l =
          .ok (if c l = 0 then UINT32_MAX else UInt32.ofNat (oc l)) ∧
        oldestLedgerInSnap (UInt32.ofNat 1) l =
          .ok (if s l = 0 then UINT32_MAX else UInt32.ofNat (os l)) ∧
        (levels l).mCurr = Finset.Ico (oc l) (oc l + c l) ∧
        (levels l).mSnap = Finset.Ico (os l) (os l + s l) ∧
        os l + s l = oc l) ∧
      oc (kNumLevels - 1) = 1 ∧
      oc 0 + c 0 = 1 + 1 ∧
      (∀ l, l + 1 < kNumLevels → oc (l + 1) + c (l + 1) = os l) ∧
      ∑ l ∈ Finset.range kNumLevels, (c l + s l) = 1 :=
  ⟨le_rfl, by norm_num, bucketList_ranges_tile le_rfl (by norm_num)⟩

end BucketList

end HcnetCore
