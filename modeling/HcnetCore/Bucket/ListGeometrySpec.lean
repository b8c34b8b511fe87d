import Mathlib.Algebra.BigOperators.Group.Finset.Basic
import HcnetCore.Bucket.SpillSchedule
import HcnetCore.Systems.ExceptSpec

/-!
# The static functions of `BucketList.cpp` compute the closed forms

For every ledger `1 ≤ L < 2 ^ 32` and level `l < kNumLevels`:

* `levelSize`, `levelHalf` and `mask` are `2 · period l`, `period l` and the round
  down to a multiple (`mask_period`), and the spill tests are divisibility
  (`levelShouldSpill_eq`, `shouldMergeWithEmptyCurr_eq`);
* `sizeOfCurr`, `sizeOfSnap` and their loop `levelsBelow` return, without tripping an
  assertion, the sizes of the runs of `Bucket.SpillSchedule`, and every sum they
  subtract is at most `L`, so no `uint32_t` subtraction wraps;
* `oldestLedgerInCurr` and `oldestLedgerInSnap` return the oldest ledger of the run,
  or `UINT32_MAX` for an empty bucket.
-/

namespace HcnetCore

namespace BucketList

open Arith

theorem period_lt_two_pow_32 {l : ℕ} (hl : l < kNumLevels) : period l < 2 ^ 32 := by
  rw [period_eq_two_pow]
  exact Nat.pow_lt_pow_right (by decide) (by unfold kNumLevels at hl; omega)

theorem period_dvd_two_pow_32 {l : ℕ} (hl : l < kNumLevels) : period l ∣ 2 ^ 32 := by
  rw [period_eq_two_pow]
  exact Nat.pow_dvd_pow 2 (by unfold kNumLevels at hl; omega)

/-- `levelSize(l)` is two periods. -/
theorem levelSize_eq {l : ℕ} (hl : l < kNumLevels) :
    levelSize l = .ok (UInt32.ofNat (2 * period l)) := by
  have h : 1 <<< (2 * (l + 1)) = 2 * period l := by
    rw [Nat.one_shiftLeft, period_eq_two_pow, ← pow_succ', show 2 * (l + 1) = 2 * l + 1 + 1 by omega]
  simp only [levelSize, releaseAssert_bind, if_pos hl, h]
  rfl

theorem toNat_levelSize {l : ℕ} (hl : l < kNumLevels) :
    (UInt32.ofNat (2 * period l)).toNat = 2 * period l := by
  rw [UInt32.toNat_ofNat', Nat.mod_eq_of_lt]
  rw [period_eq_two_pow, ← pow_succ']
  exact Nat.pow_lt_pow_right (by decide) (by unfold kNumLevels at hl; omega)

/-- `levelHalf(l)` is one period. -/
theorem levelHalf_eq {l : ℕ} (hl : l < kNumLevels) :
    levelHalf l = .ok (UInt32.ofNat (period l)) := by
  simp only [levelHalf, levelSize_eq hl, Except.ok_bind]
  congr 1
  apply UInt32.toNat_inj.mp
  rw [UInt32.toNat_shiftRight, toNat_levelSize hl, UInt32.toNat_ofNat',
    Nat.mod_eq_of_lt (period_lt_two_pow_32 hl), Nat.shiftRight_eq_div_pow]
  simp

theorem toNat_period {l : ℕ} (hl : l < kNumLevels) : (UInt32.ofNat (period l)).toNat = period l := by
  rw [UInt32.toNat_ofNat', Nat.mod_eq_of_lt (period_lt_two_pow_32 hl)]

/-- Masking with `levelHalf(l)` gives the last spill of level `l`. -/
theorem mask_period (v : UInt32) {l : ℕ} (hl : l < kNumLevels) :
    (mask v (UInt32.ofNat (period l))).toNat = lastSpill v.toNat l := by
  unfold mask lastSpill
  rw [toNat_and_not_sub_one (k := 2 * l + 1) (by rw [toNat_period hl, period_eq_two_pow])
    (by unfold kNumLevels at hl; omega), period_eq_two_pow]

/-- Masking with `levelSize(l)` rounds down to a multiple of two periods. -/
theorem mask_size (v : UInt32) {l : ℕ} (hl : l < kNumLevels) :
    (mask v (UInt32.ofNat (2 * period l))).toNat = v.toNat / (2 * period l) * (2 * period l) := by
  have h2 : 2 * period l = 2 ^ (2 * l + 2) := by rw [period_eq_two_pow, ← pow_succ']
  unfold mask
  rw [toNat_and_not_sub_one (k := 2 * l + 2) (by rw [toNat_levelSize hl, h2])
    (by unfold kNumLevels at hl; omega), h2]

theorem mask_period_eq_self_iff (v : UInt32) {l : ℕ} (hl : l < kNumLevels) :
    mask v (UInt32.ofNat (period l)) = v ↔ period l ∣ v.toNat := by
  rw [← UInt32.toNat_inj, mask_period v hl, lastSpill, Nat.dvd_iff_div_mul_eq]

theorem mask_size_eq_self_iff (v : UInt32) {l : ℕ} (hl : l < kNumLevels) :
    mask v (UInt32.ofNat (2 * period l)) = v ↔ 2 * period l ∣ v.toNat := by
  rw [← UInt32.toNat_inj, mask_size v hl, Nat.dvd_iff_div_mul_eq]

theorem mask_period_eq_zero_iff (v : UInt32) {l : ℕ} (hl : l < kNumLevels) :
    mask v (UInt32.ofNat (period l)) = 0 ↔ v.toNat < period l := by
  rw [← UInt32.toNat_inj, mask_period v hl, UInt32.toNat_zero, lastSpill,
    div_mul_eq_zero_iff (period_pos l)]

theorem mask_size_eq_zero_iff (v : UInt32) {l : ℕ} (hl : l < kNumLevels) :
    mask v (UInt32.ofNat (2 * period l)) = 0 ↔ v.toNat < 2 * period l := by
  rw [← UInt32.toNat_inj, mask_size v hl, UInt32.toNat_zero,
    div_mul_eq_zero_iff (Nat.mul_pos (by decide) (period_pos l))]

/-- A multiple of two periods is a multiple of one. -/
theorem period_dvd_of_size_dvd {n l : ℕ} (h : 2 * period l ∣ n) : period l ∣ n :=
  (Dvd.intro_left 2 rfl).trans h

/-- `levelShouldSpill(v, l)`: level `l` spills at `v` when its period divides `v`,
except the deepest level, which never does. -/
theorem levelShouldSpill_eq (v : UInt32) {l : ℕ} (hl : l < kNumLevels) :
    levelShouldSpill v l = .ok (decide (l + 1 < kNumLevels ∧ period l ∣ v.toNat)) := by
  unfold levelShouldSpill
  by_cases hdeep : l = kNumLevels - 1
  · rw [if_pos hdeep]
    congr 1
    rw [eq_comm, decide_eq_false_iff_not]
    omega
  · have hl' : l + 1 < kNumLevels := by omega
    simp only [if_neg hdeep, levelHalf_eq hl, Except.ok_bind]
    by_cases hd : period l ∣ v.toNat
    · rw [if_pos (eq_comm.mp ((mask_period_eq_self_iff v hl).mpr hd))]
      simp [hl', hd]
    · rw [if_neg (fun h => hd ((mask_period_eq_self_iff v hl).mp h.symm)), levelSize_eq hl,
        Except.ok_bind]
      congr 1
      -- a multiple of two periods is a multiple of one
      have hsize : ¬ v = mask v (UInt32.ofNat (2 * period l)) := fun h =>
        hd (period_dvd_of_size_dvd ((mask_size_eq_self_iff v hl).mp h.symm))
      rw [decide_eq_false hsize, decide_eq_false (fun h => hd h.2)]

/-- `shouldMergeWithEmptyCurr(v, l)`: the merge level `l` starts at `v` leaves its
`curr` out exactly when level `l` itself spills one period of level `l - 1` after
the last spill of level `l - 1`. -/
theorem shouldMergeWithEmptyCurr_eq (v : UInt32) {l : ℕ} (hl : l < kNumLevels) :
    shouldMergeWithEmptyCurr v l = .ok (decide (l ≠ 0 ∧ l + 1 < kNumLevels ∧
      period l ∣ lastSpill v.toNat (l - 1) + period (l - 1))) := by
  unfold shouldMergeWithEmptyCurr
  by_cases h0 : l = 0
  · simp [h0]
  · have hprev : l - 1 < kNumLevels := by omega
    simp only [if_pos h0, levelHalf_eq hprev, Except.ok_bind, levelShouldSpill_eq _ hl]
    congr 1
    -- the sum wraps at `2 ^ 32` only onto a multiple of every period
    simp only [UInt32.toNat_add, mask_period v hprev, toNat_period hprev,
      Nat.dvd_mod_iff (period_dvd_two_pow_32 hl)]
    simp [h0]

/-! ### Sizes and oldest ledgers -/

theorem toNat_ofNat_of_lt_two_pow {n : ℕ} (h : n < 2 ^ 32) : (UInt32.ofNat n).toNat = n := by
  rw [UInt32.toNat_ofNat', Nat.mod_eq_of_lt h]

theorem toNat_max (a b : UInt32) : (max a b).toNat = max a.toNat b.toNat := by
  show (if a ≤ b then b else a).toNat = _
  split
  · next h =>
    rw [UInt32.le_iff_toNat_le] at h
    omega
  · next h =>
    rw [UInt32.le_iff_toNat_le] at h
    omega

/-- `1 << (2 * level - 1)`, what a level's `curr` grows by, is the period of the
level above. -/
theorem one_shiftLeft_eq_period {l : ℕ} (h0 : 0 < l) : 1 <<< (2 * l - 1) = period (l - 1) := by
  rw [Nat.one_shiftLeft, period_eq_two_pow]
  congr 1
  omega

/-- The previous relevant ledger of `sizeOfCurr` is the last spill of the level
above before `v`: of the four masks, that of the finest period is the largest. -/
theorem previousRelevantLedger_toNat (v : UInt32) {l : ℕ} (h0 : 0 < l) (hl : l < kNumLevels) :
    (max (max (mask (v - 1) (UInt32.ofNat (period (l - 1))))
        (mask (v - 1) (UInt32.ofNat (2 * period (l - 1)))))
      (max (mask (v - 1) (UInt32.ofNat (period l))) (mask (v - 1) (UInt32.ofNat (2 * period l))))).toNat =
      lastSpill (v - 1).toNat (l - 1) := by
  have hl' : l - 1 < kNumLevels := by omega
  have hfine : period (l - 1) ∣ period l := period_dvd_of_le (by omega)
  have hsize : ∀ {m}, period m ∣ 2 * period m := Dvd.intro_left 2 rfl
  have h1 := div_mul_le_div_mul_of_dvd (n := (v - 1).toNat) (period_pos (l - 1)) hsize
  have h2 := div_mul_le_div_mul_of_dvd (n := (v - 1).toNat) (period_pos (l - 1)) hfine
  have h3 := div_mul_le_div_mul_of_dvd (n := (v - 1).toNat) (period_pos (l - 1))
    (hfine.trans hsize)
  simp only [toNat_max, mask_period _ hl, mask_period _ hl', mask_size _ hl, mask_size _ hl',
    lastSpill] at *
  omega

theorem sizeOfCurr_eq_of {L l : ℕ} (hL1 : 1 ≤ L) (hL : L < 2 ^ 32) (hl : l < kNumLevels)
    (hbelow : levelsBelow (UInt32.ofNat L) l = .ok (UInt32.ofNat (belowLedgers L l).card))
    (hprev : ∀ L', 1 ≤ L' → L' < L →
      sizeOfCurr (UInt32.ofNat L') l = .ok (UInt32.ofNat (currLedgers L' l).card)) :
    sizeOfCurr (UInt32.ofNat L) l = .ok (UInt32.ofNat (currLedgers L l).card) := by
  have hv : (UInt32.ofNat L).toNat = L := toNat_ofNat_of_lt_two_pow hL
  have hne : UInt32.ofNat L ≠ 0 := fun h => by
    rw [h, UInt32.toNat_zero] at hv
    omega
  rw [sizeOfCurr, dif_pos hne]
  simp only [releaseAssert_bind, if_pos hl]
  by_cases h0 : l = 0
  · -- level `0`: one or two ledgers
    subst h0
    rw [if_pos rfl, card_currLedgers_zero hL1]
    by_cases h1 : L = 1
    · subst h1
      rfl
    · have hne1 : UInt32.ofNat L ≠ 1 := fun h => h1 (by rw [← hv, h]; rfl)
      rw [if_neg hne1, if_neg h1, UInt32.ofNat_add, UInt32.ofNat_mod hL (by decide)]
      rfl
  rw [if_neg h0, levelSize_eq hl, levelHalf_eq hl]
  simp only [Except.ok_bind]
  by_cases hfirst : l + 1 = kNumLevels ∨ L < period l
  · -- the deepest level, or before the first spill: what the levels below leave
    have hc : ¬ (l ≠ kNumLevels - 1 ∧ mask (UInt32.ofNat L) (UInt32.ofNat (period l)) ≠ 0) := by
      rintro ⟨hd, hm⟩
      rcases hfirst with h | h
      · omega
      · exact hm ((mask_period_eq_zero_iff _ hl).mpr (by rw [hv]; exact h))
    rw [if_neg hc, hbelow, Except.ok_bind, card_currLedgers_of_first hfirst,
      UInt32.ofNat_sub (card_belowLedgers_le L l)]
    rfl
  have hl' : l + 1 < kNumLevels := by omega
  have hp : period l ≤ L := by omega
  have hc : l ≠ kNumLevels - 1 ∧ mask (UInt32.ofNat L) (UInt32.ofNat (period l)) ≠ 0 := by
    refine ⟨by omega, fun h => ?_⟩
    rw [mask_period_eq_zero_iff _ hl, hv] at h
    omega
  rw [if_pos hc]
  by_cases hd : period l ∣ L
  · -- the level spills at `L` itself
    rw [if_pos (Or.inl ((mask_period_eq_self_iff _ hl).mpr (by rw [hv]; exact hd))),
      one_shiftLeft_eq_period (by omega), card_currLedgers_of_dvd (by omega) hl' hd hL1]
    rfl
  have hnd : ¬ (mask (UInt32.ofNat L) (UInt32.ofNat (period l)) = UInt32.ofNat L ∨
      mask (UInt32.ofNat L) (UInt32.ofNat (2 * period l)) = UInt32.ofNat L) := by
    rintro (h | h)
    · exact hd (by rw [← hv]; exact (mask_period_eq_self_iff _ hl).mp h)
    · exact hd (period_dvd_of_size_dvd (by rw [← hv]; exact (mask_size_eq_self_iff _ hl).mp h))
  have hl1 : l - 1 < kNumLevels := by omega
  rw [if_neg hnd, levelSize_eq hl1, levelHalf_eq hl1]
  simp only [Except.ok_bind]
  -- the recursion goes to the last spill of the level above before `L`
  have hfine : period (l - 1) < period l := by
    obtain ⟨k, rfl⟩ : ∃ k, l = k + 1 := ⟨l - 1, by omega⟩
    rw [period_succ, Nat.add_sub_cancel]
    have := period_pos k
    omega
  have hprev1 : 1 ≤ lastSpill (L - 1) (l - 1) :=
    (period_pos _).trans_le (period_le_lastSpill (by omega))
  have hprevlt : lastSpill (L - 1) (l - 1) < L := by
    have := lastSpill_le (L - 1) (l - 1)
    omega
  have hsub : (UInt32.ofNat L - 1).toNat = L - 1 := by
    rw [UInt32.toNat_sub_of_le _ _ (by rw [UInt32.le_iff_toNat_le, hv]; simp; omega), hv]
    rfl
  have hprevEq : max (max (mask (UInt32.ofNat L - 1) (UInt32.ofNat (period (l - 1))))
        (mask (UInt32.ofNat L - 1) (UInt32.ofNat (2 * period (l - 1)))))
      (max (mask (UInt32.ofNat L - 1) (UInt32.ofNat (period l)))
        (mask (UInt32.ofNat L - 1) (UInt32.ofNat (2 * period l)))) =
      UInt32.ofNat (lastSpill (L - 1) (l - 1)) := by
    apply UInt32.toNat_inj.mp
    rw [previousRelevantLedger_toNat _ (by omega) hl, hsub,
      toNat_ofNat_of_lt_two_pow (by omega)]
  rw [hprevEq, card_currLedgers_of_not_dvd (by omega) hl' hp hd]
  by_cases hd' : period (l - 1) ∣ L
  · -- the level above spills at `L`: one more period
    rw [if_pos (Or.inl ((mask_period_eq_self_iff _ hl1).mpr (by rw [hv]; exact hd'))),
      hprev _ hprev1 hprevlt, Except.ok_bind, if_pos hd', one_shiftLeft_eq_period (by omega),
      UInt32.ofNat_add]
    rfl
  · have hnd' : ¬ (mask (UInt32.ofNat L) (UInt32.ofNat (period (l - 1))) = UInt32.ofNat L ∨
        mask (UInt32.ofNat L) (UInt32.ofNat (2 * period (l - 1))) = UInt32.ofNat L) := by
      rintro (h | h)
      · exact hd' (by rw [← hv]; exact (mask_period_eq_self_iff _ hl1).mp h)
      · exact hd' (period_dvd_of_size_dvd (by rw [← hv]; exact (mask_size_eq_self_iff _ hl1).mp h))
    rw [if_neg hnd', hprev _ hprev1 hprevlt, if_neg hd', Nat.add_zero]

theorem sizeOfSnap_eq_of {L l : ℕ} (hL1 : 1 ≤ L) (hL : L < 2 ^ 32) (hl : l < kNumLevels)
    (hbelow : levelsBelow (UInt32.ofNat L) l = .ok (UInt32.ofNat (belowLedgers L l).card))
    (hcurr : sizeOfCurr (UInt32.ofNat L) l = .ok (UInt32.ofNat (currLedgers L l).card)) :
    sizeOfSnap (UInt32.ofNat L) l = .ok (UInt32.ofNat (snapLedgers L l).card) := by
  have hv : (UInt32.ofNat L).toNat = L := toNat_ofNat_of_lt_two_pow hL
  have hne : UInt32.ofNat L ≠ 0 := fun h => by
    rw [h, UInt32.toNat_zero] at hv
    omega
  rw [sizeOfSnap, if_pos hne]
  simp only [releaseAssert_bind, if_pos hl]
  by_cases hdeep : l = kNumLevels - 1
  · -- the deepest level never snaps
    rw [if_pos hdeep, snapLedgers, if_neg (by omega)]
    rfl
  have hl' : l + 1 < kNumLevels := by omega
  rw [if_neg hdeep, levelSize_eq hl, Except.ok_bind]
  by_cases h2 : 2 * period l ≤ L
  · have hm : mask (UInt32.ofNat L) (UInt32.ofNat (2 * period l)) ≠ 0 := fun h => by
      rw [mask_size_eq_zero_iff _ hl, hv] at h
      omega
    rw [if_pos hm, levelHalf_eq hl, card_snapLedgers_of_le hl' h2]
  · -- before the second spill: what neither the levels below nor the `curr` hold
    have hm : ¬ mask (UInt32.ofNat L) (UInt32.ofNat (2 * period l)) ≠ 0 := fun h =>
      h ((mask_size_eq_zero_iff _ hl).mpr (by omega))
    have hsum : (belowLedgers L l).card + (currLedgers L l).card ≤ L := by
      have := card_belowLedgers_succ (L := L) hl'
      have := card_belowLedgers_le L (l + 1)
      omega
    rw [if_neg hm, hbelow, Except.ok_bind, hcurr, Except.ok_bind,
      card_snapLedgers_of_lt hl' (by omega), ← UInt32.ofNat_add, UInt32.ofNat_sub hsum]
    rfl

/-- The loop of `sizeOfCurr` and `sizeOfSnap` over the levels below `n` sums their sizes. -/
theorem levelsBelow_eq_of {v : UInt32} {cs ss : ℕ → ℕ} :
    ∀ {n : ℕ}, (∀ i < n, sizeOfCurr v i = .ok (UInt32.ofNat (cs i)) ∧
      sizeOfSnap v i = .ok (UInt32.ofNat (ss i))) →
      levelsBelow v n = .ok (UInt32.ofNat (∑ i ∈ Finset.range n, (cs i + ss i)))
  | 0, _ => by
    rw [levelsBelow]
    rfl
  | n + 1, h => by
    rw [levelsBelow, levelsBelow_eq_of (fun i hi => h i (by omega)), Except.ok_bind,
      (h n (by omega)).1, Except.ok_bind, (h n (by omega)).2, Except.ok_bind,
      Finset.sum_range_succ, UInt32.ofNat_add, UInt32.ofNat_add, UInt32.add_assoc]
    rfl

/-- Summed over the levels below `n`, the runs make up what those levels hold. -/
theorem sum_card_eq_card_belowLedgers (L : ℕ) :
    ∀ {n : ℕ}, n < kNumLevels →
      ∑ i ∈ Finset.range n, ((currLedgers L i).card + (snapLedgers L i).card) =
        (belowLedgers L n).card
  | 0, _ => by simp
  | n + 1, hn => by
    rw [Finset.sum_range_succ, sum_card_eq_card_belowLedgers L (by omega),
      card_belowLedgers_succ hn, Nat.add_assoc]

/-- **The sizes.** For every ledger `1 ≤ L < 2 ^ 32`, `sizeOfCurr` and `sizeOfSnap` give
the sizes of the runs, without tripping an assertion. The induction follows the
recursion: on the level, and within a level on the ledger. -/
theorem sizeOf_eq : ∀ {l : ℕ}, l < kNumLevels → ∀ {L : ℕ}, 1 ≤ L → L < 2 ^ 32 →
    sizeOfCurr (UInt32.ofNat L) l = .ok (UInt32.ofNat (currLedgers L l).card) ∧
      sizeOfSnap (UInt32.ofNat L) l = .ok (UInt32.ofNat (snapLedgers L l).card) := by
  intro l
  induction l using Nat.strong_induction_on with
  | _ l ihl =>
    intro hl
    -- the levels below `l` are settled for every ledger
    have hbelow : ∀ {L : ℕ}, 1 ≤ L → L < 2 ^ 32 →
        levelsBelow (UInt32.ofNat L) l = .ok (UInt32.ofNat (belowLedgers L l).card) :=
      fun h1 h2 => by
        rw [levelsBelow_eq_of (fun i hi => ihl i hi (by omega) h1 h2),
          sum_card_eq_card_belowLedgers _ hl]
    have hcurr : ∀ {L : ℕ}, 1 ≤ L → L < 2 ^ 32 →
        sizeOfCurr (UInt32.ofNat L) l = .ok (UInt32.ofNat (currLedgers L l).card) := by
      intro L
      induction L using Nat.strong_induction_on with
      | _ L ihL =>
        intro h1 h2
        exact sizeOfCurr_eq_of h1 h2 hl (hbelow h1 h2)
          (fun L' h1' hlt => ihL L' hlt h1' (by omega))
    intro L h1 h2
    exact ⟨hcurr h1 h2, sizeOfSnap_eq_of h1 h2 hl (hbelow h1 h2) (hcurr h1 h2)⟩

theorem sub_ofNat_sub_ofNat (a : UInt32) (m n : ℕ) :
    a - UInt32.ofNat m - UInt32.ofNat n = a - UInt32.ofNat (m + n) := by
  rw [UInt32.ofNat_add]
  -- `UInt32` is a commutative ring
  grind

/-- The count-down loop of `oldestLedgerInCurr` and `oldestLedgerInSnap`. -/
theorem foldlM_range_sub {f : UInt32 → ℕ → Except Failure UInt32} {d : ℕ → ℕ} :
    ∀ (n : ℕ) (v : UInt32), (∀ count, ∀ i < n, f count i = .ok (count - UInt32.ofNat (d i))) →
      (List.range n).foldlM f v = .ok (v - UInt32.ofNat (∑ i ∈ Finset.range n, d i))
  | 0, v, _ => by simp
  | n + 1, v, hf => by
    rw [List.range_succ, List.foldlM_append,
      foldlM_range_sub n v (fun count i hi => hf count i (by omega)), Except.ok_bind,
      List.foldlM_cons, hf _ n (by omega), Except.ok_bind, List.foldlM_nil,
      Finset.sum_range_succ, sub_ofNat_sub_ofNat]
    rfl

/-- One round of that loop: the count goes down by the sizes of level `i`. -/
theorem countDown_eq {L : ℕ} (hL1 : 1 ≤ L) (hL : L < 2 ^ 32) (count : UInt32) {i : ℕ}
    (hi : i < kNumLevels) :
    (do
      let c ← sizeOfCurr (UInt32.ofNat L) i
      let s ← sizeOfSnap (UInt32.ofNat L) i
      pure (count - c - s) : Except Failure UInt32) =
      .ok (count - UInt32.ofNat ((currLedgers L i).card + (snapLedgers L i).card)) := by
  rw [(sizeOf_eq hi hL1 hL).1, Except.ok_bind, (sizeOf_eq hi hL1 hL).2, Except.ok_bind,
    sub_ofNat_sub_ofNat]
  rfl

theorem card_currLedgers_le (L l : ℕ) : (currLedgers L l).card ≤ L := by
  have := currHi_le L l
  rw [currLedgers, card_span]
  omega

theorem card_snapLedgers_le (L l : ℕ) : (snapLedgers L l).card ≤ L := by
  unfold snapLedgers
  split
  · next hl =>
    have := currHi_le L l
    have := currLo_le_currHi (L := L) hl
    rw [card_span, snapHi_eq L l hl]
    omega
  · simp

theorem ofNat_card_eq_zero_iff {n : ℕ} (h : n < 2 ^ 32) : UInt32.ofNat n = 0 ↔ n = 0 := by
  rw [← UInt32.toNat_inj, toNat_ofNat_of_lt_two_pow h, UInt32.toNat_zero]

/-- **`oldestLedgerInCurr`** is the oldest ledger of the `curr`, or `UINT32_MAX` when it
is empty. -/
theorem oldestLedgerInCurr_eq {L l : ℕ} (hL1 : 1 ≤ L) (hL : L < 2 ^ 32) (hl : l < kNumLevels) :
    oldestLedgerInCurr (UInt32.ofNat L) l =
      .ok (if (currLedgers L l).card = 0 then UINT32_MAX
        else UInt32.ofNat (max 1 (currLo L l)).toNat) := by
  have hv : (UInt32.ofNat L).toNat = L := toNat_ofNat_of_lt_two_pow hL
  have hne : UInt32.ofNat L ≠ 0 := fun h => by
    rw [h, UInt32.toNat_zero] at hv
    omega
  have hcard := card_currLedgers_le L l
  unfold oldestLedgerInCurr
  simp only [releaseAssert_bind, if_pos hne, if_pos hl, (sizeOf_eq hl hL1 hL).1, Except.ok_bind,
    ofNat_card_eq_zero_iff (show (currLedgers L l).card < 2 ^ 32 by omega)]
  split
  · rfl
  · next hc =>
    rw [foldlM_range_sub (f := fun count i => do
        let c ← sizeOfCurr (UInt32.ofNat L) i
        let s ← sizeOfSnap (UInt32.ofNat L) i
        pure (count - c - s)) l _ (fun count i hi => countDown_eq hL1 hL count (by omega)),
      Except.ok_bind, sum_card_eq_card_belowLedgers _ hl, sub_ofNat_sub_ofNat]
    -- what the levels below and the `curr` hold ends right before its oldest ledger
    have hsum := card_below_add_card_curr (Nat.pos_of_ne_zero hc)
    rw [← UInt32.ofNat_sub (by omega), show (1 : UInt32) = UInt32.ofNat 1 from rfl,
      ← UInt32.ofNat_add]
    congr 2
    omega

/-- **`oldestLedgerInSnap`** is the oldest ledger of the `snap`, or `UINT32_MAX` when it
is empty. -/
theorem oldestLedgerInSnap_eq {L l : ℕ} (hL1 : 1 ≤ L) (hL : L < 2 ^ 32) (hl : l < kNumLevels) :
    oldestLedgerInSnap (UInt32.ofNat L) l =
      .ok (if (snapLedgers L l).card = 0 then UINT32_MAX
        else UInt32.ofNat (max 1 (snapLo L l)).toNat) := by
  have hv : (UInt32.ofNat L).toNat = L := toNat_ofNat_of_lt_two_pow hL
  have hne : UInt32.ofNat L ≠ 0 := fun h => by
    rw [h, UInt32.toNat_zero] at hv
    omega
  have hcard := card_snapLedgers_le L l
  unfold oldestLedgerInSnap
  simp only [releaseAssert_bind, if_pos hne, if_pos hl, (sizeOf_eq hl hL1 hL).2, Except.ok_bind,
    ofNat_card_eq_zero_iff (show (snapLedgers L l).card < 2 ^ 32 by omega)]
  split
  · rfl
  · next hc =>
    -- only a level above the deepest has a `snap`
    have hl' : l + 1 < kNumLevels := by
      by_contra h
      exact hc (by simp [snapLedgers, h])
    rw [foldlM_range_sub (f := fun count i => do
        let c ← sizeOfCurr (UInt32.ofNat L) i
        let s ← sizeOfSnap (UInt32.ofNat L) i
        pure (count - c - s)) (l + 1) _ (fun count i hi => countDown_eq hL1 hL count (by omega)),
      Except.ok_bind, sum_card_eq_card_belowLedgers _ hl']
    have hsum := card_below_succ_of_snap hl' (Nat.pos_of_ne_zero hc)
    rw [← UInt32.ofNat_sub (by omega), show (1 : UInt32) = UInt32.ofNat 1 from rfl,
      ← UInt32.ofNat_add]
    congr 2
    omega

end BucketList

end HcnetCore
