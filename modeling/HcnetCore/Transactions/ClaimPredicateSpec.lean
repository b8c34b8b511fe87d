import Mathlib.Data.Set.Basic
import HcnetCore.Arith.MachineInt
import HcnetCore.Systems.ExceptSpec
import HcnetCore.Transactions.ClaimPredicate

/-!
# What a claim predicate means, and that storing it keeps the meaning

A claimant's predicate says at which close times the claimant may take the balance.
`claimableAt createTime pred` is that set of close times, for a balance created in a
ledger that closed at `createTime`: the specification the two operations are measured
against. Its relative deadlines count from `createTime`.

The source never evaluates a relative deadline. `CreateClaimableBalanceOpFrame::doApply`
rewrites each predicate once, when the balance is created, into one with absolute
deadlines (`updatePredicatesForApply`), and `ClaimClaimableBalanceOpFrame::doApply`
evaluates the stored predicate, throwing on a relative deadline. The results:

* `validatePredicate_iff` — `validatePredicate(pred, depth)` accepts exactly the
  predicates of the shape `Valid true depth`: two parts under `AND` and `OR`, one under
  `NOT`, deadlines not negative, at most `5 - depth` levels;
* `relativeToAbsolute_toInt` — the absolute deadline is the relative one moved to the
  creation time, saturated at `INT64_MAX`;
* `updatePredicatesForApply_valid` — the rewrite succeeds on every accepted predicate
  and yields one of the shape `Valid false depth` (no relative deadline left) with the
  same meaning at every close time below `INT64_MAX`;
* `validatePredicate_eval` — the evaluation of a predicate of that shape never throws
  and answers whether the close time lies in its meaning;
* `updatePredicatesForApply_preserves_meaning` — the two composed: a predicate accepted
  at creation is stored, and evaluated at any later close time below `INT64_MAX` it
  answers whether the claimant may claim by the predicate the operation carried;
* `claim_iff` — the operations composed: after `doCheckValid` accepted the claimants,
  `canClaim` lets an account claim exactly when one of the claimants the operation named
  is that account and its predicate holds. `find_if` looks at the first claimant with
  the account as destination only; the duplicate check of `doCheckValid` is what makes
  that the only one.

Each proof about predicates is an induction on the derivation of `Valid`, one case
per constructor, with the parts' results as the induction hypotheses.
-/

namespace HcnetCore

namespace ClaimableBalance

open Sponsorship (AccountID)
open CreateClaimableBalanceOpFrame

namespace ClaimPredicate

/-! ### The predicates `doCheckValid` accepts -/

/-- The predicates of a well-formed shape at nesting depth `depth`: `AND` and `OR` of
two parts, `NOT` of one, non-negative deadlines, nothing deeper than depth `4`.
`relative` says whether relative deadlines may occur. -/
inductive Valid (relative : Bool) : ℕ → ClaimPredicate → Prop
  | unconditional {d : ℕ} : d ≤ 4 → Valid relative d .CLAIM_PREDICATE_UNCONDITIONAL
  | and {d : ℕ} {p q : ClaimPredicate} : d ≤ 4 → Valid relative (d + 1) p →
      Valid relative (d + 1) q → Valid relative d (.CLAIM_PREDICATE_AND [p, q])
  | or {d : ℕ} {p q : ClaimPredicate} : d ≤ 4 → Valid relative (d + 1) p →
      Valid relative (d + 1) q → Valid relative d (.CLAIM_PREDICATE_OR [p, q])
  | not {d : ℕ} {p : ClaimPredicate} : d ≤ 4 → Valid relative (d + 1) p →
      Valid relative d (.CLAIM_PREDICATE_NOT (some p))
  | beforeAbsolute {d : ℕ} {a : Int64} : d ≤ 4 → 0 ≤ a.toInt →
      Valid relative d (.CLAIM_PREDICATE_BEFORE_ABSOLUTE_TIME a)
  | beforeRelative {d : ℕ} {r : Int64} : relative = true → d ≤ 4 → 0 ≤ r.toInt →
      Valid relative d (.CLAIM_PREDICATE_BEFORE_RELATIVE_TIME r)

/-- A predicate without relative deadlines is a predicate. -/
theorem Valid.relax {d : ℕ} {p : ClaimPredicate} (h : Valid false d p) : Valid true d p := by
  induction h with
  | unconditional hd => exact .unconditional hd
  | and hd _ _ ihp ihq => exact .and hd ihp ihq
  | or hd _ _ ihp ihq => exact .or hd ihp ihq
  | not hd _ ih => exact .not hd ih
  | beforeAbsolute hd ha => exact .beforeAbsolute hd ha
  | beforeRelative hrel => cases hrel

theorem nonneg_iff_toInt {a : Int64} : (a ≥ 0) ↔ 0 ≤ a.toInt := by
  rw [ge_iff_le, Int64.le_iff_toInt_le, Int64.toInt_zero]

/-- Deeper than `4`, nothing passes. -/
theorem validatePredicate_of_gt {pred : ClaimPredicate} {depth : ℕ} (hd : depth > 4) :
    validatePredicate pred depth = false := by
  rw [validatePredicate.eq_def]
  exact if_pos hd

/-- What `validatePredicate` accepts has the shape `Valid true`. -/
theorem valid_of_validatePredicate {pred : ClaimPredicate} {depth : ℕ}
    (h : validatePredicate pred depth = true) : Valid true depth pred := by
  refine validatePredicate.induct
    (fun ps d => validatePredicate.validateBoth ps d = true →
      ∃ p q, ps = [p, q] ∧ Valid true d p ∧ Valid true d q)
    (fun pred d => validatePredicate pred d = true → Valid true d pred)
    ?tooDeep ?unconditional ?and ?or ?notNull ?not ?absolute ?relative ?both ?other
    pred depth h
  case tooDeep =>
    intro p d hd h
    rw [validatePredicate_of_gt hd] at h
    cases h
  case unconditional =>
    intro d hd _
    exact .unconditional (by omega)
  case and =>
    intro d hd ps ih h
    rw [validatePredicate, if_neg hd] at h
    obtain ⟨p, q, rfl, hp, hq⟩ := ih h
    exact .and (by omega) hp hq
  case or =>
    intro d hd ps ih h
    rw [validatePredicate, if_neg hd] at h
    obtain ⟨p, q, rfl, hp, hq⟩ := ih h
    exact .or (by omega) hp hq
  case notNull =>
    intro d hd h
    rw [validatePredicate, if_neg hd] at h
    cases h
  case not =>
    intro d hd p ih h
    rw [validatePredicate, if_neg hd] at h
    exact .not (by omega) (ih h)
  case absolute =>
    intro d hd a h
    rw [validatePredicate, if_neg hd, decide_eq_true_iff, nonneg_iff_toInt] at h
    exact .beforeAbsolute (by omega) h
  case relative =>
    intro d hd r h
    rw [validatePredicate, if_neg hd, decide_eq_true_iff, nonneg_iff_toInt] at h
    exact .beforeRelative rfl (by omega) h
  case both =>
    intro p q d ihp ihq h
    rw [validatePredicate.validateBoth, Bool.and_eq_true] at h
    exact ⟨p, q, rfl, ihp h.1, ihq h.2⟩
  case other =>
    intro ps d hne h
    -- only a list of two parts passes
    match ps, hne with
    | [], _ | [_], _ | _ :: _ :: _ :: _, _ => simp [validatePredicate.validateBoth] at h
    | [p, q], hne => exact absurd rfl (hne p q)

/-- `validatePredicate` accepts every predicate of the shape `Valid true`. -/
theorem validatePredicate_of_valid {pred : ClaimPredicate} {depth : ℕ}
    (h : Valid true depth pred) : validatePredicate pred depth = true := by
  induction h with
  | unconditional hd => rw [validatePredicate, if_neg (by omega)]
  | and hd _ _ ihp ihq =>
    rw [validatePredicate, if_neg (by omega)]
    simp [validatePredicate.validateBoth, ihp, ihq]
  | or hd _ _ ihp ihq =>
    rw [validatePredicate, if_neg (by omega)]
    simp [validatePredicate.validateBoth, ihp, ihq]
  | not hd _ ih => rw [validatePredicate, if_neg (by omega), ih]
  | beforeAbsolute hd ha =>
    rw [validatePredicate, if_neg (by omega), decide_eq_true_iff, nonneg_iff_toInt]
    exact ha
  | beforeRelative _ hd hr =>
    rw [validatePredicate, if_neg (by omega), decide_eq_true_iff, nonneg_iff_toInt]
    exact hr

/-- **The accepted predicates.** `validatePredicate(pred, depth)` accepts exactly the
predicates of the shape `Valid true depth`. -/
theorem validatePredicate_iff {pred : ClaimPredicate} {depth : ℕ} :
    validatePredicate pred depth = true ↔ Valid true depth pred :=
  ⟨valid_of_validatePredicate, validatePredicate_of_valid⟩

/-! ### What a predicate means -/

/-- The close times at which `pred` lets its claimant claim a balance created in a
ledger that closed at `createTime`: before an absolute deadline, before a relative one
counted from `createTime`, and `AND`, `OR` and `NOT` as intersection, union and
complement. -/
def claimableAt (createTime : ℕ) : ClaimPredicate → Set ℕ
  | .CLAIM_PREDICATE_UNCONDITIONAL => Set.univ
  | .CLAIM_PREDICATE_AND andPredicates => (parts andPredicates).1 ∩ (parts andPredicates).2
  | .CLAIM_PREDICATE_OR orPredicates => (parts orPredicates).1 ∪ (parts orPredicates).2
  | .CLAIM_PREDICATE_NOT none => ∅
  | .CLAIM_PREDICATE_NOT (some p) => (claimableAt createTime p)ᶜ
  | .CLAIM_PREDICATE_BEFORE_ABSOLUTE_TIME absBefore => {t | (t : ℤ) < absBefore.toInt}
  | .CLAIM_PREDICATE_BEFORE_RELATIVE_TIME relBefore =>
    {t | (t : ℤ) < createTime + relBefore.toInt}
where
  /-- The meanings of the two parts of an `AND` or an `OR`. -/
  parts : List ClaimPredicate → Set ℕ × Set ℕ
    | [p, q] => (claimableAt createTime p, claimableAt createTime q)
    | _ => (∅, ∅)

section Meaning

variable (c : ℕ)

@[simp] theorem claimableAt_unconditional :
    claimableAt c .CLAIM_PREDICATE_UNCONDITIONAL = Set.univ :=
  rfl

@[simp] theorem claimableAt_and (p q : ClaimPredicate) :
    claimableAt c (.CLAIM_PREDICATE_AND [p, q]) = claimableAt c p ∩ claimableAt c q :=
  rfl

@[simp] theorem claimableAt_or (p q : ClaimPredicate) :
    claimableAt c (.CLAIM_PREDICATE_OR [p, q]) = claimableAt c p ∪ claimableAt c q :=
  rfl

@[simp] theorem claimableAt_not (p : ClaimPredicate) :
    claimableAt c (.CLAIM_PREDICATE_NOT (some p)) = (claimableAt c p)ᶜ :=
  rfl

@[simp] theorem claimableAt_absolute (a : Int64) :
    claimableAt c (.CLAIM_PREDICATE_BEFORE_ABSOLUTE_TIME a) = {t : ℕ | (t : ℤ) < a.toInt} :=
  rfl

@[simp] theorem claimableAt_relative (r : Int64) :
    claimableAt c (.CLAIM_PREDICATE_BEFORE_RELATIVE_TIME r) = {t : ℕ | (t : ℤ) < c + r.toInt} :=
  rfl

end Meaning

/-! ### Storing a predicate -/

/-- **The absolute deadline** `relativeToAbsolute` computes: the relative one counted
from `closeTime`, saturated at `INT64_MAX`. -/
theorem relativeToAbsolute_toInt (closeTime : UInt64) {relative : Int64}
    (hr : 0 ≤ relative.toInt) :
    (relativeToAbsolute closeTime relative).toInt =
      min ((closeTime.toNat : ℤ) + relative.toInt) Numeric.INT64_MAX := by
  have hlt := Int64.toInt_lt relative
  have hmax : Numeric.INT64_MAX = 2 ^ 63 - 1 := rfl
  -- `INT64_MAX - relative`, compared as `uint64_t`, keeps its value
  have hbound : (Int64.maxValue - relative).toUInt64.toNat = 2 ^ 63 - 1 - relative.toInt.toNat := by
    rw [Arith.toNat_toUInt64_of_nonneg (by rw [Arith.toInt_maxValue_sub hr]; omega),
      Arith.toInt_maxValue_sub hr]
    omega
  unfold relativeToAbsolute
  split_ifs with h
  · -- the deadline lies past `INT64_MAX`
    rw [gt_iff_lt, UInt64.lt_iff_toNat_lt, hbound] at h
    rw [Int64.toInt_maxValue]
    omega
  · rw [gt_iff_lt, UInt64.lt_iff_toNat_lt, hbound] at h
    have hsum : (closeTime + relative.toUInt64).toNat = closeTime.toNat + relative.toInt.toNat := by
      rw [UInt64.toNat_add, Arith.toNat_toUInt64_of_nonneg hr]
      omega
    rw [Arith.toInt_toInt64_of_lt (by omega), hsum]
    omega


/-- **The rewrite of `doApply`.** On an accepted predicate `updatePredicatesForApply`
returns; what it returns has no relative deadline, keeps the shape, and means at every
close time below `INT64_MAX` what the predicate meant for a balance created at
`closeTime`. -/
theorem updatePredicatesForApply_valid {d : ℕ} {pred : ClaimPredicate}
    (hv : Valid true d pred) (closeTime : UInt64) :
    ∃ pred', updatePredicatesForApply pred closeTime = .ok pred' ∧ Valid false d pred' ∧
      ∀ c t : ℕ, (t : ℤ) < Numeric.INT64_MAX →
        (t ∈ claimableAt c pred' ↔ t ∈ claimableAt closeTime.toNat pred) := by
  induction hv with
  | unconditional hd => exact ⟨_, rfl, .unconditional hd, fun _ _ _ => Iff.rfl⟩
  | and hd _ _ ihp ihq =>
    obtain ⟨p', hp, vp, mp⟩ := ihp
    obtain ⟨q', hq, vq, mq⟩ := ihq
    refine ⟨.CLAIM_PREDICATE_AND [p', q'], ?_, .and hd vp vq, fun c t ht => ?_⟩
    · simp [updatePredicatesForApply, updatePredicatesForApply.updateBoth, hp, hq]
    · simp only [claimableAt_and, Set.mem_inter_iff, mp c t ht, mq c t ht]
  | or hd _ _ ihp ihq =>
    obtain ⟨p', hp, vp, mp⟩ := ihp
    obtain ⟨q', hq, vq, mq⟩ := ihq
    refine ⟨.CLAIM_PREDICATE_OR [p', q'], ?_, .or hd vp vq, fun c t ht => ?_⟩
    · simp [updatePredicatesForApply, updatePredicatesForApply.updateBoth, hp, hq]
    · simp only [claimableAt_or, Set.mem_union, mp c t ht, mq c t ht]
  | not hd _ ih =>
    obtain ⟨p', hp, vp, mp⟩ := ih
    refine ⟨.CLAIM_PREDICATE_NOT (some p'), ?_, .not hd vp, fun c t ht => ?_⟩
    · simp [updatePredicatesForApply, hp]
    · simp only [claimableAt_not, Set.mem_compl_iff, mp c t ht]
  | beforeAbsolute hd ha => exact ⟨_, rfl, .beforeAbsolute hd ha, fun _ _ _ => Iff.rfl⟩
  | beforeRelative _ hd hr =>
    have hmax : Numeric.INT64_MAX = 2 ^ 63 - 1 := rfl
    refine ⟨_, rfl, .beforeAbsolute hd ?_, fun c t ht => ?_⟩
    · rw [relativeToAbsolute_toInt _ hr]
      omega
    · -- below `INT64_MAX` the saturation makes no difference
      simp only [claimableAt_absolute, claimableAt_relative, Set.mem_ofPred_eq,
        relativeToAbsolute_toInt _ hr]
      omega

/-- **The evaluation of `ClaimClaimableBalanceOpFrame`.** On a predicate without
relative deadlines `validatePredicate(pred, closeTime)` returns, and answers whether
`closeTime` lies in the predicate's meaning. -/
theorem validatePredicate_eval {d : ℕ} {pred : ClaimPredicate} (hv : Valid false d pred)
    (c : ℕ) (closeTime : UInt64) :
    ∃ b, ClaimClaimableBalanceOpFrame.validatePredicate pred closeTime = .ok b ∧
      (b = true ↔ closeTime.toNat ∈ claimableAt c pred) := by
  induction hv with
  | unconditional hd => exact ⟨true, rfl, by simp⟩
  | and hd _ _ ihp ihq =>
    obtain ⟨bp, hp, mp⟩ := ihp
    obtain ⟨bq, hq, mq⟩ := ihq
    -- the second part is read only when the first holds
    refine ⟨bp && bq, ?_, ?_⟩
    · cases bp <;>
        simp [ClaimClaimableBalanceOpFrame.validatePredicate,
          ClaimClaimableBalanceOpFrame.validatePredicate.validateAnd, hp, hq]
    · rw [Bool.and_eq_true, mp, mq, claimableAt_and, Set.mem_inter_iff]
  | or hd _ _ ihp ihq =>
    obtain ⟨bp, hp, mp⟩ := ihp
    obtain ⟨bq, hq, mq⟩ := ihq
    -- the second part is read only when the first fails
    refine ⟨bp || bq, ?_, ?_⟩
    · cases bp <;>
        simp [ClaimClaimableBalanceOpFrame.validatePredicate,
          ClaimClaimableBalanceOpFrame.validatePredicate.validateOr, hp, hq]
    · rw [Bool.or_eq_true, mp, mq, claimableAt_or, Set.mem_union]
  | not hd _ ih =>
    obtain ⟨b, hb, mb⟩ := ih
    refine ⟨!b, by simp [ClaimClaimableBalanceOpFrame.validatePredicate, hb], ?_⟩
    rw [claimableAt_not, Set.mem_compl_iff, ← mb, Bool.not_eq_true']
    cases b <;> simp
  | beforeAbsolute hd ha =>
    -- a deadline that is not negative keeps its value as `uint64_t`
    refine ⟨_, rfl, ?_⟩
    rw [decide_eq_true_iff, gt_iff_lt, UInt64.lt_iff_toNat_lt,
      Arith.toNat_toUInt64_of_nonneg ha, claimableAt_absolute, Set.mem_ofPred_eq]
    omega
  | beforeRelative hrel => cases hrel


/-- **Storing a predicate keeps its meaning.** A predicate that `doCheckValid` accepts
is stored by `doApply` (`updatePredicatesForApply` returns), the stored one passes the
check again, and its evaluation at any close time below `INT64_MAX` returns, and holds
exactly when the claimant may claim by the predicate the operation carried, relative
deadlines counted from the close time of the creating ledger. -/
theorem updatePredicatesForApply_preserves_meaning {pred : ClaimPredicate}
    (hpred : validatePredicate pred 1 = true) (createTime : UInt64) :
    ∃ stored, updatePredicatesForApply pred createTime = .ok stored ∧
      validatePredicate stored 1 = true ∧
      ∀ closeTime : UInt64, (closeTime.toNat : ℤ) < Numeric.INT64_MAX →
        ∃ b, ClaimClaimableBalanceOpFrame.validatePredicate stored closeTime = .ok b ∧
          (b = true ↔ closeTime.toNat ∈ claimableAt createTime.toNat pred) := by
  obtain ⟨stored, hstored, hv, hmeaning⟩ :=
    updatePredicatesForApply_valid (validatePredicate_iff.mp hpred) createTime
  refine ⟨stored, hstored, validatePredicate_iff.mpr hv.relax, fun closeTime ht => ?_⟩
  obtain ⟨b, hb, hbm⟩ := validatePredicate_eval hv 0 closeTime
  exact ⟨b, hb, hbm.trans (hmeaning 0 _ ht)⟩

/-- A claimant who may claim from close time `120` on, and within `50` seconds of the
balance's creation at `100`. -/
theorem updatePredicatesForApply_preserves_meaning_window :
    validatePredicate (.CLAIM_PREDICATE_AND [.CLAIM_PREDICATE_BEFORE_RELATIVE_TIME 50,
      .CLAIM_PREDICATE_NOT (some (.CLAIM_PREDICATE_BEFORE_ABSOLUTE_TIME 120))]) 1 = true ∧
    ∃ stored, updatePredicatesForApply (.CLAIM_PREDICATE_AND
        [.CLAIM_PREDICATE_BEFORE_RELATIVE_TIME 50,
          .CLAIM_PREDICATE_NOT (some (.CLAIM_PREDICATE_BEFORE_ABSOLUTE_TIME 120))]) 100 =
        .ok stored ∧
      validatePredicate stored 1 = true ∧
      ∀ closeTime : UInt64, (closeTime.toNat : ℤ) < Numeric.INT64_MAX →
        ∃ b, ClaimClaimableBalanceOpFrame.validatePredicate stored closeTime = .ok b ∧
          (b = true ↔ closeTime.toNat ∈ claimableAt (100 : UInt64).toNat
            (.CLAIM_PREDICATE_AND [.CLAIM_PREDICATE_BEFORE_RELATIVE_TIME 50,
              .CLAIM_PREDICATE_NOT (some (.CLAIM_PREDICATE_BEFORE_ABSOLUTE_TIME 120))])) :=
  ⟨by decide, updatePredicatesForApply_preserves_meaning (by decide) 100⟩

example : (updatePredicatesForApply (.CLAIM_PREDICATE_AND
    [.CLAIM_PREDICATE_BEFORE_RELATIVE_TIME 50,
      .CLAIM_PREDICATE_NOT (some (.CLAIM_PREDICATE_BEFORE_ABSOLUTE_TIME 120))]) 100 >>=
    (ClaimClaimableBalanceOpFrame.validatePredicate · 130)) = .ok true := by
  decide

end ClaimPredicate

/-! ### Creating a balance and claiming it -/

open ClaimPredicate

/-- The duplicate check of `doCheckValid` passes exactly when the destinations are
distinct and none is in `dests` already. -/
theorem insertDestinations_eq_true {cs : List Claimant} {dests : List AccountID} :
    insertDestinations cs dests = true ↔
      (cs.map (·.destination)).Nodup ∧ ∀ c ∈ cs, c.destination ∉ dests := by
  induction cs generalizing dests with
  | nil => simp [insertDestinations]
  | cons c cs ih =>
    by_cases hc : c.destination ∈ dests
    · simp [insertDestinations, hc]
    · rw [insertDestinations, if_neg hc, ih]
      simp only [List.map_cons, List.nodup_cons, List.mem_map, List.mem_cons,
        forall_eq_or_imp, not_exists, not_and]
      constructor
      · rintro ⟨hnd, hnot⟩
        exact ⟨⟨fun x hx hxc => hnot x hx (Or.inl hxc), hnd⟩, hc,
          fun x hx => fun hxd => hnot x hx (Or.inr hxd)⟩
      · rintro ⟨⟨hnot, hnd⟩, -, hrest⟩
        exact ⟨hnd, fun x hx hxd => hxd.elim (hnot x hx) (hrest x hx)⟩

/-- **What `doCheckValid` accepts**, as far as the claimants go: distinct destinations,
each with an accepted predicate. -/
theorem doCheckValid_eq_true {assetValid : Bool} {amount : Int64} {claimants : List Claimant} :
    doCheckValid assetValid amount claimants = true ↔
      assetValid = true ∧ 0 < amount.toInt ∧ claimants ≠ [] ∧
        (claimants.map (·.destination)).Nodup ∧ ∀ c ∈ claimants, Valid true 1 c.predicate := by
  have hpos : ¬ amount ≤ 0 ↔ 0 < amount.toInt := by
    rw [Int64.le_iff_toInt_le, Int64.toInt_zero]
    omega
  unfold doCheckValid
  by_cases ha : assetValid = true <;> by_cases hamt : amount ≤ 0 <;>
    by_cases hempty : claimants = [] <;>
    simp [ha, hamt, hempty, insertDestinations_eq_true, validatePredicate_iff, ← hpos]

/-- `c'` is how `doApply` stores the claimant `c` of a balance created at `createTime`:
the same destination, and a predicate without relative deadlines that means below
`INT64_MAX` what the claimant's predicate meant. -/
structure StoredAs (createTime : ℕ) (c c' : Claimant) : Prop where
  destination : c'.destination = c.destination
  valid : Valid false 1 c'.predicate
  meaning : ∀ t : ℕ, (t : ℤ) < Numeric.INT64_MAX →
    (t ∈ claimableAt 0 c'.predicate ↔ t ∈ claimableAt createTime c.predicate)

theorem storedClaimants_cons (c : Claimant) (cs : List Claimant) (closeTime : UInt64) :
    storedClaimants (c :: cs) closeTime = (do
      let predicate ← updatePredicatesForApply c.predicate closeTime
      let rest ← storedClaimants cs closeTime
      pure ({ c with predicate } :: rest)) := by
  simp only [storedClaimants, List.mapM_cons, bind_assoc, pure_bind]

/-- `doApply` stores every claimant of an accepted operation, each as `StoredAs`
describes. -/
theorem storedClaimants_spec {cs : List Claimant} (hv : ∀ c ∈ cs, Valid true 1 c.predicate)
    (createTime : UInt64) :
    ∃ stored, storedClaimants cs createTime = .ok stored ∧
      List.Forall₂ (StoredAs createTime.toNat) cs stored := by
  induction cs with
  | nil => exact ⟨[], rfl, .nil⟩
  | cons c cs ih =>
    obtain ⟨p', hp', vp', mp'⟩ :=
      updatePredicatesForApply_valid (hv c (List.mem_cons_self ..)) createTime
    obtain ⟨stored, hstored, hrel⟩ := ih fun x hx => hv x (List.mem_cons_of_mem c hx)
    refine ⟨{ c with predicate := p' } :: stored, ?_, .cons ⟨rfl, vp', mp' 0⟩ hrel⟩
    rw [storedClaimants_cons, hp', Except.ok_bind, hstored]
    rfl

/-- **The test of `ClaimClaimableBalanceOpFrame::doApply`** on stored claimants: with
distinct destinations, the account may claim exactly when it is the destination of a
claimant whose predicate holds. -/
theorem canClaim_spec {createTime : ℕ} {cs stored : List Claimant}
    (h : List.Forall₂ (StoredAs createTime) cs stored) (hnodup : (cs.map (·.destination)).Nodup)
    (sourceID : AccountID) {closeTime : UInt64} (ht : (closeTime.toNat : ℤ) < Numeric.INT64_MAX) :
    ∃ b, ClaimClaimableBalanceOpFrame.canClaim stored sourceID closeTime = .ok b ∧
      (b = true ↔ ∃ c ∈ cs, c.destination = sourceID ∧
        closeTime.toNat ∈ claimableAt createTime c.predicate) := by
  induction h with
  | nil => exact ⟨false, rfl, by simp⟩
  | @cons c c' cs stored hc hrest ih =>
    rw [List.map_cons, List.nodup_cons] at hnodup
    by_cases hs : c.destination = sourceID
    · -- `find_if` stops at `c'`; no later claimant has its destination
      obtain ⟨b, hb, hbm⟩ := validatePredicate_eval hc.valid 0 closeTime
      refine ⟨b, ?_, ?_⟩
      · simp [ClaimClaimableBalanceOpFrame.canClaim, hc.destination, hs, hb]
      · rw [hbm, hc.meaning _ ht]
        constructor
        · exact fun hm => ⟨c, List.mem_cons_self .., hs, hm⟩
        · rintro ⟨x, hx, hxd, hxm⟩
          rcases List.mem_cons.mp hx with rfl | hx
          · exact hxm
          · exact absurd (List.mem_map.mpr ⟨x, hx, hxd.trans hs.symm⟩) hnodup.1
    · -- `find_if` passes over `c'`
      obtain ⟨b, hb, hbm⟩ := ih hnodup.2
      refine ⟨b, ?_, hbm.trans ?_⟩
      · simpa [ClaimClaimableBalanceOpFrame.canClaim, List.find?_cons, hc.destination, hs]
          using hb
      · constructor
        · rintro ⟨x, hx, hxd, hxm⟩
          exact ⟨x, List.mem_cons_of_mem c hx, hxd, hxm⟩
        · rintro ⟨x, hx, hxd, hxm⟩
          rcases List.mem_cons.mp hx with rfl | hx
          · exact absurd hxd hs
          · exact ⟨x, hx, hxd, hxm⟩

/-- **Who may claim a balance.** Once `doCheckValid` accepted the operation,
`doApply` stores its claimants, and at any later close time below `INT64_MAX` the test
of `ClaimClaimableBalanceOpFrame::doApply` returns, and lets an account claim exactly
when the operation named it as a claimant whose predicate holds at that close time,
relative deadlines counted from the close time of the creating ledger. -/
theorem canClaim_iff_claimable {assetValid : Bool} {amount : Int64} {claimants : List Claimant}
    (hcheck : doCheckValid assetValid amount claimants = true) (createTime : UInt64) :
    ∃ stored, storedClaimants claimants createTime = .ok stored ∧
      ∀ (sourceID : AccountID) (closeTime : UInt64), (closeTime.toNat : ℤ) < Numeric.INT64_MAX →
        ∃ b, ClaimClaimableBalanceOpFrame.canClaim stored sourceID closeTime = .ok b ∧
          (b = true ↔ ∃ c ∈ claimants, c.destination = sourceID ∧
            closeTime.toNat ∈ claimableAt createTime.toNat c.predicate) := by
  obtain ⟨-, -, -, hnodup, hvalid⟩ := doCheckValid_eq_true.mp hcheck
  obtain ⟨stored, hstored, hrel⟩ := storedClaimants_spec hvalid createTime
  exact ⟨stored, hstored, fun sourceID _ ht => canClaim_spec hrel hnodup sourceID ht⟩

/-- Two claimants: account `1` within a day of the creation, account `2` afterwards. -/
theorem canClaim_iff_claimable_two_claimants :
    doCheckValid true 10
      [⟨1, .CLAIM_PREDICATE_BEFORE_RELATIVE_TIME 86400⟩,
        ⟨2, .CLAIM_PREDICATE_NOT (some (.CLAIM_PREDICATE_BEFORE_RELATIVE_TIME 86400))⟩] = true ∧
    ∃ stored, storedClaimants
        [⟨1, .CLAIM_PREDICATE_BEFORE_RELATIVE_TIME 86400⟩,
          ⟨2, .CLAIM_PREDICATE_NOT (some (.CLAIM_PREDICATE_BEFORE_RELATIVE_TIME 86400))⟩]
        1000 = .ok stored ∧
      ∀ (sourceID : AccountID) (closeTime : UInt64), (closeTime.toNat : ℤ) < Numeric.INT64_MAX →
        ∃ b, ClaimClaimableBalanceOpFrame.canClaim stored sourceID closeTime = .ok b ∧
          (b = true ↔ ∃ c ∈ [(⟨1, .CLAIM_PREDICATE_BEFORE_RELATIVE_TIME 86400⟩ : Claimant),
              ⟨2, .CLAIM_PREDICATE_NOT (some (.CLAIM_PREDICATE_BEFORE_RELATIVE_TIME 86400))⟩],
            c.destination = sourceID ∧ closeTime.toNat ∈ claimableAt (1000 : UInt64).toNat c.predicate) :=
  ⟨by decide, @canClaim_iff_claimable true 10 _ (by decide) 1000⟩

end ClaimableBalance

end HcnetCore
