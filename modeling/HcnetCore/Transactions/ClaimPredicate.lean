import HcnetCore.Transactions.SponsorshipUtils

/-!
# Claim predicates of claimable balances (`transactions/CreateClaimableBalanceOpFrame.cpp`, `transactions/ClaimClaimableBalanceOpFrame.cpp`)

A claimable balance lists its claimants, each with a `ClaimPredicate` that says when
that claimant may take the balance: always, before an absolute close time, before a
number of seconds after the balance was created, or a combination of these by `AND`,
`OR` and `NOT`. Three places of the source handle predicates:

* `CreateClaimableBalanceOpFrame::doCheckValid` rejects an operation whose claimants
  repeat a destination or whose predicates fail `validatePredicate(pred, 1)`: `AND` and
  `OR` have two parts, `NOT` has one, times are not negative, and no predicate is nested
  more than four deep;
* `CreateClaimableBalanceOpFrame::doApply` stores the claimants with each predicate
  passed through `updatePredicatesForApply`, which replaces every relative deadline by
  the absolute one it stands for (`relativeToAbsolute`, which saturates at `INT64_MAX`);
* `ClaimClaimableBalanceOpFrame::doApply` finds the first claimant whose destination
  is the operation's source account, and lets it claim when that claimant's predicate
  holds at the close time of the current ledger (`validatePredicate(pred, closeTime)`).
  That function knows no relative deadline: it throws on one.

The model keeps the source's data. `andPredicates` and `orPredicates`, XDR vectors of at
most two predicates, are lists, and the functions read their first and second element
with `at` as the source does; `notPredicate`, a pointer, is an `Option`. Times are
`Int64`, a close time (`TimePoint`) is a `UInt64`, and arithmetic wraps as the machine's
does: `INT64_MAX - relative` overflows only for a negative `relative`, which is
undefined in C++ and which `doCheckValid` has rejected before `doApply` runs.
Exceptions are `Except String` errors: `"Invalid ClaimPredicate"` is the source's; `at`
on a short vector throws `std::out_of_range` (`outOfRange`), and the dereference of a
null `notPredicate`, undefined in the source, is `nullNotPredicate`.

Left out: the movement of the amount (the source account's balance or trustline, and
their result codes), the sponsorship of the new entry (modelled in `Sponsorship`), the
balance ID, and `isAssetValid`, whose answer `doCheckValid` takes as a parameter.
-/

namespace HcnetCore

namespace ClaimableBalance

open Sponsorship (AccountID)

/-- `ClaimPredicate`, the XDR union. -/
inductive ClaimPredicate where
  | CLAIM_PREDICATE_UNCONDITIONAL
  | CLAIM_PREDICATE_AND (andPredicates : List ClaimPredicate)
  | CLAIM_PREDICATE_OR (orPredicates : List ClaimPredicate)
  | CLAIM_PREDICATE_NOT (notPredicate : Option ClaimPredicate)
  | CLAIM_PREDICATE_BEFORE_ABSOLUTE_TIME (absBefore : Int64)
  | CLAIM_PREDICATE_BEFORE_RELATIVE_TIME (relBefore : Int64)
deriving Repr

/-- `Claimant`, in its one arm `CLAIMANT_TYPE_V0`. -/
structure Claimant where
  destination : AccountID
  predicate : ClaimPredicate
deriving Repr

/-- The `std::out_of_range` that `at` throws on a vector too short for the index. -/
def outOfRange : String := "std::out_of_range"

/-- The dereference of a null `notPredicate`. -/
def nullNotPredicate : String := "null notPredicate"

namespace CreateClaimableBalanceOpFrame

/-- `relativeToAbsolute(closeTime, relative)`. -/
def relativeToAbsolute (closeTime : UInt64) (relative : Int64) : Int64 :=
  if closeTime > (Int64.maxValue - relative).toUInt64 then Int64.maxValue
  else (closeTime + relative.toUInt64).toInt64

/-- `updatePredicatesForApply(pred, closeTime)`, which rewrites `pred` in place; the
model returns the rewritten predicate. -/
def updatePredicatesForApply : ClaimPredicate → UInt64 → Except String ClaimPredicate
  | .CLAIM_PREDICATE_AND andPredicates, closeTime =>
    .CLAIM_PREDICATE_AND <$> updateBoth andPredicates closeTime
  | .CLAIM_PREDICATE_OR orPredicates, closeTime =>
    .CLAIM_PREDICATE_OR <$> updateBoth orPredicates closeTime
  | .CLAIM_PREDICATE_NOT none, _ => throw nullNotPredicate
  | .CLAIM_PREDICATE_NOT (some p), closeTime =>
    (.CLAIM_PREDICATE_NOT ∘ some) <$> updatePredicatesForApply p closeTime
  | .CLAIM_PREDICATE_BEFORE_RELATIVE_TIME relBefore, closeTime =>
    pure (.CLAIM_PREDICATE_BEFORE_ABSOLUTE_TIME (relativeToAbsolute closeTime relBefore))
  | .CLAIM_PREDICATE_BEFORE_ABSOLUTE_TIME absBefore, _ =>
    pure (.CLAIM_PREDICATE_BEFORE_ABSOLUTE_TIME absBefore)
  | .CLAIM_PREDICATE_UNCONDITIONAL, _ => pure .CLAIM_PREDICATE_UNCONDITIONAL
where
  /-- `updatePredicatesForApply(ps.at(0), closeTime)` then `updatePredicatesForApply(
  ps.at(1), closeTime)`; parts past the second stay as they are. -/
  updateBoth : List ClaimPredicate → UInt64 → Except String (List ClaimPredicate)
    | [], _ => throw outOfRange
    | [p], closeTime => do
      let _ ← updatePredicatesForApply p closeTime
      throw outOfRange
    | p :: q :: rest, closeTime => do
      let p ← updatePredicatesForApply p closeTime
      let q ← updatePredicatesForApply q closeTime
      pure (p :: q :: rest)

/-- `validatePredicate(pred, depth)` of `CreateClaimableBalanceOpFrame.cpp`. -/
def validatePredicate : ClaimPredicate → ℕ → Bool
  | pred, depth =>
    if depth > 4 then false
    else
      match pred with
      | .CLAIM_PREDICATE_UNCONDITIONAL => true
      | .CLAIM_PREDICATE_AND andPredicates => validateBoth andPredicates (depth + 1)
      | .CLAIM_PREDICATE_OR orPredicates => validateBoth orPredicates (depth + 1)
      | .CLAIM_PREDICATE_NOT none => false
      | .CLAIM_PREDICATE_NOT (some p) => validatePredicate p (depth + 1)
      | .CLAIM_PREDICATE_BEFORE_ABSOLUTE_TIME absBefore => absBefore ≥ 0
      | .CLAIM_PREDICATE_BEFORE_RELATIVE_TIME relBefore => relBefore ≥ 0
where
  /-- `ps.size() == 2`, then `validatePredicate(ps[0], depth) && validatePredicate(ps[1],
  depth)`. -/
  validateBoth : List ClaimPredicate → ℕ → Bool
    | [p, q], depth => validatePredicate p depth && validatePredicate q depth
    | _, _ => false

/-- The loop of `doCheckValid` that puts each claimant's destination into `dests`:
false as soon as `emplace` finds one there already. -/
def insertDestinations : List Claimant → List AccountID → Bool
  | [], _ => true
  | c :: cs, dests =>
    if c.destination ∈ dests then false else insertDestinations cs (c.destination :: dests)

/-- `CreateClaimableBalanceOpFrame::doCheckValid`, with the answer of
`isAssetValid(asset, ledgerVersion)` as `assetValid`. False sets
`CREATE_CLAIMABLE_BALANCE_MALFORMED`. -/
def doCheckValid (assetValid : Bool) (amount : Int64) (claimants : List Claimant) : Bool :=
  if !assetValid || amount ≤ 0 || claimants.isEmpty then false
  else if !insertDestinations claimants [] then false
  else claimants.all fun c => validatePredicate c.predicate 1

/-- The claimants `doApply` stores in the new entry: the operation's claimants, each
predicate passed through `updatePredicatesForApply` with the close time of the ledger. -/
def storedClaimants (claimants : List Claimant) (closeTime : UInt64) :
    Except String (List Claimant) :=
  claimants.mapM fun c => do
    let predicate ← updatePredicatesForApply c.predicate closeTime
    pure { c with predicate }

end CreateClaimableBalanceOpFrame

namespace ClaimClaimableBalanceOpFrame

/-- `validatePredicate(pred, closeTime)` of `ClaimClaimableBalanceOpFrame.cpp`: whether
`pred` holds at `closeTime`. A relative deadline falls to the `default` branch. -/
def validatePredicate : ClaimPredicate → UInt64 → Except String Bool
  | .CLAIM_PREDICATE_UNCONDITIONAL, _ => pure true
  | .CLAIM_PREDICATE_AND andPredicates, closeTime => validateAnd andPredicates closeTime
  | .CLAIM_PREDICATE_OR orPredicates, closeTime => validateOr orPredicates closeTime
  | .CLAIM_PREDICATE_NOT none, _ => throw nullNotPredicate
  | .CLAIM_PREDICATE_NOT (some p), closeTime => (!·) <$> validatePredicate p closeTime
  | .CLAIM_PREDICATE_BEFORE_ABSOLUTE_TIME absBefore, closeTime =>
    pure (absBefore.toUInt64 > closeTime)
  | .CLAIM_PREDICATE_BEFORE_RELATIVE_TIME _, _ => throw "Invalid ClaimPredicate"
where
  /-- `validatePredicate(ps.at(0), closeTime) && validatePredicate(ps.at(1), closeTime)`:
  the second part is read only when the first holds. -/
  validateAnd : List ClaimPredicate → UInt64 → Except String Bool
    | [], _ => throw outOfRange
    | [p], closeTime => do
      if ← validatePredicate p closeTime then throw outOfRange else pure false
    | p :: q :: _, closeTime => do
      if ← validatePredicate p closeTime then validatePredicate q closeTime else pure false
  /-- `validatePredicate(ps.at(0), closeTime) || validatePredicate(ps.at(1), closeTime)`:
  the second part is read only when the first fails. -/
  validateOr : List ClaimPredicate → UInt64 → Except String Bool
    | [], _ => throw outOfRange
    | [p], closeTime => do
      if ← validatePredicate p closeTime then pure true else throw outOfRange
    | p :: q :: _, closeTime => do
      if ← validatePredicate p closeTime then pure true else validatePredicate q closeTime

/-- The test of `ClaimClaimableBalanceOpFrame::doApply`: the first claimant whose
destination is the operation's source account, and its predicate at the close time of
the ledger. False gives `CLAIM_CLAIMABLE_BALANCE_CANNOT_CLAIM`. -/
def canClaim (claimants : List Claimant) (sourceID : AccountID) (closeTime : UInt64) :
    Except String Bool :=
  match claimants.find? (·.destination == sourceID) with
  | none => pure false
  | some c => validatePredicate c.predicate closeTime

end ClaimClaimableBalanceOpFrame

end ClaimableBalance

end HcnetCore
