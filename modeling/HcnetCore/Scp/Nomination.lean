import HcnetCore.Scp.QuorumSet
import HcnetCore.Order.SortedList

/-!
# The nomination protocol of a slot

An embedding of `NominationProtocol` (`NominationProtocol.cpp`): the state of the
nomination phase of one slot and its three entry points, `processEnvelope`,
`nominate` and `stopNomination`.

The state is `NominationProtocol`: the sets `X` (`mVotes`), `Y` (`mAccepted`) and
`Z` (`mCandidates`) of the SCP paper, the latest nomination of every node, the
round leaders, and the bookkeeping of rounds. Value sets are `Finset`s over a
linearly ordered value type; the code's `ValueWrapperPtrSet` is ordered by the
values, so its serialisation in `emitNomination` is `SortedList.toSortedList`.

## The slot around the protocol

The protocol calls back into its `Slot` in two ways, both modelled explicitly:

* `emitNomination` processes the node's own new statement through
  `Slot::processEnvelope`, i.e. re-enters `processEnvelope`. The recursion is
  not bounded in the code, so `processEnvelope` takes a fuel argument and
  answers `SCPError.noReturn` when it runs out: a run of the model that returns
  is a run of the code that returns, and the code's non-returning runs are those
  that run out of every fuel.
* New candidates are handed to the ballot protocol through `Slot::bumpState`.
  The ballot protocol is a parameter here (`SlotHooks`): a function on an
  arbitrary ballot state `σ` that may fail and may call `stopNomination`.

The `SCPDriver` callbacks the protocol reads (value validation and extraction,
quorum-set lookup, the two hash functions, candidate combination) form the
structure `SCPDriver`. Callbacks that only report to the application
(`nominatingValue`, `updatedCandidateValue`, timers, the statement history) do not
affect the state and are left out.

`updateRoundLeaders` normalises the local quorum set with the local node removed
and loops until the leader set grows, bumping the round each time it does not. The
loop is bounded by the same fuel. The model normalises with `normalizeQSetSimplify`
and leaves out the reordering step of `normalizeQSet`, which only permutes validators
and inner sets. That is exact when every node appears once in the set, as
`isQuorumSetSane` enforces and the source's comment assumes ("node IDs here are
unique"): the count of possible leaders and the set of top-priority nodes do not
depend on the enumeration order then. A node listed in two inner sets could get
another weight, since `getNodeWeight` returns its weight in the first inner set that
gives it a positive one.
-/

namespace HcnetCore
namespace Scp

/-- `SCPDriver::ValidationLevel`. -/
inductive ValidationLevel where
  | kInvalidValue
  | kMaybeValidValue
  | kFullyValidatedValue
deriving DecidableEq, Repr

/-- `SCP::EnvelopeState`. -/
inductive EnvelopeState where
  | INVALID
  | VALID
deriving DecidableEq, Repr

/-- The `SCPDriver` callbacks that the protocols read. `none` stands for the empty
`Value` that `mPreviousValue` holds before the first `nominate`. -/
structure SCPDriver (N V H : Type) where
  /-- `validateValue(slotIndex, value, nomination)`. -/
  validateValue : Nat → V → Bool → ValidationLevel
  /-- `extractValidValue(slotIndex, value)`. -/
  extractValidValue : Nat → V → Option V
  /-- `getQSet(hash)`: the quorum set with that hash, if known. -/
  getQSet : H → Option (SCPQuorumSet N)
  /-- `computeHashNode(slotIndex, prev, isPriority, roundNumber, nodeID)`. -/
  computeHashNode : Nat → Option V → Bool → Nat → N → Nat
  /-- `computeValueHash(slotIndex, prev, roundNumber, value)`. -/
  computeValueHash : Nat → Option V → Nat → V → Nat
  /-- `combineCandidates(slotIndex, candidates)`. -/
  combineCandidates : Nat → Finset V → V

/-- What a slot knows about its own node: the slot index, the local node and its
(normalised) quorum set with its hash, and the driver. -/
structure SlotContext (N V H : Type) where
  slotIndex : Nat
  localNodeID : N
  localQSet : SCPQuorumSet N
  localQSetHash : H
  driver : SCPDriver N V H

/-- The errors a call into the consensus code can end in. -/
inductive SCPError (E : Type) where
  /-- A `std::runtime_error` thrown by the nomination protocol. -/
  | runtimeError (what : String)
  /-- A failed `releaseAssert`. -/
  | assertFailed (what : String)
  /-- An exception raised by the ballot protocol during `bumpState`. -/
  | ballot (e : E)
  /-- The call did not return within the fuel: the code recursed or looped on. -/
  | noReturn
deriving DecidableEq, Repr

/-- The ballot protocol as seen from the nomination protocol. -/
structure SlotHooks (σ V E : Type) where
  /-- `Slot::bumpState(value, force)`; the flag reports whether the ballot protocol
  called `Slot::stopNomination` on the way. -/
  bumpState : V → Bool → σ → Except E (σ × Bool)
  /-- `Slot::isFullyValidated`. -/
  isFullyValidated : σ → Bool

/-- The state of `NominationProtocol`. -/
structure NominationProtocol (N V H : Type) where
  mRoundNumber : Nat
  /-- `X`: the values voted for. -/
  mVotes : Finset V
  /-- `Y`: the values accepted as nominated. -/
  mAccepted : Finset V
  /-- `Z`: the values confirmed nominated. -/
  mCandidates : Finset V
  /-- The latest nomination received from (or emitted by) each node. -/
  mLatestNominations : AList (fun _ : N => SCPNomination V H)
  /-- The last nomination the node emitted. -/
  mLastEnvelope : Option (SCPNomination V H)
  mRoundLeaders : Finset N
  mNominationStarted : Bool
  mLatestCompositeCandidate : Option V
  mPreviousValue : Option V
  mTimerExpCount : Nat
deriving DecidableEq

/-- A slot as far as nomination is concerned: the nomination state and the state
of the ballot protocol next to it. -/
structure Slot (N V H σ : Type) where
  nomination : NominationProtocol N V H
  ballot : σ
deriving DecidableEq

namespace NominationProtocol

variable {N V H σ E : Type} [LinearOrder N] [LinearOrder V]

/-- The state of a freshly created slot (`NominationProtocol::NominationProtocol`). -/
def init : NominationProtocol N V H where
  mRoundNumber := 0
  mVotes := ∅
  mAccepted := ∅
  mCandidates := ∅
  mLatestNominations := ∅
  mLastEnvelope := none
  mRoundLeaders := ∅
  mNominationStarted := false
  mLatestCompositeCandidate := none
  mPreviousValue := none
  mTimerExpCount := 0

/-! ### Comparing and checking statements -/

/-- `isSubsetHelper(p, v, notEqual)`: whether `p` is included in `v` (by
`std::includes`), and whether they differ. -/
def isSubsetHelper (p v : List V) : Bool × Bool :=
  if p.length ≤ v.length then
    let res := SortedList.includes v p
    (res, if res then decide (p.length ≠ v.length) else true)
  else (false, true)

/-- `isNewerStatement(oldst, st)`: both lists of `oldst` are included in those of
`st`, and at least one of them grew. -/
def isNewerStatement (oldst st : SCPNomination V H) : Bool :=
  let (votesIncluded, votesGrew) := isSubsetHelper oldst.votes st.votes
  if votesIncluded then
    let (acceptedIncluded, acceptedGrew) := isSubsetHelper oldst.accepted st.accepted
    if acceptedIncluded then votesGrew || acceptedGrew else false
  else false

/-- `isNewerStatement(nodeID, st)`: newer than the latest nomination of that node,
if there is one. -/
def isNewerStatementFrom (p : NominationProtocol N V H) (nodeID : N)
    (st : SCPNomination V H) : Bool :=
  match p.mLatestNominations.lookup nodeID with
  | none => true
  | some old => isNewerStatement old st

/-- `isSane`: some value is mentioned, and both lists are strictly increasing. -/
def isSane (nom : SCPNomination V H) : Bool :=
  decide (nom.votes.length + nom.accepted.length ≠ 0) &&
    (SortedList.adjacentFind (fun l r => !decide (l < r)) nom.votes).isNone &&
    (SortedList.adjacentFind (fun l r => !decide (l < r)) nom.accepted).isNone

/-- `recordEnvelope`: the statement becomes the latest one of its node. -/
def recordEnvelope (p : NominationProtocol N V H) (nodeID : N) (nom : SCPNomination V H) :
    NominationProtocol N V H :=
  { p with mLatestNominations := p.mLatestNominations.insert nodeID nom }

/-- `stopNomination`. -/
def stopNomination (p : NominationProtocol N V H) : NominationProtocol N V H :=
  { p with mNominationStarted := false }

/-! ### Reading the driver -/

/-- `validateValue(v)`: the driver's verdict in nomination mode. -/
def validateValue (ctx : SlotContext N V H) (v : V) : ValidationLevel :=
  ctx.driver.validateValue ctx.slotIndex v true

/-- `extractValidValue(v)`. -/
def extractValidValue (ctx : SlotContext N V H) (v : V) : Option V :=
  ctx.driver.extractValidValue ctx.slotIndex v

/-- `hashValue(value)`. -/
def hashValue (ctx : SlotContext N V H) (p : NominationProtocol N V H) (value : V) : Nat :=
  ctx.driver.computeValueHash ctx.slotIndex p.mPreviousValue p.mRoundNumber value

/-- `hashNode(isPriority, nodeID)`. -/
def hashNode (ctx : SlotContext N V H) (p : NominationProtocol N V H) (isPriority : Bool)
    (nodeID : N) : Nat :=
  ctx.driver.computeHashNode ctx.slotIndex p.mPreviousValue isPriority p.mRoundNumber nodeID

/-- `Slot::federatedAccept` over the latest nominations. -/
def federatedAccept (ctx : SlotContext N V H) (voted accepted : SCPNomination V H → Bool)
    (envs : AList (fun _ : N => SCPNomination V H)) : Bool :=
  LocalNode.federatedAccept ctx.localQSet (fun nom => ctx.driver.getQSet nom.quorumSetHash)
    voted accepted envs

/-- `Slot::federatedRatify` over the latest nominations. -/
def federatedRatify (ctx : SlotContext N V H) (voted : SCPNomination V H → Bool)
    (envs : AList (fun _ : N => SCPNomination V H)) : Bool :=
  LocalNode.federatedRatify ctx.localQSet (fun nom => ctx.driver.getQSet nom.quorumSetHash)
    voted envs

/-- `acceptPredicate(v, st)`: the statement accepted `v`. -/
def acceptPredicate (v : V) (nom : SCPNomination V H) : Bool := decide (v ∈ nom.accepted)

/-- The voting predicate of the votes loop: the statement votes for `v`. -/
def votePredicate (v : V) (nom : SCPNomination V H) : Bool := decide (v ∈ nom.votes)

/-! ### Growing `X`, `Y` and `Z` -/

/-- `applyAll`: the votes, then the accepted values that are not votes. -/
def applyAll (nom : SCPNomination V H) : List V :=
  nom.votes ++ nom.accepted.filter (fun a => decide (a ∉ nom.votes))

/-- One step of `getNewValueFromNomination`'s scan: keep the value to nominate with
the highest hash among those not voted for yet (later ones win ties). -/
def newValueStep (ctx : SlotContext N V H) (p : NominationProtocol N V H)
    (best : Option V × Nat) (value : V) : Option V × Nat :=
  let valueToNominate :=
    if validateValue ctx value = .kFullyValidatedValue then some value
    else extractValidValue ctx value
  match valueToNominate with
  | some x =>
    if x ∉ p.mVotes then
      let curHash := hashValue ctx p x
      if curHash ≥ best.2 then (some x, curHash) else best
    else best
  | none => best

/-- `getNewValueFromNomination(nom)`: the highest-hash value of a leader's
statement, after validation or extraction, that is not yet a vote. -/
def getNewValueFromNomination (ctx : SlotContext N V H) (p : NominationProtocol N V H)
    (nom : SCPNomination V H) : Option V :=
  ((applyAll nom).foldl (newValueStep ctx p) (none, 0)).1

/-- One iteration of `processEnvelope`'s votes loop: try to accept the vote `v`,
falling back to voting for an extracted valid variant. The flag is `modified`. -/
def acceptVote (ctx : SlotContext N V H) (p : NominationProtocol N V H) (v : V) :
    NominationProtocol N V H × Bool :=
  if v ∈ p.mAccepted then (p, false)
  else if federatedAccept ctx (votePredicate v) (acceptPredicate v) p.mLatestNominations then
    if validateValue ctx v = .kFullyValidatedValue then
      ({ p with mAccepted := insert v p.mAccepted, mVotes := insert v p.mVotes }, true)
    else
      match extractValidValue ctx v with
      | some toVote =>
        if toVote ∈ p.mVotes then (p, false)
        else ({ p with mVotes := insert toVote p.mVotes }, true)
      | none => (p, false)
  else (p, false)

/-- The votes loop of `processEnvelope`. -/
def acceptVotes (ctx : SlotContext N V H) (p : NominationProtocol N V H) :
    List V → NominationProtocol N V H × Bool
  | [] => (p, false)
  | v :: vs =>
    let r := acceptVote ctx p v
    let rs := acceptVotes ctx r.1 vs
    (rs.1, r.2 || rs.2)

/-- The candidates loop of `processEnvelope`: every accepted value that a quorum
accepted becomes a candidate. The loop walks `mAccepted`, which it does not
change, and its test does not read `mCandidates`, so it adds exactly the filtered
set. The flag is `newCandidates`. -/
def promoteCandidates (ctx : SlotContext N V H) (p : NominationProtocol N V H) :
    NominationProtocol N V H × Bool :=
  let fresh := p.mAccepted.filter (fun a =>
    a ∉ p.mCandidates ∧ federatedRatify ctx (acceptPredicate a) p.mLatestNominations = true)
  ({ p with mCandidates := p.mCandidates ∪ fresh }, decide fresh.Nonempty)

/-- The round-leader step of `processEnvelope`: while there is no candidate, a
statement from a round leader contributes its best new value. -/
def leaderVote (ctx : SlotContext N V H) (p : NominationProtocol N V H) (nodeID : N)
    (nom : SCPNomination V H) : NominationProtocol N V H × Bool :=
  if p.mCandidates = ∅ ∧ nodeID ∈ p.mRoundLeaders then
    match getNewValueFromNomination ctx p nom with
    | some newVote => ({ p with mVotes := insert newVote p.mVotes }, true)
    | none => (p, false)
  else (p, false)

/-- The "other leaders" loop of `nominate`, over the leaders in node order. -/
def leaderVotes (ctx : SlotContext N V H) (p : NominationProtocol N V H) :
    List N → NominationProtocol N V H × Bool
  | [] => (p, false)
  | leader :: ls =>
    let r : NominationProtocol N V H × Bool :=
      match p.mLatestNominations.lookup leader with
      | some nom =>
        match getNewValueFromNomination ctx p nom with
        | some lnmV => ({ p with mVotes := insert lnmV p.mVotes }, true)
        | none => (p, false)
      | none => (p, false)
    let rs := leaderVotes ctx r.1 ls
    (rs.1, r.2 || rs.2)

/-! ### Round leaders -/

/-- `getNodePriority(nodeID, qset)`: the priority hash of a node whose
neighbourhood hash falls under its weight, `0` otherwise. -/
def getNodePriority (ctx : SlotContext N V H) (p : NominationProtocol N V H) (nodeID : N)
    (qset : SCPQuorumSet N) : Except String Nat := do
  let w ← if nodeID = ctx.localNodeID then pure UINT64_MAX
    else LocalNode.getNodeWeight nodeID qset
  if w > 0 ∧ hashNode ctx p false nodeID ≤ w then pure (hashNode ctx p true nodeID)
  else pure 0

/-- One pass of `updateRoundLeaders`: the nodes of top priority, starting from the
local node alone with its own priority. -/
def topPriorityNodes (ctx : SlotContext N V H) (p : NominationProtocol N V H)
    (myQSet : SCPQuorumSet N) : Except String (Finset N) := do
  let top ← getNodePriority ctx p ctx.localNodeID myQSet
  let r ← (LocalNode.forAllNodes myQSet).foldlM (fun (acc : Nat × Finset N) cur => do
      let w ← getNodePriority ctx p cur myQSet
      let acc := if w > acc.1 then (w, ∅) else acc
      pure (if w = acc.1 ∧ w > 0 then (acc.1, insert cur acc.2) else acc))
    (top, {ctx.localNodeID})
  pure r.2

/-- The `while` loop of `updateRoundLeaders`: add the leaders of the round; if
that added nobody, move to the next round and try again. -/
def roundLeadersLoop (ctx : SlotContext N V H) (myQSet : SCPQuorumSet N)
    (maxLeaderCount : Nat) : Nat → NominationProtocol N V H →
      Except (SCPError E) (NominationProtocol N V H)
  | 0, _ => throw .noReturn
  | fuel + 1, p =>
    if p.mRoundLeaders.card < maxLeaderCount then
      match topPriorityNodes ctx p myQSet with
      | .error msg => throw (.assertFailed msg)
      | .ok newRoundLeaders =>
        let leaders := p.mRoundLeaders ∪ newRoundLeaders
        if leaders.card ≠ p.mRoundLeaders.card then pure { p with mRoundLeaders := leaders }
        else roundLeadersLoop ctx myQSet maxLeaderCount fuel
          { p with mRoundLeaders := leaders, mRoundNumber := p.mRoundNumber + 1 }
    else pure p

/-- `updateRoundLeaders`. -/
def updateRoundLeaders (ctx : SlotContext N V H) (fuel : Nat) (p : NominationProtocol N V H) :
    Except (SCPError E) (NominationProtocol N V H) :=
  let myQSet := LocalNode.normalizeQSetSimplify (some ctx.localNodeID) ctx.localQSet
  roundLeadersLoop ctx myQSet (1 + (LocalNode.forAllNodes myQSet).length) fuel p

/-! ### The entry points -/

/-- The statement `emitNomination` builds from the current votes and accepted
values, in increasing order. -/
def nominationStatement (ctx : SlotContext N V H) (p : NominationProtocol N V H) :
    SCPNomination V H :=
  ⟨ctx.localQSetHash, SortedList.toSortedList p.mVotes, SortedList.toSortedList p.mAccepted⟩

/-- `emitNomination`, given the slot's `processEnvelope`: process the node's own
statement; it must be valid. It becomes the last emitted envelope if it is newer
than the previous one. -/
def emitNomination (ctx : SlotContext N V H)
    (process : N → SCPNomination V H → Slot N V H σ →
      Except (SCPError E) (EnvelopeState × Slot N V H σ))
    (s : Slot N V H σ) : Except (SCPError E) (Slot N V H σ) := do
  let st := nominationStatement ctx s.nomination
  let (res, s) ← process ctx.localNodeID st s
  if res = .VALID then
    let newer := match s.nomination.mLastEnvelope with
      | none => true
      | some last => isNewerStatement last st
    if newer then pure { s with nomination := { s.nomination with mLastEnvelope := some st } }
    else pure s
  else throw (.runtimeError "moved to a bad state (nomination)")

/-- The end of `processEnvelope` when new candidates appeared: combine them and
hand the composite value to the ballot protocol. -/
def candidatesUpdated (ctx : SlotContext N V H) (hooks : SlotHooks σ V E)
    (s : Slot N V H σ) : Except (SCPError E) (Slot N V H σ) :=
  let composite := ctx.driver.combineCandidates ctx.slotIndex s.nomination.mCandidates
  let p := { s.nomination with mLatestCompositeCandidate := some composite }
  match hooks.bumpState composite false s.ballot with
  | .error e => throw (.ballot e)
  | .ok (b, stopped) => pure ⟨if stopped then stopNomination p else p, b⟩

/-- `processEnvelope(nodeID, nom)` through `Slot::processEnvelope`: reject stale or
insane statements, record the statement, and, once nomination has started,
accept votes, promote candidates, take a leader's vote, emit, and report new
candidates to the ballot protocol. -/
def processEnvelope (ctx : SlotContext N V H) (hooks : SlotHooks σ V E) :
    Nat → N → SCPNomination V H → Slot N V H σ →
      Except (SCPError E) (EnvelopeState × Slot N V H σ)
  | 0, _, _, _ => throw .noReturn
  | fuel + 1, nodeID, nom, s =>
    if !isNewerStatementFrom s.nomination nodeID nom then pure (.INVALID, s)
    else if !isSane nom then pure (.INVALID, s)
    else
      let p := recordEnvelope s.nomination nodeID nom
      if p.mNominationStarted then do
        let r₁ := acceptVotes ctx p nom.votes
        let r₂ := promoteCandidates ctx r₁.1
        let r₃ := leaderVote ctx r₂.1 nodeID nom
        let s ← if r₁.2 || r₃.2 then
            emitNomination ctx (processEnvelope ctx hooks fuel) ⟨r₃.1, s.ballot⟩
          else pure ⟨r₃.1, s.ballot⟩
        let s ← if r₂.2 then candidatesUpdated ctx hooks s else pure s
        pure (.VALID, s)
      else pure (.VALID, ⟨p, s.ballot⟩)

/-- `nominate(value, previousValue, timedout)`: start or continue nomination,
update the round leaders, vote for the own value when leading and for the best
new value of every leader, and emit if anything changed. -/
def nominate (ctx : SlotContext N V H) (hooks : SlotHooks σ V E) (fuel : Nat)
    (value previousValue : V) (timedout : Bool) (s : Slot N V H σ) :
    Except (SCPError E) (Bool × Slot N V H σ) := do
  let p := if timedout then { s.nomination with mTimerExpCount := s.nomination.mTimerExpCount + 1 }
    else s.nomination
  if timedout && !p.mNominationStarted then return (false, ⟨p, s.ballot⟩)
  let p ← updateRoundLeaders ctx fuel
    { p with mNominationStarted := true, mPreviousValue := some previousValue,
             mRoundNumber := p.mRoundNumber + 1 }
  let r₁ : NominationProtocol N V H × Bool :=
    if ctx.localNodeID ∈ p.mRoundLeaders ∧ value ∉ p.mVotes then
      ({ p with mVotes := insert value p.mVotes }, true)
    else (p, false)
  let r₂ := leaderVotes ctx r₁.1 (SortedList.toSortedList r₁.1.mRoundLeaders)
  if r₁.2 || r₂.2 then
    let s ← emitNomination ctx (processEnvelope ctx hooks fuel) ⟨r₂.1, s.ballot⟩
    pure (true, s)
  else pure (false, ⟨r₂.1, s.ballot⟩)

end NominationProtocol

end Scp
end HcnetCore
