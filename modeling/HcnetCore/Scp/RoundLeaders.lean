import HcnetCore.Scp.Nomination
import HcnetCore.Systems.ExceptSpec

/-!
# Round leaders and node weights

`updateRoundLeaders` normalises the local quorum set with the local node removed, counts
the local node and every node left in it as possible leaders (`maxLeaderCount`), and
loops, one round after the other, until the leader set grows.

Removing the local node lowers, by one, the threshold of every set that lists it. A set
of threshold `1` that lists it is left with threshold `0`, and `computeWeight` then gives
each of its other validators the weight `⌈m · 0 / n⌉ = 0`: their priority is `0` in
every round, and they never lead. They still count towards `maxLeaderCount`. Once every
node of positive weight has led, no round adds a leader and the loop never ends.

`updateRoundLeaders_spins` shows this on the smallest case: the local quorum set
`{t: 1, v: [self, a]}` passes `isQuorumSetSane(q, false)`, normalises to
`{t: 0, v: [a]}` where `a` has weight `0`, and once `self` leads, `updateRoundLeaders`
runs out of every fuel, whatever the hash functions of the driver.
-/

namespace HcnetCore
namespace Scp
namespace NominationProtocol

variable {N V H E : Type} [LinearOrder N]

open LocalNode

/-- Removing `self` from `{t: 1, v: [self, a]}` leaves `{t: 0, v: [a]}`. -/
theorem normalizeQSetSimplify_pair {self a : N} (ha : a ≠ self) :
    normalizeQSetSimplify (some self) (.mk 1 [self, a] []) = .mk 0 [a] [] := by
  simp [normalizeQSetSimplify, normalizeInnerSets, ha]

/-- A validator of a set of threshold `0` has weight `0`. -/
theorem getNodeWeight_zero_threshold (a : N) :
    getNodeWeight a (.mk 0 [a] []) = .ok 0 := by
  -- by unfolding alone: the equation lemmas of the mutual definition are not needed
  show (if a ∈ [a] then computeWeight UINT64_MAX ([].length + [a].length) 0 else _) = _
  rw [if_pos (List.mem_singleton_self a), List.length_nil, List.length_singleton]
  decide

/-- Another node's priority is `0` when its weight is: the neighbourhood draw is never
under a zero weight. -/
theorem getNodePriority_zero_threshold (ctx : SlotContext N V H) (p : NominationProtocol N V H)
    {a : N} (ha : a ≠ ctx.localNodeID) :
    getNodePriority ctx p a (.mk 0 [a] []) = .ok 0 := by
  rw [getNodePriority, if_neg ha, getNodeWeight_zero_threshold, Except.ok_bind]
  -- a zero weight fails the draw
  exact if_neg (fun h => Nat.lt_irrefl 0 h.1)

/-- The local node's priority never fails: its weight is `UINT64_MAX` whatever the set. -/
theorem getNodePriority_local (ctx : SlotContext N V H) (p : NominationProtocol N V H)
    (q : SCPQuorumSet N) : ∃ top, getNodePriority ctx p ctx.localNodeID q = .ok top := by
  rw [getNodePriority, if_pos rfl, pure_bind]
  dsimp only
  split <;> exact ⟨_, rfl⟩

/-- A round over `{t: 0, v: [a]}` leads with the local node alone: `a` has priority
`0`, which neither beats nor ties a leader. -/
theorem topPriorityNodes_zero_threshold (ctx : SlotContext N V H) (p : NominationProtocol N V H)
    {a : N} (ha : a ≠ ctx.localNodeID) :
    topPriorityNodes ctx p (.mk 0 [a] []) = .ok {ctx.localNodeID} := by
  obtain ⟨top, htop⟩ := getNodePriority_local ctx p (.mk 0 [a] [])
  have hnodes : forAllNodes (.mk 0 [a] [] : SCPQuorumSet N) = [a] := by
    simp [forAllNodes, forAllNodesList]
  simp only [topPriorityNodes, htop, hnodes, List.foldlM_cons, List.foldlM_nil,
    getNodePriority_zero_threshold ctx p ha, Except.ok_bind]
  simp

/-- The loop of `updateRoundLeaders` over `{t: 0, v: [a]}` with room for two leaders
never ends once the local node leads: each round adds nobody. -/
theorem roundLeadersLoop_spins (ctx : SlotContext N V H) {a : N} (ha : a ≠ ctx.localNodeID) :
    ∀ (fuel : ℕ) (p : NominationProtocol N V H), p.mRoundLeaders = {ctx.localNodeID} →
      (roundLeadersLoop ctx (.mk 0 [a] []) 2 fuel p : Except (SCPError E) _) = .error .noReturn
  | 0, _, _ => rfl
  | fuel + 1, p, hp => by
    rw [roundLeadersLoop, hp, if_pos (by simp), topPriorityNodes_zero_threshold ctx p ha]
    simp only [Finset.union_idempotent, ne_eq, not_true_eq_false, if_false]
    exact roundLeadersLoop_spins ctx ha fuel _ rfl

/-- **`updateRoundLeaders` can spin forever on a sane quorum set.** For the local quorum
set `{t: 1, v: [self, a]}`: it passes `isQuorumSetSane(q, false)`; `a` is a node of
`normalizeQSet(q, &self)` with weight `0` there; and once `self` is the leader, every
run of `updateRoundLeaders` runs out of fuel, for any driver. -/
theorem updateRoundLeaders_spins (ctx : SlotContext N V H) {a : N} (ha : a ≠ ctx.localNodeID)
    (hq : ctx.localQSet = .mk 1 [ctx.localNodeID, a] []) :
    isQuorumSetSane ctx.localQSet false = true ∧
      a ∈ forAllNodes (normalizeQSet ctx.localQSet (some ctx.localNodeID)) ∧
      getNodeWeight a (normalizeQSet ctx.localQSet (some ctx.localNodeID)) = .ok 0 ∧
      ∀ (fuel : ℕ) (p : NominationProtocol N V H), p.mRoundLeaders = {ctx.localNodeID} →
        (updateRoundLeaders ctx fuel p : Except (SCPError E) _) = .error .noReturn := by
  have hnorm : normalizeQSet ctx.localQSet (some ctx.localNodeID) = .mk 0 [a] [] := by
    rw [normalizeQSet, hq, normalizeQSetSimplify_pair ha]
    simp [normalizeQuorumSetReorder, normalizeQuorumSetReorderList, stdSort]
  refine ⟨?_, ?_, ?_, fun fuel p hp => ?_⟩
  · rw [hq]
    simp [isQuorumSetSane, checkQuorumSetSanity, checkSanity, checkSanityList, insertKnownNodes,
      MAXIMUM_QUORUM_NESTING_LEVEL, ha]
  · simp [hnorm, forAllNodes, forAllNodesList]
  · rw [hnorm, getNodeWeight_zero_threshold]
  · -- `maxLeaderCount` counts `self` and `a`
    have hloop : (updateRoundLeaders ctx fuel p : Except (SCPError E) _) =
        roundLeadersLoop ctx (.mk 0 [a] []) 2 fuel p := by
      simp only [updateRoundLeaders, hq, normalizeQSetSimplify_pair ha]
      rfl
    rw [hloop]
    exact roundLeadersLoop_spins ctx ha fuel p hp

/-- A slot of node `0` whose quorum set is `{t: 1, v: [0, 1]}`, with a driver that
validates nothing and hashes everything to `0`. -/
def pairSlotContext : SlotContext ℕ ℕ ℕ where
  slotIndex := 0
  localNodeID := 0
  localQSet := .mk 1 [0, 1] []
  localQSetHash := 0
  driver :=
    { validateValue := fun _ _ _ => .kInvalidValue
      extractValidValue := fun _ _ => none
      getQSet := fun _ => none
      computeHashNode := fun _ _ _ _ _ => 0
      computeValueHash := fun _ _ _ _ => 0
      combineCandidates := fun _ _ => 0 }

/-- Node `0` with the quorum set `{t: 1, v: [0, 1]}`. -/
theorem updateRoundLeaders_spins_pair :
    (1 : ℕ) ≠ pairSlotContext.localNodeID ∧
      pairSlotContext.localQSet = .mk 1 [pairSlotContext.localNodeID, 1] [] ∧
      (isQuorumSetSane pairSlotContext.localQSet false = true ∧
        1 ∈ forAllNodes (normalizeQSet pairSlotContext.localQSet (some pairSlotContext.localNodeID)) ∧
        getNodeWeight 1 (normalizeQSet pairSlotContext.localQSet
          (some pairSlotContext.localNodeID)) = .ok 0 ∧
        ∀ (fuel : ℕ) (p : NominationProtocol ℕ ℕ ℕ),
          p.mRoundLeaders = {pairSlotContext.localNodeID} →
            (updateRoundLeaders pairSlotContext fuel p : Except (SCPError Unit) _) = .error .noReturn) :=
  ⟨by decide, rfl, updateRoundLeaders_spins pairSlotContext (by decide) rfl⟩

end NominationProtocol
end Scp
end HcnetCore
