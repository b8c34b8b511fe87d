import HcnetCore.Scp.Types
import Mathlib.Data.List.AList
import Mathlib.Data.List.Sort

/-!
# Quorum sets and the local node's quorum logic

`SCPQuorumSet` is the XDR quorum-set tree: a threshold over a list of validators
and a list of inner quorum sets. This module embeds the functions of `LocalNode`
and `QuorumSetUtils` that the consensus protocols call:

* `forAllNodes` — the validators of a quorum set, in enumeration order;
* `normalizeQSetSimplify` — removal of one node (lowering the threshold) and
  flattening of singleton inner sets;
* `getNodeWeight` / `computeWeight` — the weight of a node used for leader
  election;
* `isQuorumSlice` / `isVBlocking` — the two threshold scans over a node list;
* `isVBlockingFiltered` and `isQuorum` — the same over a map of latest statements,
  `isQuorum` with its shrinking fixpoint loop;
* `federatedAccept` / `federatedRatify` — `Slot`'s federated-voting predicates;
* `checkSanity` / `isQuorumSetSane` — the structural checks of a quorum set;
* `findClosestVBlocking` — a smallest set of nodes that completes a v-blocking set;
* `qSetCompareInt`, `normalizeQuorumSetReorder`, `normalizeQSet` — the canonical order
  of a quorum set: validators sorted, inner sets sorted by the lexicographic comparison
  of `qSetCompareInt`; `getQuorumSetHash` hashes the normalised set.

The threshold scans count down an XDR `uint32` (`decrementU32`), so a zero
threshold wraps around rather than being met at once; sane quorum sets never
have one. `isQuorum`'s `do ... while` loop is `quorumFixpoint` with a fuel of one
more than the number of candidate nodes: every iteration that does not stop
removes a node (`isQuorum_greatest_fixpoint` in `Scp.QuorumSlice`).

The map of latest statements (`std::map<NodeID, SCPEnvelopeWrapperPtr>`) is an
`AList` keyed by node. Only membership of a node in the filtered key list is ever
read, so the iteration order of the map is irrelevant.
-/

namespace HcnetCore
namespace Scp

/-- `SCPQuorumSet`: a threshold over validators and inner quorum sets. -/
inductive SCPQuorumSet (N : Type) where
  | mk (threshold : Nat) (validators : List N) (innerSets : List (SCPQuorumSet N))
deriving Repr

namespace SCPQuorumSet

variable {N : Type}

/-- The `threshold` field. -/
def threshold : SCPQuorumSet N → Nat
  | mk t _ _ => t

/-- The `validators` field. -/
def validators : SCPQuorumSet N → List N
  | mk _ v _ => v

/-- The `innerSets` field. -/
def innerSets : SCPQuorumSet N → List (SCPQuorumSet N)
  | mk _ _ i => i

/-- Induction over the tree: a property of every set whose inner sets all have it. -/
theorem ind {motive : SCPQuorumSet N → Prop}
    (mk : ∀ t v i, (∀ q ∈ i, motive q) → motive (.mk t v i)) (q : SCPQuorumSet N) : motive q :=
  match q with
  | .mk t v i => mk t v i fun q _ => ind mk q

end SCPQuorumSet

/-- `MAXIMUM_QUORUM_NESTING_LEVEL`. -/
def MAXIMUM_QUORUM_NESTING_LEVEL : Nat := 4

/-- `UINT64_MAX`, the weight of a node that is a top-level validator of a
quorum set with threshold equal to its size. -/
def UINT64_MAX : Nat := 2 ^ 64 - 1

namespace LocalNode

variable {N : Type} [DecidableEq N]

/-- `buildSingletonQSet`: the quorum set `{t: 1, v: [nodeID]}`. -/
def buildSingletonQSet (nodeID : N) : SCPQuorumSet N :=
  .mk 1 [nodeID] []

mutual
/-- `forAllNodes`: the validators of the tree, top level first, then each inner
set in turn. -/
def forAllNodes : SCPQuorumSet N → List N
  | .mk _ v i => v ++ forAllNodesList i

/-- `forAllNodes` over a list of inner sets. -/
def forAllNodesList : List (SCPQuorumSet N) → List N
  | [] => []
  | q :: qs => forAllNodes q ++ forAllNodesList qs
end

/-- `thresholdLeft--` on a `uint32`. -/
def decrementU32 (t : Nat) : Nat := (t + UINT32_MAX) % 2 ^ 32

/-- The countdown of `isQuorumSliceInternal`: every hit decrements the remaining
threshold, and the scan answers `none` ("return true") as soon as it reaches
zero; otherwise it reports what is left. -/
def thresholdCountdown (t : Nat) : List Bool → Option Nat
  | [] => some t
  | b :: bs =>
    if b then
      if decrementU32 t = 0 then none else thresholdCountdown (decrementU32 t) bs
    else thresholdCountdown t bs

mutual
/-- `isQuorumSliceInternal`: the validators present in `nodeSet`, then the inner
sets that are themselves satisfied, count down one shared threshold. -/
def isQuorumSliceInternal (nodeSet : List N) : SCPQuorumSet N → Bool
  | .mk threshold validators innerSets =>
    (thresholdCountdown threshold
      (validators.map (fun v => decide (v ∈ nodeSet)) ++
        isQuorumSliceInternalList nodeSet innerSets)).isNone

/-- `isQuorumSliceInternal` on each inner set of a list. -/
def isQuorumSliceInternalList (nodeSet : List N) : List (SCPQuorumSet N) → List Bool
  | [] => []
  | q :: qs => isQuorumSliceInternal nodeSet q :: isQuorumSliceInternalList nodeSet qs
end

/-- `isQuorumSlice`. -/
def isQuorumSlice (qSet : SCPQuorumSet N) (nodeSet : List N) : Bool :=
  isQuorumSliceInternal nodeSet qSet

/-- The countdown of `isVBlockingInternal` on the signed `leftTillBlock`. -/
def blockCountdown (leftTillBlock : Int) : List Bool → Bool
  | [] => false
  | b :: bs =>
    if b then
      if leftTillBlock - 1 ≤ 0 then true else blockCountdown (leftTillBlock - 1) bs
    else blockCountdown leftTillBlock bs

mutual
/-- `isVBlockingInternal`: no v-blocking set for a zero threshold; otherwise
`1 + |entries| - threshold` hits among validators and v-blocked inner sets block
every slice. -/
def isVBlockingInternal (nodeSet : List N) : SCPQuorumSet N → Bool
  | .mk threshold validators innerSets =>
    if threshold = 0 then false
    else
      blockCountdown ((1 + validators.length + innerSets.length : Nat) - (threshold : Int))
        (validators.map (fun v => decide (v ∈ nodeSet)) ++
          isVBlockingInternalList nodeSet innerSets)

/-- `isVBlockingInternal` on each inner set of a list. -/
def isVBlockingInternalList (nodeSet : List N) : List (SCPQuorumSet N) → List Bool
  | [] => []
  | q :: qs => isVBlockingInternal nodeSet q :: isVBlockingInternalList nodeSet qs
end

/-- `isVBlocking(qSet, nodeSet)`. -/
def isVBlocking (qSet : SCPQuorumSet N) (nodeSet : List N) : Bool :=
  isVBlockingInternal nodeSet qSet

variable {S : Type}

/-- The nodes of a statement map whose statement passes `filter` (the `pNodes`
vector that `isVBlocking` and `isQuorum` build from the map). -/
def filteredNodes (map : AList (fun _ : N => S)) (filter : S → Bool) : List N :=
  (map.entries.filter (fun e => filter e.2)).map (·.1)

/-- `isVBlocking(qSet, map, filter)`. -/
def isVBlockingFiltered (qSet : SCPQuorumSet N) (map : AList (fun _ : N => S))
    (filter : S → Bool) : Bool :=
  isVBlocking qSet (filteredNodes map filter)

/-- The body of `isQuorum`'s loop, iterated: keep the nodes whose quorum set (read
off their statement by `qfun`) has a slice inside the current candidates, until
an iteration removes nobody. -/
def quorumFixpoint (map : AList (fun _ : N => S)) (qfun : S → Option (SCPQuorumSet N)) :
    Nat → List N → List N
  | 0, pNodes => pNodes
  | fuel + 1, pNodes =>
    let fNodes := pNodes.filter (fun n =>
      match map.lookup n with
      | some st =>
        match qfun st with
        | some q => isQuorumSlice q pNodes
        | none => false
      | none => false)
    if fNodes.length = pNodes.length then fNodes else quorumFixpoint map qfun fuel fNodes

/-- `isQuorum(qSet, map, qfun, filter)`: shrink the filtered nodes to the largest
self-supporting set, then ask whether it contains a slice of `qSet`. -/
def isQuorum (qSet : SCPQuorumSet N) (map : AList (fun _ : N => S))
    (qfun : S → Option (SCPQuorumSet N)) (filter : S → Bool) : Bool :=
  let pNodes := filteredNodes map filter
  isQuorumSlice qSet (quorumFixpoint map qfun (pNodes.length + 1) pNodes)

/-- `Slot::federatedAccept`: a statement is accepted when the nodes that accepted
it are v-blocking, or the nodes that voted for or accepted it form a quorum. -/
def federatedAccept (qSet : SCPQuorumSet N) (qfun : S → Option (SCPQuorumSet N))
    (voted accepted : S → Bool) (envs : AList (fun _ : N => S)) : Bool :=
  isVBlockingFiltered qSet envs accepted ||
    isQuorum qSet envs qfun (fun st => accepted st || voted st)

/-- `Slot::federatedRatify`: the nodes that voted for the statement form a quorum. -/
def federatedRatify (qSet : SCPQuorumSet N) (qfun : S → Option (SCPQuorumSet N))
    (voted : S → Bool) (envs : AList (fun _ : N => S)) : Bool :=
  isQuorum qSet envs qfun voted

/-- `computeWeight(m, total, threshold)`: `m * threshold / total`, rounded up
(`bigDivideUnsigned` with `ROUND_UP`); the `releaseAssert`s abort on
`threshold > total`, on a zero `total` and on an overflow of 64 bits. -/
def computeWeight (m total threshold : Nat) : Except String Nat :=
  if threshold ≤ total then
    if total = 0 then .error "releaseAssertOrThrow(C > 0)"
    else
      let res := (m * threshold + total - 1) / total
      if res ≤ UINT64_MAX then .ok res else .error "releaseAssert(noOverflow)"
  else .error "releaseAssert(threshold <= total)"

mutual
/-- `getNodeWeight`: the weight of the first occurrence of `nodeID`, as a top-level
validator or inside the first inner set that gives it a positive weight. -/
def getNodeWeight (nodeID : N) : SCPQuorumSet N → Except String Nat
  | .mk threshold validators innerSets =>
    let d := innerSets.length + validators.length
    if nodeID ∈ validators then computeWeight UINT64_MAX d threshold
    else do
      let leafW ← getNodeWeightInner nodeID innerSets
      if leafW = 0 then pure 0 else computeWeight leafW d threshold

/-- The first positive weight of `nodeID` in a list of inner sets, or `0`. -/
def getNodeWeightInner (nodeID : N) : List (SCPQuorumSet N) → Except String Nat
  | [] => pure 0
  | q :: qs => do
    let w ← getNodeWeight nodeID q
    if w = 0 then getNodeWeightInner nodeID qs else pure w
end

/-- Whether a (simplified) inner set is a singleton `{t: 1, v: [x]}`. -/
def isSingletonQSet : SCPQuorumSet N → Option N
  | .mk 1 [x] [] => some x
  | _ => none

mutual
/-- `normalizeQSetSimplify`: remove `idToRemove` from the validators (lowering the
`uint32` threshold by the number removed), simplify every inner set and merge
the singleton ones into the validators, and finally replace a set of the form
`{t: 1, v: [], inner: [q]}` by `q`. -/
def normalizeQSetSimplify (idToRemove : Option N) : SCPQuorumSet N → SCPQuorumSet N
  | .mk threshold validators innerSets =>
    let kept := match idToRemove with
      | some id => validators.filter (fun n => decide (n ≠ id))
      | none => validators
    let t := (threshold + 2 ^ 32 - (validators.length - kept.length)) % 2 ^ 32
    let (merged, inner) := normalizeInnerSets idToRemove innerSets
    let v := kept ++ merged
    match t, v, inner with
    | 1, [], [q] => q
    | _, _, _ => .mk t v inner

/-- Simplify each inner set of a list; return the validators of the singleton ones
(to be merged into the parent) and the inner sets that remain. -/
def normalizeInnerSets (idToRemove : Option N) :
    List (SCPQuorumSet N) → List N × List (SCPQuorumSet N)
  | [] => ([], [])
  | q :: qs =>
    let q' := normalizeQSetSimplify idToRemove q
    let rest := normalizeInnerSets idToRemove qs
    match isSingletonQSet q' with
    | some x => (x :: rest.1, rest.2)
    | none => (rest.1, q' :: rest.2)
end

/-- The state of `QuorumSetSanityChecker`: the nodes seen so far and their count. -/
structure SanityState (N : Type) where
  knownNodes : List N
  count : Nat

/-- Insert validators into the known nodes, failing on a duplicate. -/
def insertKnownNodes (st : SanityState N) : List N → Except String (SanityState N)
  | [] => .ok st
  | n :: ns =>
    if n ∈ st.knownNodes then .error "Duplicate node found in quorum configuration"
    else insertKnownNodes { st with knownNodes := n :: st.knownNodes } ns

mutual
/-- `QuorumSetSanityChecker::checkSanity`. -/
def checkSanity (extraChecks : Bool) (depth : Nat) (st : SanityState N) :
    SCPQuorumSet N → Except String (SanityState N)
  | .mk threshold v i =>
    if depth > MAXIMUM_QUORUM_NESTING_LEVEL then .error "Maximum quorum nesting level exceeded"
    else if threshold < 1 then .error "Threshold must be greater than 0"
    else
      let totEntries := v.length + i.length
      let vBlockingSize := totEntries - threshold + 1
      let st := { st with count := st.count + v.length }
      if threshold > totEntries then .error "Threshold exceeds total number of entries"
      else if extraChecks && decide (threshold < vBlockingSize) then
        .error "Threshold is lower than the v-blocking size (< 51%)."
      else do
        let st ← insertKnownNodes st v
        checkSanityList extraChecks (depth + 1) st i

/-- `checkSanity` on each inner set, threading the checker state. -/
def checkSanityList (extraChecks : Bool) (depth : Nat) (st : SanityState N) :
    List (SCPQuorumSet N) → Except String (SanityState N)
  | [] => .ok st
  | q :: qs => do
    let st ← checkSanity extraChecks depth st q
    checkSanityList extraChecks depth st qs
end

/-- The checker's verdict, with its error string: the tree passes `checkSanity`
and has between 1 and 1000 validators in total. -/
def checkQuorumSetSanity (qSet : SCPQuorumSet N) (extraChecks : Bool) : Except String Unit := do
  let st ← checkSanity extraChecks 0 ⟨[], 0⟩ qSet
  if st.count < 1 ∨ st.count > 1000 then
    .error "Total number of nodes in a quorum must be within 1 and 1000"
  else pure ()

/-- `isQuorumSetSane`. -/
def isQuorumSetSane (qSet : SCPQuorumSet N) (extraChecks : Bool) : Bool :=
  match checkQuorumSetSanity qSet extraChecks with
  | .ok _ => true
  | .error _ => false


/-- `leftTillBlock--` on a `size_t`. -/
def decrementSizeT (x : Nat) : Nat := (x + 2 ^ 64 - 1) % 2 ^ 64

/-- The validator loop of `findClosestVBlocking`: a validator outside `nodes` (and not
`excluded`) already blocks and counts `leftTillBlock` down, `none` standing for the
early `return` of an empty vector when the count reaches zero; a validator in `nodes` is
saved for later. -/
def closestValidators (nodes : List N) (excluded : Option N) :
    Nat → List N → Option (Nat × List N)
  | left, [] => some (left, [])
  | left, x :: xs =>
    if excluded = some x then closestValidators nodes excluded left xs
    else if x ∉ nodes then
      if decrementSizeT left = 0 then none
      else closestValidators nodes excluded (decrementSizeT left) xs
    else (closestValidators nodes excluded left xs).map fun r => (r.1, x :: r.2)

/-- The inner-set loop of `findClosestVBlocking` over the answers of the inner sets: an
empty answer (the inner set is already blocked) counts `leftTillBlock` down, `none`
standing for the early `return`; the others are kept. -/
def closestInner : Nat → List (List N) → Option (Nat × List (List N))
  | left, [] => some (left, [])
  | left, r :: rs =>
    if r.length = 0 then
      if decrementSizeT left = 0 then none else closestInner (decrementSizeT left) rs
    else (closestInner left rs).map fun p => (p.1, r :: p.2)

mutual
/-- `findClosestVBlocking(qset, nodes, excluded)`: a smallest set of `nodes` that, with
the nodes outside `nodes`, blocks `qset`. Validators of `nodes` are taken first, then
the answers of the inner sets, smallest first: the `std::multiset` ordered by size keeps
answers of equal size in the order they were inserted, which is the order of a stable
sort by length (insertion sort is stable). -/
def findClosestVBlocking : SCPQuorumSet N → List N → Option N → List N
  | .mk threshold validators innerSets, nodes, excluded =>
    let left := (1 + validators.length + innerSets.length + 2 ^ 64 - threshold) % 2 ^ 64
    match closestValidators nodes excluded left validators with
    | none => []
    | some (left, res) =>
      match closestInner left (findClosestVBlockingList innerSets nodes excluded) with
      | none => []
      | some (left, resInternals) =>
        let res := res.take left
        let left := left - res.length
        res ++ ((resInternals.insertionSort fun a b => a.length ≤ b.length).take left).flatten

/-- `findClosestVBlocking` on each inner set of a list. -/
def findClosestVBlockingList : List (SCPQuorumSet N) → List N → Option N → List (List N)
  | [], _, _ => []
  | q :: qs, nodes, excluded =>
    findClosestVBlocking q nodes excluded :: findClosestVBlockingList qs nodes excluded
end

end LocalNode

namespace LocalNode

variable {N : Type} [LinearOrder N]

/-- `intLexicographicalCompare(first1, last1, first2, last2, comp)`: the first non-zero
comparison of elements at the same position, else the shorter sequence first. -/
def intLexicographicalCompare {α : Type} (comp : α → α → Int) : List α → List α → Int
  | a :: as, b :: bs =>
    let c := comp a b
    if c ≠ 0 then c else intLexicographicalCompare comp as bs
  | [], _ :: _ => -1
  | _ :: _, [] => 1
  | [], [] => 0

/-- The comparison of two `NodeID`s that `qSetCompareInt` passes to
`intLexicographicalCompare`. -/
def nodeIDCompareInt (l r : N) : Int :=
  if l < r then -1 else if r < l then 1 else 0

mutual
/-- `qSetCompareInt(l, r)`: `-1`, `0` or `1` as `l` is below, equal to or above `r`,
lexicographically by validators, then by inner sets, then by threshold. -/
def qSetCompareInt : SCPQuorumSet N → SCPQuorumSet N → Int
  | .mk lt lv li, .mk rt rv ri =>
    let res := intLexicographicalCompare nodeIDCompareInt lv rv
    if res ≠ 0 then res
    else
      let res := qSetCompareIntList li ri
      if res ≠ 0 then res
      else if lt < rt then -1 else if lt = rt then 0 else 1

/-- `intLexicographicalCompare(li.begin(), li.end(), ri.begin(), ri.end(), qSetCompareInt)`. -/
def qSetCompareIntList : List (SCPQuorumSet N) → List (SCPQuorumSet N) → Int
  | a :: as, b :: bs =>
    let c := qSetCompareInt a b
    if c ≠ 0 then c else qSetCompareIntList as bs
  | [], _ :: _ => -1
  | _ :: _, [] => 1
  | [], [] => 0
end

/-- `std::sort(first, last, comp)` with the strict order `lt`, as an insertion sort by
"not above". For a strict order whose incomparable elements are equal, as for `NodeID`s
and for `qSetCompareInt`, the sorted permutation is unique, so this is the sequence
`std::sort` leaves. -/
def stdSort {α : Type} (lt : α → α → Bool) (l : List α) : List α :=
  l.insertionSort fun a b => !lt b a

mutual
/-- `normalizeQuorumSetReorder`: sort the validators, reorder each inner set, then sort
the inner sets by `qSetCompareInt`. -/
def normalizeQuorumSetReorder : SCPQuorumSet N → SCPQuorumSet N
  | .mk t v i =>
    .mk t (stdSort (fun a b => decide (a < b)) v)
      (stdSort (fun l r => decide (qSetCompareInt l r < 0)) (normalizeQuorumSetReorderList i))

/-- `normalizeQuorumSetReorder` on each inner set of a list. -/
def normalizeQuorumSetReorderList : List (SCPQuorumSet N) → List (SCPQuorumSet N)
  | [] => []
  | q :: qs => normalizeQuorumSetReorder q :: normalizeQuorumSetReorderList qs
end

/-- `normalizeQSet(qSet, idToRemove)`: simplify, then reorder. -/
def normalizeQSet (qSet : SCPQuorumSet N) (idToRemove : Option N) : SCPQuorumSet N :=
  normalizeQuorumSetReorder (normalizeQSetSimplify idToRemove qSet)

/-- `LocalNode::getQuorumSetHash` of the node built with `qSet`: the constructor normalises
`qSet` and stores `driver.getHashOf` of its XDR encoding, here `getHashOf` of the
normalised set. -/
def getQuorumSetHash {H : Type} (getHashOf : SCPQuorumSet N → H) (qSet : SCPQuorumSet N) : H :=
  getHashOf (normalizeQSet qSet none)

end LocalNode

end Scp
end HcnetCore
