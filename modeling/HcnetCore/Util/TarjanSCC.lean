import Mathlib.Logic.Function.Basic
import HcnetCore.Systems.Containers

/-!
# Tarjan's strongly connected components (`util/TarjanSCCCalculator.cpp`)

`TarjanSCCCalculator::calculateSCCs(graphSize, getNodeSuccessors)` runs the recursive
form of Tarjan's algorithm over the nodes `0 .. graphSize - 1`. `scc(i)` gives `i` the
next index as its index and its low link and pushes it on the stack. It then visits the
successors of `i` in ascending order: a successor `j` with no index yet is visited by a
recursive `scc(j)`, after which the low link of `i` drops to that of `j`; a successor
still on the stack lowers it to the index of `j`. If the low link of `i` is still its
index at the end, `i` is the root of a component: the stack is popped down to `i` and
the popped nodes are appended to `mSCCs`.

The model keeps the source's data:

* a `BitSet` is the `Finset ℕ` of its set bits, and the loop `for (j = 0;
  succ.nextSet(j); ++j)` walks it in ascending order (`Containers.ascending`);
* `mNodes` is a function from node to `SCCNode`. The source reads `mNodes.at(j)` only at
  nodes below `graphSize` when the successors stay below `graphSize`;
* `mStack` is a list with the back of the vector first;
* `mIndex` and the `int` fields of a node are `ℤ`: no index exceeds the number of
  nodes;
* `scc` takes a `fuel` argument that bounds the depth of the recursion, and returns
  `none` when the fuel runs out or when the pop loop finds the stack empty (`back()` of
  an empty vector). `calculateSCCs` gives it `graphSize`, and the specification shows
  that neither happens.

`scc(i)` keeps a reference `v` to the record of `i` across the recursive calls. The
vector is never resized during the run, so the reference stays valid and reads the
record as it is after each call; the model reads `mNodes i` afresh at that point.
-/

namespace HcnetCore

/-- `TarjanSCCCalculator::SCCNode`, with the source's defaults. -/
structure SCCNode where
  mIndex : ℤ := -1
  mLowLink : ℤ := -1
  mOnStack : Bool := false
deriving DecidableEq, Repr

/-- The fields of a `TarjanSCCCalculator`. -/
structure TarjanSCCCalculator where
  mNodes : ℕ → SCCNode
  /-- The stack, its back first. -/
  mStack : List ℕ
  mIndex : ℤ
  mSCCs : List (Finset ℕ)

namespace TarjanSCCCalculator

/-- The calculator after the `clear`s and the `emplace_back`s that start
`calculateSCCs`: every node has the default record. -/
def initial : TarjanSCCCalculator := ⟨fun _ => {}, [], 0, []⟩

/-- `v.mLowLink = l`, for the record `v` of node `i`. -/
def setLowLink (t : TarjanSCCCalculator) (i : ℕ) (l : ℤ) : TarjanSCCCalculator :=
  { t with mNodes := Function.update t.mNodes i { t.mNodes i with mLowLink := l } }

/-- The start of `scc(i)`: `i` takes the next index as its index and its low link, and
is pushed on the stack. -/
def push (t : TarjanSCCCalculator) (i : ℕ) : TarjanSCCCalculator where
  mNodes := Function.update t.mNodes i ⟨t.mIndex, t.mIndex, true⟩
  mStack := i :: t.mStack
  mIndex := t.mIndex + 1
  mSCCs := t.mSCCs

/-- The `do … while (j != i)` loop at a root `i`: pops nodes into `newScc`, clearing
their `mOnStack`, down to and including `i`. `none` if the stack runs out first. -/
def popSCC (i : ℕ) : List ℕ → (ℕ → SCCNode) → Finset ℕ →
    Option (List ℕ × (ℕ → SCCNode) × Finset ℕ)
  | [], _, _ => none
  | j :: stack, nodes, newScc =>
    let nodes := Function.update nodes j { nodes j with mOnStack := false }
    if j ≠ i then popSCC i stack nodes (insert j newScc) else some (stack, nodes, insert j newScc)

/-- The end of `scc(i)`: if the low link of `i` is still its index, the component of
`i` is popped off the stack and appended to `mSCCs`. -/
def finish (i : ℕ) (t : TarjanSCCCalculator) : Option TarjanSCCCalculator :=
  if (t.mNodes i).mLowLink = (t.mNodes i).mIndex then do
    let r ← popSCC i t.mStack t.mNodes {i}
    pure { t with mStack := r.1, mNodes := r.2.1, mSCCs := t.mSCCs ++ [r.2.2] }
  else pure t

variable (getNodeSuccessors : ℕ → Finset ℕ)

/-- One turn of the loop of `scc(i)` over its successors, at the successor `j`. A
successor with no index yet is visited by `visit`, and the low link of `i` drops to the
low link `j` has afterwards; a successor on the stack lowers it to the index of `j`; a
successor already in a component changes nothing. -/
def visitSuccessor (visit : ℕ → TarjanSCCCalculator → Option TarjanSCCCalculator) (i : ℕ)
    (t : TarjanSCCCalculator) (j : ℕ) : Option TarjanSCCCalculator :=
  if (t.mNodes j).mIndex = -1 then do
    let t ← visit j t
    pure (t.setLowLink i (min (t.mNodes i).mLowLink (t.mNodes j).mLowLink))
  else if (t.mNodes j).mOnStack then
    pure (t.setLowLink i (min (t.mNodes i).mLowLink (t.mNodes j).mIndex))
  else pure t

/-- `scc(i, getNodeSuccessors)`, with `fuel` recursive calls deep at most. -/
def scc : ℕ → ℕ → TarjanSCCCalculator → Option TarjanSCCCalculator
  | 0, _, _ => none
  | fuel + 1, i, t => do
    let t ← (Containers.ascending (getNodeSuccessors i)).foldlM (visitSuccessor (scc fuel) i)
      (t.push i)
    finish i t

/-- The body of the loop of `calculateSCCs` at node `i`: `scc(i)` if `i` has no index
yet, with `graphSize` as the fuel. -/
def visitRoot (graphSize : ℕ) (t : TarjanSCCCalculator) (i : ℕ) :
    Option TarjanSCCCalculator :=
  if (t.mNodes i).mIndex = -1 then scc getNodeSuccessors graphSize i t else pure t

/-- `calculateSCCs(graphSize, getNodeSuccessors)`. -/
def calculateSCCs (graphSize : ℕ) : Option TarjanSCCCalculator :=
  (List.range graphSize).foldlM (visitRoot getNodeSuccessors graphSize) initial

end TarjanSCCCalculator

end HcnetCore
