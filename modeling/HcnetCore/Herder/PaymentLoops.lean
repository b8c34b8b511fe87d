import Mathlib.Data.Finset.Card
import HcnetCore.Util.TarjanSCC

/-!
# Asset pairs in payment loops (`TransactionQueue::findAllAssetPairsInvolvedInPaymentLoops`)

The transaction queue damps transactions whose path payments convert an asset back to
itself through the order books. `findAllAssetPairsInvolvedInPaymentLoops(tx)` builds the
graph of the conversion steps of the path payments of `tx`: each asset becomes a node
(`internAsset`), and each asset of `sendAsset, path..., destAsset` gets an edge to the
next (`internEdge`, `internSegment`). It then runs `TarjanSCCCalculator` on the graph
and returns, as pairs of assets, the edges inside the components of more than one node.

The model keeps the source's locals: the `std::map<Asset, size_t> assetToNum` is a
function into `Option ℕ`, `numToAsset` a list, and `graph` a list of `BitSet`s, each the
`Finset ℕ` of its set bits, iterated in ascending order. The function reads nothing of `tx` but its operations, so
the model takes those, as `PaymentOperation`s: the two path payments with their send
asset, destination asset and path, and every other operation. Assets are of any type
with decidable equality.

`numToAsset.at(i)` and `graph.at(i)` throw on an index out of range. Where the result is
built, the model reads them with `[i]?` and returns `none` on such an index. In
`internEdge` the index comes from `internAsset`, and the closure given to `calculateSCCs`
is only called below `graph.size()`, so the model reads the graph there with a default.
-/

namespace HcnetCore

namespace Herder

/-- The operations of a transaction, as `findAllAssetPairsInvolvedInPaymentLoops` tells
them apart. -/
inductive PaymentOperation (A : Type)
  | pathPaymentStrictReceive (sendAsset destAsset : A) (path : List A)
  | pathPaymentStrictSend (sendAsset destAsset : A) (path : List A)
  | other
deriving DecidableEq, Repr

/-- `AssetPair`, as the source builds it from an edge: `buying` is the asset of the edge's
source node, `selling` that of its target. -/
structure AssetPair (A : Type) where
  buying : A
  selling : A
deriving DecidableEq, Repr

/-- The locals that the lambdas of `findAllAssetPairsInvolvedInPaymentLoops` update. -/
structure AssetGraph (A : Type) where
  assetToNum : A → Option ℕ
  numToAsset : List A
  graph : List (Finset ℕ)

namespace AssetGraph

variable {A : Type} [DecidableEq A]

/-- The locals before the loop over the operations. -/
def empty : AssetGraph A := ⟨fun _ => none, [], []⟩

/-- `internAsset(a)`: the node of `a`, a new one if `a` has none yet. -/
def internAsset (g : AssetGraph A) (a : A) : ℕ × AssetGraph A :=
  match g.assetToNum a with
  | some i => (i, g)
  | none =>
    let n := g.numToAsset.length
    (n, ⟨Function.update g.assetToNum a (some n), g.numToAsset ++ [a], g.graph ++ [∅]⟩)

/-- `internEdge(src, dst)`: `graph.at(si).set(di)`. -/
def internEdge (g : AssetGraph A) (src dst : A) : AssetGraph A :=
  let (si, g) := g.internAsset src
  let (di, g) := g.internAsset dst
  { g with graph := g.graph.modify si (insert di) }

/-- `internSegment(src, dst, path)`: an edge from each asset of `src, path...` to the
next one, and from the last to `dst`. -/
def internSegment (g : AssetGraph A) (src dst : A) (path : List A) : AssetGraph A :=
  let (prev, g) := path.foldl (fun (prev, g) a => (a, g.internEdge prev a)) (src, g)
  g.internEdge prev dst

/-- The body of the loop over the operations. -/
def internOperation (g : AssetGraph A) : PaymentOperation A → AssetGraph A
  | .pathPaymentStrictReceive sendAsset destAsset path => g.internSegment sendAsset destAsset path
  | .pathPaymentStrictSend sendAsset destAsset path => g.internSegment sendAsset destAsset path
  | .other => g

/-- `AssetPair{numToAsset.at(src), numToAsset.at(dst)}`. -/
def assetPair (g : AssetGraph A) (src dst : ℕ) : Option (AssetPair A) := do
  pure ⟨← g.numToAsset[src]?, ← g.numToAsset[dst]?⟩

/-- The body of the loop over the components: for a component `scc` of more than one
node, the pair of each `src` of `scc` and each `dst` of `graph.at(src) ∩ scc`, both in
ascending order, is appended to `ret`. -/
def appendComponentPairs (g : AssetGraph A) (ret : List (AssetPair A)) (scc : Finset ℕ) :
    Option (List (AssetPair A)) :=
  if scc.card > 1 then
    (Containers.ascending scc).foldlM (fun ret src => do
      let edgesFromSrcInSCC := (← g.graph[src]?) ∩ scc
      (Containers.ascending edgesFromSrcInSCC).foldlM (fun ret dst => do
        let p ← g.assetPair src dst
        pure (ret ++ [p])) ret) ret
  else pure ret

end AssetGraph

variable {A : Type} [DecidableEq A]

/-- `findAllAssetPairsInvolvedInPaymentLoops(tx)`, from the operations of `tx`. -/
def findAllAssetPairsInvolvedInPaymentLoops (ops : List (PaymentOperation A)) :
    Option (List (AssetPair A)) := do
  let g := ops.foldl AssetGraph.internOperation AssetGraph.empty
  let tsc ← TarjanSCCCalculator.calculateSCCs (fun i => g.graph.getD i ∅) g.graph.length
  tsc.mSCCs.foldlM g.appendComponentPairs []

end Herder

end HcnetCore
