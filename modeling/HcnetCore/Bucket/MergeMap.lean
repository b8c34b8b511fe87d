import Mathlib.Logic.Function.Basic
import HcnetCore.Util.GlobalChecks

/-!
# `BucketMergeMap`: the weak record of finished merges

`BucketManager` remembers, for each merge that finished, which bucket it produced
(`recordMerge`, when the output is adopted), so that a later merge of the same inputs
can be answered without merging again (`findMergeFor`), and so that the buckets a
finished merge read stay reachable from the publish queue (`getOutputsUsingInput`).
When the garbage collector drops an output bucket, every merge that produced it is
forgotten (`forgetAllMergesProducing`).

The record is kept three times: `mMergeKeyToOutput` (an `UnorderedMap` from merge key
to output), `mOutputToMergeKey` (an `unordered_multimap` from output to merge key) and
`mInputToOutput` (an `unordered_multimap` from each input hash to the output).

The model keeps the source's data and loops:

* `UnorderedMap<MergeKey, Hash>` is a function into `Option`, with `emplace` (no
  change where the key is mapped) and `erase`;
* an `unordered_multimap` is the list of its entries in iteration order. The order is
  unspecified in the source, and what the proofs say of a multimap holds up to
  permutation, that is of the multiset of its entries. `emplace` appends an entry,
  `erase` of an iterator erases the first equal entry, and `equal_range(k)` is the
  entries with key `k` in iteration order;
* `UnorderedSet` (the result of `getMergeKeyHashes` and of `forgetAllMergesProducing`)
  and `std::set` (the output of `getOutputsUsingInput`) are lists without duplicates,
  built by `List.insert`.

The size comparison in `forgetAllMergesProducing` only writes a warning to the log and
is left out, as are the log lines.
-/

namespace HcnetCore

namespace Bucket

variable {H : Type} [DecidableEq H]

/-- `MergeKey`: the inputs of a merge, by hash, and whether it keeps dead entries. -/
structure MergeKey (H : Type) where
  mKeepDeadEntries : Bool
  mInputCurrBucket : H
  mInputSnapBucket : H
  mInputShadowBuckets : List H
deriving DecidableEq, Repr

/-- `getMergeKeyHashes(key)`: the hashes of the current, snapshot and shadow inputs of a
merge, each once. -/
def getMergeKeyHashes (key : MergeKey H) : List H :=
  key.mInputShadowBuckets.foldl (fun hashes input => hashes.insert input)
    ((([] : List H).insert key.mInputCurrBucket).insert key.mInputSnapBucket)

/-! ### `UnorderedMap<MergeKey, Hash>` -/

/-- `emplace(k, v)` on an `UnorderedMap`: maps `k` to `v` unless `k` is mapped already. -/
def mapEmplace (m : MergeKey H → Option H) (k : MergeKey H) (v : H) : MergeKey H → Option H :=
  if (m k).isSome then m else Function.update m k (some v)

/-- `erase(k)` on an `UnorderedMap`. -/
def mapErase (m : MergeKey H → Option H) (k : MergeKey H) : MergeKey H → Option H :=
  Function.update m k none

/-- The three maps of a `BucketMergeMap`. -/
structure BucketMergeMap (H : Type) where
  mMergeKeyToOutput : MergeKey H → Option H
  mInputToOutput : List (H × H)
  mOutputToMergeKey : List (H × MergeKey H)

namespace BucketMergeMap

/-- A `BucketMergeMap` as `BucketManager` constructs it. -/
def empty : BucketMergeMap H := ⟨fun _ => none, [], []⟩

variable (m : BucketMergeMap H)

/-- `recordMerge(input, output)`. -/
def recordMerge (input : MergeKey H) (output : H) : BucketMergeMap H where
  mMergeKeyToOutput := mapEmplace m.mMergeKeyToOutput input output
  mOutputToMergeKey := m.mOutputToMergeKey ++ [(output, input)]
  mInputToOutput := (getMergeKeyHashes input).foldl (fun acc h => acc ++ [(h, output)])
    m.mInputToOutput

/-- The body of the loop of `forgetAllMergesProducing` at the entry `(output, key)` of
`mOutputToMergeKey`: for each input of `key`, the first entry `(input,
outputBeingDropped)` of `mInputToOutput` is erased (the inner loop stops at it), then
`key` leaves `mMergeKeyToOutput`, and the loop step erases the entry itself. -/
def forgetEntry (outputBeingDropped : H) (entry : H × MergeKey H) : BucketMergeMap H where
  mInputToOutput := (getMergeKeyHashes entry.2).foldl
    (fun acc input => acc.erase (input, outputBeingDropped)) m.mInputToOutput
  mMergeKeyToOutput := mapErase m.mMergeKeyToOutput entry.2
  mOutputToMergeKey := m.mOutputToMergeKey.erase entry

/-- One iteration of the loop of `forgetAllMergesProducing`: the key of the entry joins
the returned set. -/
def forgetMerge (outputBeingDropped : H) (acc : List (MergeKey H) × BucketMergeMap H)
    (entry : H × MergeKey H) : Except Failure (List (MergeKey H) × BucketMergeMap H) := do
  releaseAssert (entry.1 = outputBeingDropped) "output == outputBeingDropped"
  pure (acc.1.insert entry.2, acc.2.forgetEntry outputBeingDropped entry)

/-- `forgetAllMergesProducing(outputBeingDropped)`: the loop over
`mOutputToMergeKey.equal_range(outputBeingDropped)`. It returns the merge keys it
forgot, and the map after it. -/
def forgetAllMergesProducing (outputBeingDropped : H) :
    Except Failure (List (MergeKey H) × BucketMergeMap H) :=
  (m.mOutputToMergeKey.filter fun entry => entry.1 = outputBeingDropped).foldlM
    (forgetMerge outputBeingDropped) ([], m)

/-- `findMergeFor(input, output)`: the output it writes when it returns `true`. -/
def findMergeFor (input : MergeKey H) : Option H := m.mMergeKeyToOutput input

/-- `getOutputsUsingInput(input, outputs)`: `outputs` with the output of every entry of
`mInputToOutput.equal_range(input)` added. -/
def getOutputsUsingInput (input : H) (outputs : List H) : List H :=
  (m.mInputToOutput.filter fun entry => entry.1 = input).foldl
    (fun outs entry => outs.insert entry.2) outputs

end BucketMergeMap

/-! ### Runs -/

/-- The calls that change a `BucketMergeMap`: `adoptFileAsBucket` records a finished
merge, `forgetUnreferencedBuckets` forgets the merges of a dropped bucket. -/
inductive MergeMapCall (H : Type)
  | recordMerge (input : MergeKey H) (output : H)
  | forgetAllMergesProducing (output : H)
deriving DecidableEq, Repr

namespace BucketMergeMap

/-- One call on the map. The set that `forgetAllMergesProducing` returns is read by the
caller, not kept. -/
def call (m : BucketMergeMap H) : MergeMapCall H → Except Failure (BucketMergeMap H)
  | .recordMerge input output => pure (m.recordMerge input output)
  | .forgetAllMergesProducing output => do
    let r ← m.forgetAllMergesProducing output
    pure r.2

/-- A sequence of calls, from `m`. -/
def run (m : BucketMergeMap H) (calls : List (MergeMapCall H)) :
    Except Failure (BucketMergeMap H) :=
  calls.foldlM call m

end BucketMergeMap

end Bucket

end HcnetCore
