import HcnetCore.Order.KeyedMerge

/-!
# `Bucket::merge`

A bucket is a file of entries sorted by ledger key (`BucketEntryIdCmp`). Merging
an older and a newer bucket is one pass over both (`Bucket::merge`): the entry with
the smaller key is copied (`mergeCasesWithDefaultAcceptance`), and of two entries
with the same key the lifecycle table of `mergeCasesWithEqualKeys` decides what
stays. Entries go through a `BucketOutputIterator`, which buffers the last entry,
drops `DEADENTRY`s unless it keeps them, and asserts that entries come in order.

The model is that of a merge at a protocol version that has INIT entries and no
shadows: `maybePut` is then `put`, and `checkProtocolLegality` never throws. The
metadata entry, which the input iterators skip and the output iterator writes
first, is left out.

## Main results

* `merge_eq` — **refinement**: on sorted buckets with no malformed pair of entries,
  `merge` returns, and what it returns is the keyed merge `mergeWith` of the two
  buckets under the lifecycle table `mergeEntries`, without the dead entries when
  they are not kept. In particular the output iterator's `releaseAssert` never
  fails, and the loop ends after `oldBucket.length + newBucket.length` iterations.
-/

namespace HcnetCore

namespace Bucket

open KeyedMerge

/-- An entry of a bucket after its metadata entry: a `LIVEENTRY` or an `INITENTRY`
carries a ledger entry (its key and its value), a `DEADENTRY` a ledger key. -/
inductive BucketEntry (K V : Type) where
  | LIVEENTRY (key : K) (value : V)
  | INITENTRY (key : K) (value : V)
  | DEADENTRY (key : K)
deriving DecidableEq, Repr

namespace BucketEntry

variable {K V : Type}

/-- The ledger key of an entry. -/
def key : BucketEntry K V → K
  | LIVEENTRY k _ => k
  | INITENTRY k _ => k
  | DEADENTRY k => k

/-- `e.type() == DEADENTRY`. -/
def isDead : BucketEntry K V → Bool
  | DEADENTRY _ => true
  | _ => false

/-- `e.type() == INITENTRY`. -/
def isInit : BucketEntry K V → Bool
  | INITENTRY _ _ => true
  | _ => false

@[simp] theorem key_LIVEENTRY (k : K) (v : V) : (LIVEENTRY k v).key = k := rfl
@[simp] theorem key_INITENTRY (k : K) (v : V) : (INITENTRY k v).key = k := rfl
@[simp] theorem key_DEADENTRY (k : K) : (DEADENTRY k : BucketEntry K V).key = k := rfl
@[simp] theorem isDead_LIVEENTRY (k : K) (v : V) : (LIVEENTRY k v).isDead = false := rfl
@[simp] theorem isDead_INITENTRY (k : K) (v : V) : (INITENTRY k v).isDead = false := rfl
@[simp] theorem isDead_DEADENTRY (k : K) : (DEADENTRY k : BucketEntry K V).isDead = true := rfl
@[simp] theorem isInit_LIVEENTRY (k : K) (v : V) : (LIVEENTRY k v).isInit = false := rfl
@[simp] theorem isInit_INITENTRY (k : K) (v : V) : (INITENTRY k v).isInit = true := rfl
@[simp] theorem isInit_DEADENTRY (k : K) : (DEADENTRY k : BucketEntry K V).isInit = false := rfl

end BucketEntry

variable {K V : Type} [LinearOrder K]

open BucketEntry

/-- `BucketEntryIdCmp`: entries are compared by their ledger keys (`LedgerEntryIdCmp`). -/
def BucketEntryIdCmp (a b : BucketEntry K V) : Bool := decide (a.key < b.key)

/-! ### The output iterator -/

/-- The state of a `BucketOutputIterator`. -/
structure BucketOutputIterator (K V : Type) where
  mKeepDeadEntries : Bool
  /-- The last entry put, written out once an entry with a greater key comes. -/
  mBuf : Option (BucketEntry K V)
  /-- The entries written to the output file, in order. -/
  mOut : List (BucketEntry K V)

namespace BucketOutputIterator

/-- A fresh output iterator. -/
def init (keepDeadEntries : Bool) : BucketOutputIterator K V := ⟨keepDeadEntries, none, []⟩

/-- `BucketOutputIterator::put`. -/
def put (out : BucketOutputIterator K V) (e : BucketEntry K V) :
    Except String (BucketOutputIterator K V) :=
  if !out.mKeepDeadEntries && e.isDead then pure out
  else
    match out.mBuf with
    | some buf =>
      -- `mCmp(e, *mBuf)` would mean that entries come out of order
      if BucketEntryIdCmp e buf then throw "releaseAssert(!mCmp(e, *mBuf))"
      else
        pure { out with
          mOut := if BucketEntryIdCmp buf e then out.mOut ++ [buf] else out.mOut
          mBuf := some e }
    | none => pure { out with mBuf := some e }

/-- `BucketOutputIterator::getBucket`: the entries of the bucket, the buffered one
flushed last. -/
def getBucket (out : BucketOutputIterator K V) : List (BucketEntry K V) :=
  out.mOut ++ out.mBuf.toList

end BucketOutputIterator

open BucketOutputIterator

/-! ### The merge loop -/

/-- `mergeCasesWithDefaultAcceptance`: when one input is exhausted or the keys
differ, put the entry with the smaller key and advance its input. `none` when both
inputs hold the same key. -/
def mergeCasesWithDefaultAcceptance (oi ni : List (BucketEntry K V))
    (out : BucketOutputIterator K V) :
    Option (Except String (List (BucketEntry K V) × List (BucketEntry K V) ×
      BucketOutputIterator K V)) :=
  match oi, ni with
  | o :: os, [] => some do
    let out ← out.put o
    pure (os, [], out)
  | [], n :: ns => some do
    let out ← out.put n
    pure ([], ns, out)
  | o :: os, n :: ns =>
    if BucketEntryIdCmp o n then some do
      let out ← out.put o
      pure (os, n :: ns, out)
    else if BucketEntryIdCmp n o then some do
      let out ← out.put n
      pure (o :: os, ns, out)
    else none
  | [], [] => none

/-- `mergeCasesWithEqualKeys`: the lifecycle table for an old and a new entry of
one key.

| old    | new    | result  |
|--------|--------|---------|
| INIT   | INIT   | error   |
| LIVE   | INIT   | error   |
| DEAD   | INIT=x | LIVE=x  |
| INIT=x | LIVE=y | INIT=y  |
| INIT   | DEAD   | nothing |
| other  | y      | y       |
-/
def mergeCasesWithEqualKeys (oldEntry newEntry : BucketEntry K V)
    (out : BucketOutputIterator K V) : Except String (BucketOutputIterator K V) :=
  match newEntry with
  | INITENTRY k v =>
    -- the only legal new-is-INIT case is merging a delete and a create to an update
    if oldEntry.isDead then out.put (LIVEENTRY k v)
    else throw "Malformed bucket: old non-DEAD + new INIT."
  | _ =>
    match oldEntry with
    | INITENTRY _ _ =>
      match newEntry with
      | LIVEENTRY k v => out.put (INITENTRY k v)
      | DEADENTRY _ => pure out
      | INITENTRY _ _ => throw "Malformed bucket: old INIT + new non-DEAD."
    | _ => out.put newEntry

/-- The `while (oi || ni)` loop of `Bucket::merge`, on the remaining entries of the
two inputs. Every iteration consumes an entry, so the fuel `oi.length + ni.length`
is enough (`mergeLoop_spec`); running out of it is an error the code does not have. -/
def mergeLoop : Nat → List (BucketEntry K V) → List (BucketEntry K V) →
    BucketOutputIterator K V → Except String (BucketOutputIterator K V)
  | _, [], [], out => pure out
  | 0, _, _, _ => throw "merge loop out of fuel"
  | fuel + 1, oi, ni, out =>
    match mergeCasesWithDefaultAcceptance oi ni out with
    | some r => do
      let (oi, ni, out) ← r
      mergeLoop fuel oi ni out
    | none =>
      match oi, ni with
      | o :: os, n :: ns => do
        let out ← mergeCasesWithEqualKeys o n out
        mergeLoop fuel os ns out
      | _, _ => pure out

/-- `Bucket::merge(oldBucket, newBucket)` without shadows. -/
def merge (keepDeadEntries : Bool) (oldBucket newBucket : List (BucketEntry K V)) :
    Except String (List (BucketEntry K V)) := do
  let out ← mergeLoop (oldBucket.length + newBucket.length) oldBucket newBucket
    (BucketOutputIterator.init keepDeadEntries)
  pure out.getBucket

/-! ### The lifecycle table as a function -/

/-- What `mergeCasesWithEqualKeys` keeps of an old and a new entry of one key; the
malformed pairs, on which it throws, keep the new entry here. -/
def mergeEntries (oldEntry newEntry : BucketEntry K V) : Option (BucketEntry K V) :=
  match oldEntry, newEntry with
  | DEADENTRY _, INITENTRY k v => some (LIVEENTRY k v)
  | INITENTRY _ _, LIVEENTRY k v => some (INITENTRY k v)
  | INITENTRY _ _, DEADENTRY _ => none
  | _, n => some n

/-- A pair of entries of one key that `mergeCasesWithEqualKeys` rejects: a new INIT
entry over an old entry that is not DEAD. -/
def Malformed (oldEntry newEntry : BucketEntry K V) : Prop :=
  newEntry.isInit = true ∧ oldEntry.isDead = false

/-- No pair of entries of one key, one from each input, is malformed. -/
def WellPaired (oi ni : List (BucketEntry K V)) : Prop :=
  ∀ o ∈ oi, ∀ n ∈ ni, o.key = n.key → ¬ Malformed o n

/-- The entries the output iterator writes: all, or all but the dead ones. -/
def kept (keepDeadEntries : Bool) (e : BucketEntry K V) : Bool :=
  keepDeadEntries || !e.isDead

omit [LinearOrder K] in
/-- What `mergeEntries` keeps has the key of the pair. -/
theorem key_of_mergeEntries (o n r : BucketEntry K V) (heq : o.key = n.key)
    (h : mergeEntries o n = some r) : r.key = o.key := by
  rw [heq]
  cases o <;> cases n <;> simp only [mergeEntries, Option.some.injEq, reduceCtorEq] at h <;>
    subst h <;> rfl

/-! ### The output iterator on sorted input -/

section Output

variable (out : BucketOutputIterator K V)

/-- Every entry the iterator holds has a key below `k`. -/
def Below (k : K) : Prop := ∀ x ∈ out.getBucket, x.key < k

/-- **`put` on an entry with a greater key** appends it, when it is kept; the
`releaseAssert` holds. -/
theorem put_spec (e : BucketEntry K V) (h : Below out e.key) :
    ∃ out', out.put e = .ok out' ∧
      out'.getBucket = out.getBucket ++ [e].filter (kept out.mKeepDeadEntries) ∧
      out'.mKeepDeadEntries = out.mKeepDeadEntries := by
  unfold put
  by_cases hdrop : (!out.mKeepDeadEntries && e.isDead) = true
  · -- a dead entry that is not kept is dropped
    refine ⟨out, by rw [if_pos hdrop]; rfl, ?_, rfl⟩
    have : kept out.mKeepDeadEntries e = false := by
      simp only [Bool.and_eq_true, Bool.not_eq_true'] at hdrop
      simp [kept, hdrop.1, hdrop.2]
    simp [this]
  · have hkept : kept out.mKeepDeadEntries e = true := by
      simp only [Bool.and_eq_true, Bool.not_eq_true', not_and] at hdrop
      cases hk : out.mKeepDeadEntries <;> simp_all [kept]
    rw [if_neg hdrop]
    cases hbuf : out.mBuf with
    | none =>
      refine ⟨_, rfl, ?_, rfl⟩
      simp [getBucket, hbuf, hkept]
    | some buf =>
      -- the buffered entry has a smaller key, so it is flushed before `e`
      have hlt : buf.key < e.key := h buf (by simp [getBucket, hbuf])
      have hne : BucketEntryIdCmp e buf = false := by
        simpa [BucketEntryIdCmp] using le_of_lt hlt
      have hflush : BucketEntryIdCmp buf e = true := by simpa [BucketEntryIdCmp] using hlt
      refine ⟨{ out with mOut := out.mOut ++ [buf], mBuf := some e }, ?_, ?_, rfl⟩
      · simp only [hne, hflush, Bool.false_eq_true, ↓reduceIte]
        rfl
      · simp [getBucket, hbuf, hkept]

end Output

/-- `mergeCasesWithEqualKeys` on a well-formed pair puts what `mergeEntries` keeps. -/
theorem mergeCasesWithEqualKeys_spec (out : BucketOutputIterator K V) (o n : BucketEntry K V)
    (heq : o.key = n.key) (hok : ¬ Malformed o n) (h : Below out n.key) :
    ∃ out', mergeCasesWithEqualKeys o n out = .ok out' ∧
      out'.getBucket = out.getBucket ++ (mergeEntries o n).toList.filter (kept out.mKeepDeadEntries) ∧
      out'.mKeepDeadEntries = out.mKeepDeadEntries := by
  cases n with
  | INITENTRY k v =>
    -- only an old DEAD entry is allowed under a new INIT
    have hdead : o.isDead = true := by
      simpa [Malformed, BucketEntry.isInit] using hok
    cases o with
    | DEADENTRY _ => exact put_spec out (LIVEENTRY k v) h
    | LIVEENTRY _ _ => simp [BucketEntry.isDead] at hdead
    | INITENTRY _ _ => simp [BucketEntry.isDead] at hdead
  | LIVEENTRY k v =>
    cases o with
    | INITENTRY _ _ => exact put_spec out (INITENTRY k v) h
    | LIVEENTRY _ _ => exact put_spec out _ h
    | DEADENTRY _ => exact put_spec out _ h
  | DEADENTRY k =>
    cases o with
    | INITENTRY _ _ => exact ⟨out, rfl, by simp [mergeEntries], rfl⟩
    | LIVEENTRY _ _ => exact put_spec out _ h
    | DEADENTRY _ => exact put_spec out _ h

/-! ### The loop on sorted input -/

/-- What the rest of the loop must establish, from the iterator `out` on: it returns,
having put the kept entries of the merge of what remains. -/
def LoopPost (fuel : Nat) (oi ni : List (BucketEntry K V)) (out : BucketOutputIterator K V) :
    Prop :=
  ∃ out', mergeLoop fuel oi ni out = .ok out' ∧
    out'.getBucket = out.getBucket ++
      (mergeWith key mergeEntries oi ni).filter (kept out.mKeepDeadEntries) ∧
    out'.mKeepDeadEntries = out.mKeepDeadEntries

/-- Putting `es` and then running the rest of the loop puts `es` followed by the
rest. -/
theorem LoopPost.cons {fuel : Nat} {oi ni : List (BucketEntry K V)}
    {out out₁ : BucketOutputIterator K V} {es : List (BucketEntry K V)}
    (hput : out₁.getBucket = out.getBucket ++ es.filter (kept out.mKeepDeadEntries))
    (hkeep : out₁.mKeepDeadEntries = out.mKeepDeadEntries) (hrest : LoopPost fuel oi ni out₁) :
    ∃ out', mergeLoop fuel oi ni out₁ = .ok out' ∧
      out'.getBucket = out.getBucket ++
        (es ++ mergeWith key mergeEntries oi ni).filter (kept out.mKeepDeadEntries) ∧
      out'.mKeepDeadEntries = out.mKeepDeadEntries := by
  obtain ⟨out', hrun, hget, hk⟩ := hrest
  refine ⟨out', hrun, ?_, hk.trans hkeep⟩
  rw [hget, hput, hkeep, List.filter_append, List.append_assoc]

/-- After putting entries with keys below `k`, the iterator is still below `k`. -/
theorem Below.put {out out₁ : BucketOutputIterator K V} {es : List (BucketEntry K V)} {k : K}
    (h : Below out k) (hes : ∀ e ∈ es, e.key < k)
    (hput : out₁.getBucket = out.getBucket ++ es.filter (kept out.mKeepDeadEntries)) :
    Below out₁ k := by
  intro x hx
  rw [hput] at hx
  rcases List.mem_append.mp hx with hx | hx
  · exact h x hx
  · exact hes x (List.mem_filter.mp hx).1

/-- An iteration that takes the default acceptance path. -/
theorem mergeLoop_succ_of_default {fuel : Nat} {oi ni : List (BucketEntry K V)}
    {out : BucketOutputIterator K V} (oi' ni' : List (BucketEntry K V))
    (out₁ : BucketOutputIterator K V) (h : mergeCasesWithDefaultAcceptance oi ni out = some (.ok (oi', ni', out₁))) :
    mergeLoop (fuel + 1) oi ni out = mergeLoop fuel oi' ni' out₁ := by
  match oi, ni with
  | [], [] => simp [mergeCasesWithDefaultAcceptance] at h
  | o :: os, ni => simp only [mergeLoop, h]; rfl
  | [], n :: ns => simp only [mergeLoop, h]; rfl

/-- An iteration on two entries with the same key. -/
theorem mergeLoop_succ_of_equal {fuel : Nat} {o n : BucketEntry K V}
    {os ns : List (BucketEntry K V)} {out out₁ : BucketOutputIterator K V}
    (h : mergeCasesWithDefaultAcceptance (o :: os) (n :: ns) out = none)
    (heq : mergeCasesWithEqualKeys o n out = .ok out₁) :
    mergeLoop (fuel + 1) (o :: os) (n :: ns) out = mergeLoop fuel os ns out₁ := by
  simp only [mergeLoop, h, heq]
  rfl

/-- **The merge loop on sorted inputs with no malformed pair**, by induction on the
fuel: with enough fuel it returns, having put the kept entries of the keyed merge.
Each case of the loop's body is one case of `mergeWith`. -/
theorem mergeLoop_spec (fuel : Nat) :
    ∀ (oi ni : List (BucketEntry K V)) (out : BucketOutputIterator K V),
      oi.length + ni.length ≤ fuel → SortedByKey key oi → SortedByKey key ni →
      WellPaired oi ni → (∀ y ∈ oi ++ ni, Below out y.key) → LoopPost fuel oi ni out := by
  induction fuel with
  | zero =>
    intro oi ni out hlen _ _ _ _
    -- no fuel: both inputs are empty
    obtain ⟨rfl, rfl⟩ : oi = [] ∧ ni = [] := by
      simpa [List.length_eq_zero_iff] using hlen
    exact ⟨out, rfl, by simp [mergeWith_nil_left], rfl⟩
  | succ fuel ih =>
    intro oi ni out hlen hso hsn hwp hbelow
    -- the remaining entries of both inputs are above what was put
    have hbelow_cons : ∀ {e : BucketEntry K V} {es : List (BucketEntry K V)}, SortedByKey key (e :: es) →
        ∀ y ∈ es, e.key < y.key := fun hs y hy => List.rel_of_pairwise_cons hs hy
    rcases oi with _ | ⟨o, os⟩ <;> rcases ni with _ | ⟨n, ns⟩
    · exact ⟨out, rfl, by simp [mergeWith_nil_left], rfl⟩
    · -- only new entries remain: put `n`
      obtain ⟨out₁, hput, hget, hkeep⟩ := put_spec out n (hbelow n (by simp))
      have hm : mergeWith key mergeEntries [] (n :: ns) = [n] ++ mergeWith key mergeEntries [] ns := by
        simp only [mergeWith_nil_left, List.singleton_append]
      rw [LoopPost, mergeLoop_succ_of_default [] ns out₁
        (by simp [mergeCasesWithDefaultAcceptance, hput]), hm]
      refine LoopPost.cons hget hkeep (ih [] ns out₁ (by simp at hlen ⊢; omega) hso hsn.of_cons
        (fun _ ho => absurd ho List.not_mem_nil) fun y hy => ?_)
      have hy : y ∈ ns := by simpa using hy
      exact (hbelow y (by simp [hy])).put (by simpa using hbelow_cons hsn y hy) hget
    · -- only old entries remain: put `o`
      obtain ⟨out₁, hput, hget, hkeep⟩ := put_spec out o (hbelow o (by simp))
      have hm : mergeWith key mergeEntries (o :: os) [] = [o] ++ mergeWith key mergeEntries os [] := by
        simp only [mergeWith_nil_right, List.singleton_append]
      rw [LoopPost, mergeLoop_succ_of_default os [] out₁
        (by simp [mergeCasesWithDefaultAcceptance, hput]), hm]
      refine LoopPost.cons hget hkeep (ih os [] out₁ (by simp at hlen ⊢; omega) hso.of_cons hsn
        (fun _ _ _ hn => absurd hn List.not_mem_nil) fun y hy => ?_)
      have hy : y ∈ os := by simpa using hy
      exact (hbelow y (by simp [hy])).put (by simpa using hbelow_cons hso y hy) hget
    · -- both inputs hold entries: the keys decide
      have hlen' : os.length + ns.length ≤ fuel := by simp at hlen; omega
      have hwp' : ∀ {oi ni : List (BucketEntry K V)}, oi ⊆ o :: os → ni ⊆ n :: ns →
          WellPaired oi ni := fun hoi hni o' ho' n' hn' => hwp o' (hoi ho') n' (hni hn')
      have hmem : ∀ {y}, y ∈ os ++ n :: ns ∨ y ∈ o :: os ++ ns → y ∈ o :: os ++ n :: ns := by
        intro y hy
        simp only [List.mem_append, List.mem_cons] at hy ⊢
        grind
      by_cases hlt : o.key < n.key
      · -- the old entry has the smaller key: put it, it is below all that remains
        obtain ⟨out₁, hput, hget, hkeep⟩ := put_spec out o (hbelow o (by simp))
        have hm : mergeWith key mergeEntries (o :: os) (n :: ns) =
            [o] ++ mergeWith key mergeEntries os (n :: ns) := by
          rw [mergeWith_cons_cons, if_pos hlt, List.singleton_append]
        rw [LoopPost, mergeLoop_succ_of_default os (n :: ns) out₁
          (by simp [mergeCasesWithDefaultAcceptance, BucketEntryIdCmp, hlt, hput]), hm]
        refine LoopPost.cons hget hkeep (ih os (n :: ns) out₁ (by simp only [List.length_cons] at hlen ⊢; omega) hso.of_cons hsn
          (hwp' (List.subset_cons_self _ _) (List.Subset.refl _)) fun y hy => ?_)
        refine (hbelow y (hmem (.inl hy))).put (fun e he => ?_) hget
        rw [List.mem_singleton.mp he]
        rcases List.mem_append.mp hy with hy | hy
        · exact hbelow_cons hso y hy
        · rcases List.mem_cons.mp hy with rfl | hy
          · exact hlt
          · exact hlt.trans (hbelow_cons hsn y hy)
      by_cases hgt : n.key < o.key
      · -- the new entry has the smaller key: put it
        obtain ⟨out₁, hput, hget, hkeep⟩ := put_spec out n (hbelow n (by simp))
        have hm : mergeWith key mergeEntries (o :: os) (n :: ns) =
            [n] ++ mergeWith key mergeEntries (o :: os) ns := by
          rw [mergeWith_cons_cons, if_neg hlt, if_pos hgt, List.singleton_append]
        rw [LoopPost, mergeLoop_succ_of_default (o :: os) ns out₁
          (by simp [mergeCasesWithDefaultAcceptance, BucketEntryIdCmp, hlt, hgt, hput]), hm]
        refine LoopPost.cons hget hkeep (ih (o :: os) ns out₁ (by simp only [List.length_cons] at hlen ⊢; omega) hso hsn.of_cons
          (hwp' (List.Subset.refl _) (List.subset_cons_self _ _)) fun y hy => ?_)
        refine (hbelow y (hmem (.inr hy))).put (fun e he => ?_) hget
        rw [List.mem_singleton.mp he]
        rcases List.mem_append.mp hy with hy | hy
        · rcases List.mem_cons.mp hy with rfl | hy
          · exact hgt
          · exact hgt.trans (hbelow_cons hso y hy)
        · exact hbelow_cons hsn y hy
      -- equal keys: the lifecycle table decides what is put
      have heq : o.key = n.key := le_antisymm (not_lt.mp hgt) (not_lt.mp hlt)
      obtain ⟨out₁, hput, hget, hkeep⟩ := mergeCasesWithEqualKeys_spec out o n heq
        (hwp o List.mem_cons_self n List.mem_cons_self heq) (hbelow n (by simp))
      have hm : mergeWith key mergeEntries (o :: os) (n :: ns) =
          (mergeEntries o n).toList ++ mergeWith key mergeEntries os ns := by
        rw [mergeWith_cons_cons, if_neg hlt, if_neg hgt]
      rw [LoopPost, mergeLoop_succ_of_equal
        (by simp [mergeCasesWithDefaultAcceptance, BucketEntryIdCmp, hlt, hgt]) hput, hm]
      refine LoopPost.cons hget hkeep (ih os ns out₁ hlen' hso.of_cons hsn.of_cons
        (hwp' (List.subset_cons_self _ _) (List.subset_cons_self _ _)) fun y hy => ?_)
      refine (hbelow y (hmem (.inl (List.mem_append.mpr ((List.mem_append.mp hy).imp id
        (List.mem_cons_of_mem _)))))).put (fun e he => ?_) hget
      -- what is kept has the common key, below both tails
      rw [key_of_mergeEntries o n e heq (Option.mem_toList.mp he)]
      rcases List.mem_append.mp hy with hy | hy
      · exact hbelow_cons hso y hy
      · exact heq ▸ hbelow_cons hsn y hy

/-- **Refinement of `Bucket::merge`.** On sorted buckets with no malformed pair,
the merge returns the keyed merge of the two buckets under the lifecycle table,
without the dead entries when they are not kept. -/
theorem merge_eq (keepDeadEntries : Bool) {oldBucket newBucket : List (BucketEntry K V)}
    (hold : SortedByKey key oldBucket) (hnew : SortedByKey key newBucket)
    (hwp : WellPaired oldBucket newBucket) :
    merge keepDeadEntries oldBucket newBucket =
      .ok ((mergeWith key mergeEntries oldBucket newBucket).filter (kept keepDeadEntries)) := by
  -- a fresh iterator holds nothing, so it is below every key
  obtain ⟨out', hrun, hget, -⟩ := mergeLoop_spec (oldBucket.length + newBucket.length) oldBucket
    newBucket (BucketOutputIterator.init keepDeadEntries) (Nat.le_refl _) hold hnew hwp
    (fun _ _ x hx => by simp [getBucket, BucketOutputIterator.init] at hx)
  rw [merge, hrun]
  show Except.ok out'.getBucket = _
  rw [hget]
  rfl

end Bucket

end HcnetCore
