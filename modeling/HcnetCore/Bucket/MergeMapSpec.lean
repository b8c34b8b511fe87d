import HcnetCore.Bucket.MergeMap
import HcnetCore.Systems.Containers
import HcnetCore.Systems.ExceptSpec
import Mathlib.Data.List.Induction

/-!
# `BucketMergeMap` stays consistent

Over every sequence of `recordMerge` and `forgetAllMergesProducing` calls in which a
merge key is only ever recorded with one output, the three maps of a `BucketMergeMap`
agree with each other (`Consistent`) and with the merges that were recorded and not yet
forgotten (`liveMerges`); so the queries answer from those merges, and forgetting an
output removes every trace of it (`bucketMergeMap_consistent`).

`Consistent m` is the pair of conditions on the maps:

* `key_output` — `mMergeKeyToOutput` maps `k` to `o` exactly when `(o, k)` is an entry
  of `mOutputToMergeKey`;
* `input_output` — `mInputToOutput` is, as a multiset, the union over the entries
  `(o, k)` of `mOutputToMergeKey`, with their multiplicity, of the entries `(h, o)` for
  the input hashes `h` of `k` (`inputEntries`).

The proof follows the calls:

* `Consistent.recordMerge` — recording keeps the conditions when the key is unmapped or
  mapped to the same output;
* `forgetAllMergesProducing_eq` — the loop of `forgetAllMergesProducing` never fails its
  assertion, and each of the three maps goes through its own fold, which the
  `foldl_forgetEntry_*` lemmas compute;
* `Consistent.forget` — the entries of the output leave `mOutputToMergeKey`; by
  `input_output` the entries the inner loop erases are all there, so
  `Containers.foldl_erase_perm` applies; and by `key_output` no key of another output
  is erased from `mMergeKeyToOutput`;
* `run_consistent` — by induction over the calls, with `liveMerges` as the abstract state.

Duplicate records of one merge, shared inputs of two merges with one output, and the
equal hashes that `getMergeKeyHashes` collapses all come out right because both
conditions count entries with their multiplicity.
-/

namespace HcnetCore

namespace Bucket

open Containers

variable {H : Type} [DecidableEq H]

/-! ### The data the loops read -/

theorem mem_getMergeKeyHashes {key : MergeKey H} {h : H} :
    h ∈ getMergeKeyHashes key ↔
      h = key.mInputCurrBucket ∨ h = key.mInputSnapBucket ∨ h ∈ key.mInputShadowBuckets := by
  rw [getMergeKeyHashes, mem_foldl_insert, List.mem_insert_iff, List.mem_insert_iff]
  simp only [List.not_mem_nil, or_false]
  tauto

/-- Equal input hashes are one input. -/
example : getMergeKeyHashes (⟨false, 1, 1, [1, 2]⟩ : MergeKey ℕ) = [2, 1] := rfl

theorem mapEmplace_eq_some {m : MergeKey H → Option H} {k k' : MergeKey H} {v v' : H}
    (hk : ∀ w, m k = some w → w = v) :
    mapEmplace m k v k' = some v' ↔ m k' = some v' ∨ k' = k ∧ v' = v := by
  unfold mapEmplace
  cases hmk : m k with
  | some w =>
    -- `k` is mapped already, and to `v`: the map is unchanged
    have hw := hk w hmk
    subst hw
    simp only [Option.isSome_some, if_true]
    constructor
    · exact .inl
    · rintro (h | ⟨rfl, rfl⟩)
      · exact h
      · exact hmk
  | none =>
    simp only [Option.isSome_none, Bool.false_eq_true, if_false]
    by_cases hkk : k' = k
    · subst hkk
      simp [hmk, eq_comm]
    · simp [hkk]

theorem mapErase_apply (m : MergeKey H → Option H) (k k' : MergeKey H) :
    mapErase m k k' = if k' = k then none else m k' := by
  unfold mapErase
  split
  · next h => rw [h, Function.update_self]
  · next h => rw [Function.update_of_ne h]

namespace BucketMergeMap

/-- The entries of `mInputToOutput` that stand for the entry `(output, key)` of
`mOutputToMergeKey`: one per input hash of `key`. -/
def inputEntries (entry : H × MergeKey H) : List (H × H) :=
  (getMergeKeyHashes entry.2).map fun h => (h, entry.1)

theorem mem_inputEntries {entry : H × MergeKey H} {p : H × H} :
    p ∈ inputEntries entry ↔ p.2 = entry.1 ∧ p.1 ∈ getMergeKeyHashes entry.2 := by
  obtain ⟨h, o⟩ := p
  simp only [inputEntries, List.mem_map, Prod.mk.injEq]
  constructor
  · rintro ⟨h', hh', rfl, rfl⟩
    exact ⟨rfl, hh'⟩
  · rintro ⟨rfl, hh⟩
    exact ⟨h, hh, rfl, rfl⟩

/-- `Consistent m`: the three maps describe the same merges. -/
structure Consistent (m : BucketMergeMap H) : Prop where
  key_output : ∀ k o, m.mMergeKeyToOutput k = some o ↔ (o, k) ∈ m.mOutputToMergeKey
  input_output : m.mInputToOutput.Perm (m.mOutputToMergeKey.flatMap inputEntries)

theorem consistent_empty : Consistent (empty : BucketMergeMap H) where
  key_output _ _ := by simp [empty]
  input_output := by simp [empty]

/-! ### `recordMerge` -/

variable {m : BucketMergeMap H}

@[simp] theorem recordMerge_mOutputToMergeKey (k : MergeKey H) (o : H) :
    (m.recordMerge k o).mOutputToMergeKey = m.mOutputToMergeKey ++ [(o, k)] := rfl

theorem recordMerge_mInputToOutput (k : MergeKey H) (o : H) :
    (m.recordMerge k o).mInputToOutput = m.mInputToOutput ++ inputEntries (o, k) :=
  foldl_append_singleton (fun h => (h, o)) _ _

/-- **Recording keeps the maps consistent**, where the key is not mapped to another
output. -/
theorem Consistent.recordMerge (hc : Consistent m) {k : MergeKey H} {o : H}
    (hk : ∀ o', m.mMergeKeyToOutput k = some o' → o' = o) : Consistent (m.recordMerge k o) where
  key_output k' o' := by
    rw [recordMerge_mOutputToMergeKey, List.mem_append, List.mem_singleton, ← hc.key_output]
    simp only [BucketMergeMap.recordMerge, Prod.mk.injEq]
    rw [mapEmplace_eq_some hk]
    tauto
  input_output := by
    rw [recordMerge_mInputToOutput, recordMerge_mOutputToMergeKey, List.flatMap_append,
      List.flatMap_singleton]
    exact hc.input_output.append_right _

/-! ### `forgetAllMergesProducing` -/

variable {O : H}

theorem forgetMerge_eq {entry : H × MergeKey H} (he : entry.1 = O)
    (acc : List (MergeKey H) × BucketMergeMap H) :
    forgetMerge O acc entry = .ok (acc.1.insert entry.2, acc.2.forgetEntry O entry) := by
  rw [forgetMerge, releaseAssert_bind, if_pos he]
  rfl

/-- **The loop of `forgetAllMergesProducing`** fails no assertion: it returns the keys of
the entries of `outputBeingDropped`, and the map with each of them forgotten. -/
theorem forgetAllMergesProducing_eq (m : BucketMergeMap H) (O : H) :
    m.forgetAllMergesProducing O =
      .ok (((m.mOutputToMergeKey.filter fun e => e.1 = O).map Prod.snd).foldl
          (fun s k => s.insert k) [],
        (m.mOutputToMergeKey.filter fun e => e.1 = O).foldl (fun m e => m.forgetEntry O e) m) := by
  rw [forgetAllMergesProducing, Except.foldlM_eq_ok (g := fun acc e =>
    (acc.1.insert e.2, acc.2.forgetEntry O e)), List.foldl_map]
  · exact congrArg Except.ok
      (foldl_pair (fun s e => s.insert e.2) (fun m e => m.forgetEntry O e) _ [] m)
  · intro e he acc
    exact forgetMerge_eq (by simpa using (List.mem_filter.mp he).2) acc

theorem foldl_forgetEntry_mOutputToMergeKey : ∀ (es : List (H × MergeKey H))
    (m : BucketMergeMap H),
    (es.foldl (fun m e => m.forgetEntry O e) m).mOutputToMergeKey = es.foldl List.erase m.mOutputToMergeKey
  | [], _ => rfl
  | e :: es, m => foldl_forgetEntry_mOutputToMergeKey es (m.forgetEntry O e)

theorem foldl_forgetEntry_mInputToOutput : ∀ (es : List (H × MergeKey H))
    (m : BucketMergeMap H),
    (es.foldl (fun m e => m.forgetEntry O e) m).mInputToOutput =
      (es.flatMap fun e => (getMergeKeyHashes e.2).map fun h => (h, O)).foldl List.erase
        m.mInputToOutput
  | [], _ => rfl
  | e :: es, m => by
    rw [List.foldl_cons, foldl_forgetEntry_mInputToOutput es, List.flatMap_cons,
      List.foldl_append]
    simp only [forgetEntry, List.foldl_map]

theorem foldl_forgetEntry_mMergeKeyToOutput : ∀ (es : List (H × MergeKey H))
    (m : BucketMergeMap H) (k : MergeKey H),
    (es.foldl (fun m e => m.forgetEntry O e) m).mMergeKeyToOutput k =
      if k ∈ es.map Prod.snd then none else m.mMergeKeyToOutput k
  | [], _, _ => by simp
  | e :: es, m, k => by
    rw [List.foldl_cons, foldl_forgetEntry_mMergeKeyToOutput es]
    simp only [forgetEntry, mapErase_apply, List.map_cons, List.mem_cons]
    by_cases hk : k = e.2
    · simp [hk]
    · simp only [hk, false_or, if_false]

/-- The keys of the entries of `O` are the keys recorded with `O`. -/
theorem mem_map_snd_filter {O : H} {k : MergeKey H} (E : List (H × MergeKey H)) :
    k ∈ (E.filter fun e => e.1 = O).map Prod.snd ↔ (O, k) ∈ E := by
  simp only [List.mem_map, List.mem_filter, decide_eq_true_eq]
  constructor
  · rintro ⟨⟨o, k'⟩, ⟨he, rfl⟩, rfl⟩
    exact he
  · intro hk
    exact ⟨(O, k), ⟨hk, rfl⟩, rfl⟩

/-- **Forgetting an output keeps the maps consistent**: the entries of the output leave
`mOutputToMergeKey`, and the keys it returns are the keys recorded with it. -/
theorem Consistent.forget (hc : Consistent m) (O : H) :
    ∃ ret m', m.forgetAllMergesProducing O = .ok (ret, m') ∧ ret.Nodup ∧
      (∀ k, k ∈ ret ↔ (O, k) ∈ m.mOutputToMergeKey) ∧
      m'.mOutputToMergeKey.Perm (m.mOutputToMergeKey.filter fun e => !decide (e.1 = O)) ∧
      Consistent m' := by
  -- the entries of `O`, which the loop visits, and the others, which stay
  have hpart : m.mOutputToMergeKey.Perm ((m.mOutputToMergeKey.filter fun e => e.1 = O) ++
      m.mOutputToMergeKey.filter fun e => !decide (e.1 = O)) :=
    (List.filter_append_perm _ _).symm
  have hE := foldl_erase_perm hpart
  rw [← foldl_forgetEntry_mOutputToMergeKey (O := O) _ m] at hE
  refine ⟨_, _, forgetAllMergesProducing_eq m O, nodup_foldl_insert List.nodup_nil,
    fun k => ?_, hE, ⟨fun k o => ?_, ?_⟩⟩
  · rw [mem_foldl_insert, mem_map_snd_filter]
    simp
  · -- a key of another output is kept, since by `key_output` it is not a key of `O`
    rw [foldl_forgetEntry_mMergeKeyToOutput, hE.mem_iff, List.mem_filter]
    by_cases hk : k ∈ (m.mOutputToMergeKey.filter fun e => e.1 = O).map Prod.snd
    · rw [if_pos hk]
      have hO := (hc.key_output k O).mpr ((mem_map_snd_filter _).mp hk)
      simp only [reduceCtorEq, false_iff, not_and, Bool.not_eq_true', decide_eq_false_iff_not]
      intro hok
      rw [(hc.key_output k o).mpr hok] at hO
      exact fun hne => hne (Option.some.inj hO)
    · rw [if_neg hk, hc.key_output]
      rw [mem_map_snd_filter] at hk
      constructor
      · intro hok
        refine ⟨hok, ?_⟩
        simp only [Bool.not_eq_true', decide_eq_false_iff_not]
        rintro rfl
        exact hk hok
      · exact fun h => h.1
  · -- the inner loops erase the input entries of the visited entries, which are there
    rw [foldl_forgetEntry_mInputToOutput]
    have hvisit : ((m.mOutputToMergeKey.filter fun e => e.1 = O).flatMap fun e =>
        (getMergeKeyHashes e.2).map fun h => (h, O)) =
        (m.mOutputToMergeKey.filter fun e => e.1 = O).flatMap inputEntries := by
      apply List.flatMap_congr
      intro e he
      rw [inputEntries, of_decide_eq_true (List.mem_filter.mp he).2]
    have hI := hc.input_output.trans (hpart.flatMap_right inputEntries)
    rw [List.flatMap_append, ← hvisit] at hI
    exact (foldl_erase_perm hI).trans (hE.flatMap_right inputEntries).symm

/-- **`getOutputsUsingInput`** answers the outputs of the recorded merges that read
`input`. -/
theorem Consistent.getOutputsUsingInput (hc : Consistent m) (input o : H) :
    o ∈ m.getOutputsUsingInput input [] ↔
      ∃ k, (o, k) ∈ m.mOutputToMergeKey ∧ input ∈ getMergeKeyHashes k := by
  have hfold : (m.mInputToOutput.filter fun e => e.1 = input).foldl
      (fun outs entry => outs.insert entry.2) [] =
      ((m.mInputToOutput.filter fun e => e.1 = input).map Prod.snd).foldl
        (fun s a => s.insert a) [] := by
    rw [List.foldl_map]
  rw [BucketMergeMap.getOutputsUsingInput, hfold, mem_foldl_insert]
  have hmem : o ∈ (m.mInputToOutput.filter fun e => e.1 = input).map Prod.snd ↔
      (input, o) ∈ m.mInputToOutput := by
    simp only [List.mem_map, List.mem_filter, decide_eq_true_eq]
    constructor
    · rintro ⟨⟨h, o'⟩, ⟨he, rfl⟩, rfl⟩
      exact he
    · intro he
      exact ⟨(input, o), ⟨he, rfl⟩, rfl⟩
  rw [List.mem_nil_iff, false_or, hmem, hc.input_output.mem_iff, List.mem_flatMap]
  constructor
  · rintro ⟨⟨o', k⟩, he, hin⟩
    obtain ⟨rfl, hk⟩ := mem_inputEntries.mp hin
    exact ⟨k, he, hk⟩
  · rintro ⟨k, he, hk⟩
    exact ⟨(o, k), he, mem_inputEntries.mpr ⟨rfl, hk⟩⟩

/-- After forgetting `O`, a consistent map mentions `O` nowhere. -/
theorem Consistent.not_mentions (hc : Consistent m) {O : H}
    (hE : ∀ k, (O, k) ∉ m.mOutputToMergeKey) :
    (∀ k, m.mMergeKeyToOutput k ≠ some O) ∧ ∀ h, (h, O) ∉ m.mInputToOutput := by
  refine ⟨fun k hk => hE k ((hc.key_output k O).mp hk), fun h hh => ?_⟩
  obtain ⟨⟨o, k⟩, he, hin⟩ := List.mem_flatMap.mp (hc.input_output.mem_iff.mp hh)
  obtain ⟨rfl, -⟩ := mem_inputEntries.mp hin
  exact hE k he

end BucketMergeMap

/-! ### Runs, and the merges they leave recorded -/

/-- What a call does to the merges that are recorded and not yet forgotten. -/
def liveStep (live : List (MergeKey H × H)) : MergeMapCall H → List (MergeKey H × H)
  | .recordMerge k o => live ++ [(k, o)]
  | .forgetAllMergesProducing o => live.filter fun e => !decide (e.2 = o)

/-- The merges that `calls` recorded and did not forget, each as often as it was
recorded. -/
def liveMerges (calls : List (MergeMapCall H)) : List (MergeKey H × H) :=
  calls.foldl liveStep []

theorem liveMerges_append_singleton (calls : List (MergeMapCall H)) (c : MergeMapCall H) :
    liveMerges (calls ++ [c]) = liveStep (liveMerges calls) c := by
  rw [liveMerges, List.foldl_append]
  rfl

/-- A live merge was recorded by one of the calls. -/
theorem recordMerge_mem_of_mem_liveMerges {k : MergeKey H} {o : H} :
    ∀ {calls : List (MergeMapCall H)}, (k, o) ∈ liveMerges calls →
      MergeMapCall.recordMerge k o ∈ calls := by
  intro calls
  induction calls using List.reverseRecOn with
  | nil => simp [liveMerges]
  | append_singleton calls c ih =>
    rw [liveMerges_append_singleton]
    cases c with
    | recordMerge k' o' =>
      intro h
      rcases List.mem_append.mp h with h | h
      · exact List.mem_append_left _ (ih h)
      · rw [List.mem_singleton, Prod.mk.injEq] at h
        rw [h.1, h.2]
        exact List.mem_append_right _ (List.mem_singleton_self _)
    | forgetAllMergesProducing o' =>
      intro h
      exact List.mem_append_left _ (ih (List.mem_filter.mp h).1)

namespace BucketMergeMap

variable {m : BucketMergeMap H} {live : List (MergeKey H × H)}

/-- **One call** keeps the maps consistent and holding the live merges, where a merge it
records has no other output among them. -/
theorem call_spec (hc : Consistent m) (ha : m.mOutputToMergeKey.Perm (live.map Prod.swap))
    (c : MergeMapCall H) (hone : ∀ k o o', c = .recordMerge k o → (k, o') ∈ live → o' = o) :
    ∃ m', m.call c = .ok m' ∧ Consistent m' ∧
      m'.mOutputToMergeKey.Perm ((liveStep live c).map Prod.swap) := by
  cases c with
  | recordMerge k o =>
    -- the key is mapped only to an output it was recorded with, which is `o`
    have hk : ∀ o', m.mMergeKeyToOutput k = some o' → o' = o := by
      intro o' hk
      have hmem := ha.mem_iff.mp ((hc.key_output k o').mp hk)
      rw [List.mem_map] at hmem
      obtain ⟨⟨k', o''⟩, hlive, hswap⟩ := hmem
      simp only [Prod.swap_prod_mk, Prod.mk.injEq] at hswap
      rw [hswap.1, hswap.2] at hlive
      exact hone k o o' rfl hlive
    refine ⟨_, rfl, hc.recordMerge hk, ?_⟩
    rw [recordMerge_mOutputToMergeKey, liveStep, List.map_append]
    exact ha.append_right _
  | forgetAllMergesProducing o =>
    obtain ⟨ret, m', heq, -, -, hE, hc'⟩ := hc.forget o
    refine ⟨m', by rw [call, heq]; rfl, hc', ?_⟩
    -- filtering commutes with swapping the pairs
    have hswap : (live.map Prod.swap).filter (fun e => !decide (e.1 = o)) =
        (live.filter fun e => !decide (e.2 = o)).map Prod.swap :=
      List.filter_map
    rw [liveStep, ← hswap]
    exact hE.trans (ha.filter _)

/-- **Every run keeps the maps consistent** and holding the merges it recorded and did
not forget, where no key is recorded with two outputs. -/
theorem run_consistent (calls : List (MergeMapCall H))
    (hone : ∀ k o o', .recordMerge k o ∈ calls → .recordMerge k o' ∈ calls → o = o') :
    ∃ m, empty.run calls = .ok m ∧ Consistent m ∧
      m.mOutputToMergeKey.Perm ((liveMerges calls).map Prod.swap) := by
  induction calls using List.reverseRecOn with
  | nil => exact ⟨empty, rfl, consistent_empty, by simp [empty, liveMerges]⟩
  | append_singleton calls c ih =>
    obtain ⟨m, hrun, hc, ha⟩ := ih fun k o o' h h' =>
      hone k o o' (List.mem_append_left _ h) (List.mem_append_left _ h')
    -- the call `c` records no key that a live merge has with another output
    have hc_one : ∀ k o o', c = .recordMerge k o → (k, o') ∈ liveMerges calls → o' = o := by
      intro k o o' hck hlive
      exact hone k o' o (List.mem_append_left _ (recordMerge_mem_of_mem_liveMerges hlive))
        (List.mem_append_right _ (by rw [hck]; exact List.mem_singleton_self _))
    obtain ⟨m', hcall, hc', ha'⟩ := call_spec hc ha c hc_one
    refine ⟨m', ?_, hc', by rw [liveMerges_append_singleton]; exact ha'⟩
    rw [run, List.foldlM_append]
    rw [run] at hrun
    rw [hrun, Except.ok_bind, List.foldlM_cons, hcall, Except.ok_bind]
    rfl

end BucketMergeMap

/-! ### The claim -/

open BucketMergeMap

/-- What the map `m` that the calls `calls` leave answers: its maps are consistent and
hold the live merges; forgetting an output returns the keys recorded with it and leaves
no entry that mentions it; `getOutputsUsingInput` and `findMergeFor` answer from the
live merges. -/
structure AnswersLiveMerges (calls : List (MergeMapCall H)) (m : BucketMergeMap H) : Prop where
  consistent : Consistent m
  outputToMergeKey : m.mOutputToMergeKey.Perm ((liveMerges calls).map Prod.swap)
  forget : ∀ o, ∃ ret m', m.forgetAllMergesProducing o = .ok (ret, m') ∧ ret.Nodup ∧
    (∀ k, k ∈ ret ↔ (k, o) ∈ liveMerges calls) ∧
    (∀ k, m'.mMergeKeyToOutput k ≠ some o) ∧ (∀ h, (h, o) ∉ m'.mInputToOutput) ∧
    (∀ k, (o, k) ∉ m'.mOutputToMergeKey)
  outputsUsingInput : ∀ input o, o ∈ m.getOutputsUsingInput input [] ↔
    ∃ k, (k, o) ∈ liveMerges calls ∧ (input = k.mInputCurrBucket ∨
      input = k.mInputSnapBucket ∨ input ∈ k.mInputShadowBuckets)
  findMergeFor : ∀ k o, m.findMergeFor k = some o ↔ (k, o) ∈ liveMerges calls

omit [DecidableEq H] in
/-- A live merge `(k, o)` is the entry `(o, k)` of a map that holds the live merges. -/
theorem mem_swap_iff {E : List (H × MergeKey H)} {live : List (MergeKey H × H)}
    (ha : E.Perm (live.map Prod.swap)) {k : MergeKey H} {o : H} :
    (o, k) ∈ E ↔ (k, o) ∈ live := by
  rw [ha.mem_iff, List.mem_map]
  constructor
  · rintro ⟨⟨k', o'⟩, h, hswap⟩
    simp only [Prod.swap_prod_mk, Prod.mk.injEq] at hswap
    rwa [← hswap.1, ← hswap.2]
  · intro h
    exact ⟨(k, o), h, rfl⟩

/-- **`BucketMergeMap` stays consistent.** Over every sequence of calls in which a merge
key is only ever recorded with one output, the map that the calls leave answers from the
merges that were recorded and not yet forgotten (`AnswersLiveMerges`). -/
theorem bucketMergeMap_consistent (calls : List (MergeMapCall H))
    (hone : ∀ k o o', .recordMerge k o ∈ calls → .recordMerge k o' ∈ calls → o = o') :
    ∃ m, BucketMergeMap.empty.run calls = .ok m ∧ AnswersLiveMerges calls m := by
  obtain ⟨m, hrun, hc, ha⟩ := run_consistent calls hone
  refine ⟨m, hrun, ⟨hc, ha, fun o => ?_, fun input o => ?_, fun k o => ?_⟩⟩
  · obtain ⟨ret, m', heq, hnodup, hret, hE, hc'⟩ := hc.forget o
    -- no entry of `o` is left in `mOutputToMergeKey`, hence none in the other maps
    have hnone : ∀ k, (o, k) ∉ m'.mOutputToMergeKey := by
      intro k hk
      have := (List.mem_filter.mp (hE.mem_iff.mp hk)).2
      simp at this
    refine ⟨ret, m', heq, hnodup, fun k => ?_, (hc'.not_mentions hnone).1,
      (hc'.not_mentions hnone).2, hnone⟩
    rw [hret, mem_swap_iff ha]
  · rw [hc.getOutputsUsingInput]
    simp only [mem_swap_iff ha, mem_getMergeKeyHashes]
  · rw [findMergeFor, hc.key_output, mem_swap_iff ha]

/-- Two merges of one output that share an input, one of them recorded twice, and a
merge of another output: the run passes every check. -/
theorem bucketMergeMap_consistent_shared_input :
    ∃ m, BucketMergeMap.empty.run
        [.recordMerge ⟨false, 1, 2, []⟩ 5, .recordMerge ⟨true, 2, 3, [2]⟩ 5,
          .recordMerge ⟨false, 1, 2, []⟩ 5, .recordMerge ⟨false, 4, 1, []⟩ 6,
          .forgetAllMergesProducing 5] = .ok m ∧
      AnswersLiveMerges [.recordMerge ⟨false, 1, 2, []⟩ 5, .recordMerge ⟨true, 2, 3, [2]⟩ 5,
          .recordMerge ⟨false, 1, 2, []⟩ 5, .recordMerge ⟨false, 4, 1, []⟩ 6,
          .forgetAllMergesProducing 5] m :=
  bucketMergeMap_consistent _ (by
    intro k o o' h h'
    simp only [List.mem_cons, MergeMapCall.recordMerge.injEq, List.not_mem_nil, or_false,
      reduceCtorEq] at h h'
    -- the keys recorded are distinct but for the repeated one, recorded with `5` twice
    rcases h with ⟨rfl, rfl⟩ | ⟨rfl, rfl⟩ | ⟨rfl, rfl⟩ | ⟨rfl, rfl⟩ <;> simp_all)

end Bucket

end HcnetCore
