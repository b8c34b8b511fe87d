import HcnetCore.Scp.QuorumSet
import HcnetCore.Systems.ShrinkFixpoint
import HcnetCore.Systems.ExceptSpec

/-!
# Quorum slices, v-blocking sets and quorums

What the threshold scans of `LocalNode` compute, and the facts the consensus protocols
rest on.

* `thresholdCountdown_isNone`, `blockCountdown_eq` — each countdown only asks whether
  the number of hits reaches a bound: `decrementU32 t + 1` for a slice (`t` itself for
  `1 ≤ t < 2 ^ 32`, and `2 ^ 32` for a zero threshold, which wraps), and
  `max (1 + n - t) 1` for a v-blocking set of a set with `n` entries;
* `isQuorumSlice_mono`, `isVBlocking_mono` — both scans are monotone in the node set;
* `Sane` — what `isQuorumSetSane` establishes (`sane_of_isQuorumSetSane`): every
  threshold between `1` and the number of entries of its set, no node twice, at most
  1000 nodes;
* `isVBlocking_eq_not_isQuorumSlice` — on a sane quorum set a node set is v-blocking
  exactly when the nodes outside it contain no slice;
* `isQuorum` — its loop is `Shrink.iterate` (`quorumFixpoint_eq_iterate`), so it stops
  within its fuel and keeps every set of filtered nodes that contains a slice of each of
  its members.
-/

namespace HcnetCore
namespace Scp
namespace LocalNode

variable {N : Type}

/-! ### The tree -/

theorem forAllNodesList_eq : ∀ l : List (SCPQuorumSet N), forAllNodesList l = l.flatMap forAllNodes
  | [] => rfl
  | q :: qs => by rw [forAllNodesList, forAllNodesList_eq qs, List.flatMap_cons]

theorem forAllNodes_mk (t : ℕ) (v : List N) (i : List (SCPQuorumSet N)) :
    forAllNodes (.mk t v i) = v ++ i.flatMap forAllNodes := by
  rw [forAllNodes, forAllNodesList_eq]

/-! ### Sane quorum sets -/

mutual
/-- Every threshold of the tree lies between `1` and the number of entries of its set. -/
def ThresholdsInRange : SCPQuorumSet N → Prop
  | .mk t v i => 1 ≤ t ∧ t ≤ v.length + i.length ∧ ThresholdsInRangeList i

/-- `ThresholdsInRange` for each set of a list. -/
def ThresholdsInRangeList : List (SCPQuorumSet N) → Prop
  | [] => True
  | q :: qs => ThresholdsInRange q ∧ ThresholdsInRangeList qs
end

theorem thresholdsInRangeList_iff :
    ∀ l : List (SCPQuorumSet N), ThresholdsInRangeList l ↔ ∀ q ∈ l, ThresholdsInRange q
  | [] => by simp [ThresholdsInRangeList]
  | q :: qs => by simp [ThresholdsInRangeList, thresholdsInRangeList_iff qs]

theorem thresholdsInRange_mk {t : ℕ} {v : List N} {i : List (SCPQuorumSet N)} :
    ThresholdsInRange (.mk t v i) ↔
      1 ≤ t ∧ t ≤ v.length + i.length ∧ ∀ q ∈ i, ThresholdsInRange q := by
  rw [ThresholdsInRange, thresholdsInRangeList_iff]

/-- What `isQuorumSetSane` checks, as properties of the tree. -/
structure Sane (q : SCPQuorumSet N) : Prop where
  thresholds : ThresholdsInRange q
  nodup : (forAllNodes q).Nodup
  length_le : (forAllNodes q).length ≤ 1000

/-- A tree whose thresholds are in range has a node: a threshold of at least one needs
an entry, and the innermost sets have validators. -/
theorem length_forAllNodes_pos (q : SCPQuorumSet N) (hq : ThresholdsInRange q) :
    0 < (forAllNodes q).length := by
  induction q using SCPQuorumSet.ind with
  | mk t v i ih =>
    obtain ⟨h1, hle, hi⟩ := thresholdsInRange_mk.mp hq
    rw [forAllNodes_mk, List.length_append]
    cases i with
    | nil => simp at hle; omega
    | cons c cs =>
      have hc := ih c (by simp) (hi c (by simp))
      simp only [List.flatMap_cons, List.length_append]
      omega

/-- Each inner set contributes a node, so there are at most as many inner sets as nodes
below them. -/
theorem length_le_length_flatMap (i : List (SCPQuorumSet N)) (hi : ∀ q ∈ i, ThresholdsInRange q) :
    i.length ≤ (i.flatMap forAllNodes).length := by
  induction i with
  | nil => simp
  | cons c cs ih =>
    have hc := length_forAllNodes_pos c (hi c (by simp))
    have hcs := ih fun q hq => hi q (by simp [hq])
    simp only [List.flatMap_cons, List.length_append, List.length_cons]
    omega

/-- The nodes of an inner set are a sublist of the nodes of its parent. -/
theorem forAllNodes_sublist_of_mem {t : ℕ} {v : List N} {i : List (SCPQuorumSet N)}
    {q : SCPQuorumSet N} (hq : q ∈ i) : (forAllNodes q).Sublist (forAllNodes (.mk t v i)) := by
  rw [forAllNodes_mk]
  exact (List.flatMap_def ▸ List.sublist_flatten_of_mem (List.mem_map_of_mem hq)).trans
    (List.sublist_append_right v _)

namespace Sane

variable {t : ℕ} {v : List N} {i : List (SCPQuorumSet N)}

theorem threshold_pos (h : Sane (.mk t v i)) : 1 ≤ t := (thresholdsInRange_mk.mp h.thresholds).1

theorem threshold_le (h : Sane (.mk t v i)) : t ≤ v.length + i.length :=
  (thresholdsInRange_mk.mp h.thresholds).2.1

/-- An inner set of a sane set is sane. -/
theorem inner (h : Sane (.mk t v i)) {q : SCPQuorumSet N} (hq : q ∈ i) : Sane q :=
  ⟨(thresholdsInRange_mk.mp h.thresholds).2.2 q hq,
    h.nodup.sublist (forAllNodes_sublist_of_mem hq),
    ((forAllNodes_sublist_of_mem hq).length_le).trans h.length_le⟩

/-- The threshold of a sane set fits in a `uint32`: it is at most its number of
entries, which is at most its number of nodes. -/
theorem threshold_lt (h : Sane (.mk t v i)) : t < 2 ^ 32 := by
  have hi := length_le_length_flatMap i (thresholdsInRange_mk.mp h.thresholds).2.2
  have hlen := h.length_le
  have hle := h.threshold_le
  rw [forAllNodes_mk, List.length_append] at hlen
  omega

/-- On a sane set, `decrementU32 t + 1` is the threshold itself. -/
theorem decrementU32_add_one (h : Sane (.mk t v i)) : decrementU32 t + 1 = t := by
  have h1 := h.threshold_pos
  have h2 := h.threshold_lt
  unfold decrementU32
  simp only [UINT32_MAX]
  omega

end Sane

section Scans

variable [DecidableEq N]

/-! ### The scans as counts -/

theorem isQuorumSliceInternalList_eq (S : List N) :
    ∀ l : List (SCPQuorumSet N), isQuorumSliceInternalList S l = l.map (isQuorumSliceInternal S)
  | [] => rfl
  | q :: qs => by rw [isQuorumSliceInternalList, isQuorumSliceInternalList_eq S qs, List.map_cons]

theorem isVBlockingInternalList_eq (S : List N) :
    ∀ l : List (SCPQuorumSet N), isVBlockingInternalList S l = l.map (isVBlockingInternal S)
  | [] => rfl
  | q :: qs => by rw [isVBlockingInternalList, isVBlockingInternalList_eq S qs, List.map_cons]

theorem count_true_map {α : Type} (f : α → Bool) (l : List α) :
    (l.map f).count true = l.countP f := by
  simp [List.count_eq_countP, List.countP_map, Function.comp_def]

/-- The `uint32` countdown of a slice stops after `decrementU32 t + 1` hits: `t` itself
for `1 ≤ t < 2 ^ 32`, and `2 ^ 32` for `t = 0`. -/
theorem thresholdCountdown_isNone (t : ℕ) (bs : List Bool) :
    (thresholdCountdown t bs).isNone = decide (decrementU32 t + 1 ≤ bs.count true) := by
  induction bs generalizing t with
  | nil => simp [thresholdCountdown]
  | cons b bs ih =>
    cases b with
    | false => simp [thresholdCountdown, ih]
    | true =>
      by_cases h0 : decrementU32 t = 0
      · simp [thresholdCountdown, h0]
      · -- one hit: the countdown goes on from `decrementU32 t`, which needs one fewer
        have hdec : decrementU32 (decrementU32 t) + 1 = decrementU32 t := by
          unfold decrementU32 at h0 ⊢
          simp only [UINT32_MAX] at h0 ⊢
          omega
        simp only [thresholdCountdown, if_true, if_neg h0, ih, hdec, List.count_cons_self]
        exact decide_eq_decide.mpr (by omega)

/-- The signed countdown of a v-blocking set stops after `max l 1` hits. -/
theorem blockCountdown_eq (l : ℤ) (bs : List Bool) :
    blockCountdown l bs = decide (max l 1 ≤ (bs.count true : ℤ)) := by
  induction bs generalizing l with
  | nil =>
    simp only [blockCountdown, List.count_nil]
    exact (decide_eq_false (by omega)).symm
  | cons b bs ih =>
    cases b with
    | false => simp [blockCountdown, ih]
    | true =>
      simp only [blockCountdown, if_true, List.count_cons_self, ih]
      split_ifs with hl
      · exact (decide_eq_true (by omega)).symm
      · exact decide_eq_decide.mpr (by omega)

/-- A slice: the validators in `S` and the inner sets with a slice in `S` reach the
threshold. -/
theorem isQuorumSliceInternal_mk (S : List N) (t : ℕ) (v : List N) (i : List (SCPQuorumSet N)) :
    isQuorumSliceInternal S (.mk t v i) =
      decide (decrementU32 t + 1 ≤
        v.countP (fun x => decide (x ∈ S)) + i.countP (isQuorumSliceInternal S)) := by
  rw [isQuorumSliceInternal, thresholdCountdown_isNone, isQuorumSliceInternalList_eq,
    List.count_append, count_true_map, count_true_map]

/-- A v-blocking set: a non-zero threshold, and enough validators in `S` and v-blocked
inner sets to leave fewer entries than the threshold. -/
theorem isVBlockingInternal_mk (S : List N) (t : ℕ) (v : List N) (i : List (SCPQuorumSet N)) :
    isVBlockingInternal S (.mk t v i) =
      (decide (t ≠ 0) && decide (max ((1 + v.length + i.length : ℕ) - (t : ℤ)) 1 ≤
        ((v.countP (fun x => decide (x ∈ S)) + i.countP (isVBlockingInternal S) : ℕ) : ℤ))) := by
  rw [isVBlockingInternal, isVBlockingInternalList_eq]
  by_cases ht : t = 0
  · simp [ht]
  · rw [if_neg ht, blockCountdown_eq, List.count_append, count_true_map, count_true_map]
    simp [ht]

/-! ### Monotonicity -/

/-- Hits can only grow with the node set. -/
theorem countP_mem_mono {S T : List N} (hST : S ⊆ T) (v : List N) :
    v.countP (fun x => decide (x ∈ S)) ≤ v.countP (fun x => decide (x ∈ T)) :=
  List.countP_mono_left fun x _ hx => by simpa using hST (by simpa using hx)

/-- **A slice of a smaller node set is a slice of a larger one.** -/
theorem isQuorumSliceInternal_mono {S T : List N} (hST : S ⊆ T) (q : SCPQuorumSet N) :
    isQuorumSliceInternal S q = true → isQuorumSliceInternal T q = true := by
  induction q using SCPQuorumSet.ind with
  | mk t v i ih =>
    rw [isQuorumSliceInternal_mk, isQuorumSliceInternal_mk, decide_eq_true_eq, decide_eq_true_eq]
    have hv := countP_mem_mono hST v
    have hi : i.countP (isQuorumSliceInternal S) ≤ i.countP (isQuorumSliceInternal T) :=
      List.countP_mono_left fun q hq => ih q hq
    omega

/-- **A v-blocking set stays v-blocking when it grows.** -/
theorem isVBlockingInternal_mono {S T : List N} (hST : S ⊆ T) (q : SCPQuorumSet N) :
    isVBlockingInternal S q = true → isVBlockingInternal T q = true := by
  induction q using SCPQuorumSet.ind with
  | mk t v i ih =>
    rw [isVBlockingInternal_mk, isVBlockingInternal_mk]
    simp only [Bool.and_eq_true, decide_eq_true_eq]
    have hv := countP_mem_mono hST v
    have hi : i.countP (isVBlockingInternal S) ≤ i.countP (isVBlockingInternal T) :=
      List.countP_mono_left fun q hq => ih q hq
    intro ⟨ht, hcount⟩
    exact ⟨ht, by omega⟩

/-! ### `isQuorumSetSane` -/

/-- Inserting validators into the known nodes: they go in front, reversed, and a success
means none was known before. -/
theorem insertKnownNodes_eq_ok {st st' : SanityState N} {v : List N}
    (h : insertKnownNodes st v = .ok st') (hnd : st.knownNodes.Nodup) :
    st'.knownNodes = v.reverse ++ st.knownNodes ∧ st'.count = st.count ∧ st'.knownNodes.Nodup := by
  induction v generalizing st with
  | nil =>
    cases h
    exact ⟨rfl, rfl, hnd⟩
  | cons n ns ih =>
    rw [insertKnownNodes] at h
    split_ifs at h with hn
    obtain ⟨hk, hc, hnd'⟩ := ih h (List.nodup_cons.mpr ⟨hn, hnd⟩)
    refine ⟨?_, hc, hnd'⟩
    rw [hk, List.reverse_cons, List.append_assoc, List.singleton_append]

/-- What a successful `checkSanity` run over one set leaves behind: its thresholds are in
range, and its nodes were added to the known nodes (reversed) and to the count. -/
def SanityPost (q : SCPQuorumSet N) (st st' : SanityState N) : Prop :=
  ThresholdsInRange q ∧ st'.knownNodes = (forAllNodes q).reverse ++ st.knownNodes ∧
    st'.count = st.count + (forAllNodes q).length ∧ st'.knownNodes.Nodup

/-- `checkSanityList` threads the state through the sets of a list. -/
theorem checkSanityList_eq_ok {ex : Bool} {d : ℕ} :
    ∀ {l : List (SCPQuorumSet N)} {st st' : SanityState N},
      (∀ q ∈ l, ∀ st st', checkSanity ex d st q = .ok st' → st.knownNodes.Nodup →
        SanityPost q st st') →
      checkSanityList ex d st l = .ok st' → st.knownNodes.Nodup →
      (∀ q ∈ l, ThresholdsInRange q) ∧
        st'.knownNodes = (l.flatMap forAllNodes).reverse ++ st.knownNodes ∧
        st'.count = st.count + (l.flatMap forAllNodes).length ∧ st'.knownNodes.Nodup
  | [], st, st', _, h, hnd => by
    cases h
    exact ⟨by simp, by simp, by simp, hnd⟩
  | q :: qs, st, st', hq, h, hnd => by
    rw [checkSanityList] at h
    obtain ⟨st₁, h₁, h₂⟩ := Except.bind_eq_ok.mp h
    obtain ⟨hth, hk₁, hc₁, hnd₁⟩ := hq q (by simp) st st₁ h₁ hnd
    obtain ⟨hths, hk, hc, hnd'⟩ :=
      checkSanityList_eq_ok (fun c hc => hq c (by simp [hc])) h₂ hnd₁
    refine ⟨?_, ?_, ?_, hnd'⟩
    · intro c hc
      rcases List.mem_cons.mp hc with rfl | hc
      · exact hth
      · exact hths c hc
    · rw [hk, hk₁, List.flatMap_cons, List.reverse_append, List.append_assoc]
    · rw [hc, hc₁, List.flatMap_cons, List.length_append]
      omega

/-- **What `checkSanity` establishes** on a set it accepts. -/
theorem checkSanity_eq_ok {ex : Bool} (q : SCPQuorumSet N) :
    ∀ (d : ℕ) (st st' : SanityState N), checkSanity ex d st q = .ok st' →
      st.knownNodes.Nodup → SanityPost q st st' := by
  induction q using SCPQuorumSet.ind with
  | mk t v i ih =>
    intro d st st' h hnd
    rw [checkSanity] at h
    simp only at h
    -- the four rejections did not fire
    split_ifs at h with hdepth ht htot hextra
    obtain ⟨st₁, h₁, h₂⟩ := Except.bind_eq_ok.mp h
    obtain ⟨hk₁, hc₁, hnd₁⟩ := insertKnownNodes_eq_ok h₁ hnd
    obtain ⟨hths, hk, hc, hnd'⟩ :=
      checkSanityList_eq_ok (fun c hc st st' hcheck hnd => ih c hc _ st st' hcheck hnd) h₂ hnd₁
    refine ⟨?_, ?_, ?_, hnd'⟩
    · exact thresholdsInRange_mk.mpr ⟨by omega, by omega, hths⟩
    · rw [hk, hk₁, forAllNodes_mk, List.reverse_append, List.append_assoc]
    · rw [hc, hc₁, forAllNodes_mk, List.length_append]
      simp only
      omega

/-- **A quorum set that passes `isQuorumSetSane` is sane**, with or without the extra
checks. -/
theorem sane_of_isQuorumSetSane {q : SCPQuorumSet N} {ex : Bool}
    (h : isQuorumSetSane q ex = true) : Sane q := by
  unfold isQuorumSetSane at h
  split at h
  · next u hok =>
    unfold checkQuorumSetSanity at hok
    obtain ⟨st, hst, hcount⟩ := Except.bind_eq_ok.mp hok
    obtain ⟨hth, hk, hc, hnd⟩ := checkSanity_eq_ok q 0 ⟨[], 0⟩ st hst List.nodup_nil
    split_ifs at hcount with hbound
    simp only [List.append_nil] at hk
    rw [hk] at hnd
    exact ⟨hth, List.nodup_reverse.mp hnd, by simp only [Nat.zero_add] at hc; omega⟩
  · cases h


/-! ### Slices and v-blocking sets are dual -/

/-- Every element is counted by `p` or by its negation. -/
theorem countP_not_add_countP {α : Type} (p : α → Bool) (l : List α) :
    l.countP (fun x => !p x) + l.countP p = l.length := by
  induction l with
  | nil => rfl
  | cons x l ih =>
    simp only [List.countP_cons, List.length_cons]
    cases p x <;> simp <;> omega

/-- **Duality.** On a sane quorum set whose nodes all lie in `U`, a node set `S` is
v-blocking exactly when the nodes of `U` outside `S` contain no slice. At each level the
hits of the complement are the entries `S` misses, and `t` hits against
`1 + n - t` is the same cut of `n` entries. -/
theorem isVBlockingInternal_eq_not (U S : List N) (q : SCPQuorumSet N) (hq : Sane q)
    (hU : ∀ n ∈ forAllNodes q, n ∈ U) :
    isVBlockingInternal S q = !isQuorumSliceInternal (U.filter fun n => n ∉ S) q := by
  induction q using SCPQuorumSet.ind with
  | mk t v i ih =>
    -- the validators the complement hits are those `S` misses, since they lie in `U`
    have hv : v.countP (fun x => decide (x ∈ U.filter fun n => n ∉ S)) =
        v.countP (fun x => !decide (x ∈ S)) :=
      List.countP_congr fun x hx => by
        have hxU : x ∈ U := hU x (by rw [forAllNodes_mk]; exact List.mem_append_left _ hx)
        simp [hxU]
    -- the inner sets with a slice in the complement are those `S` does not block
    have hi : i.countP (isQuorumSliceInternal (U.filter fun n => n ∉ S)) =
        i.countP (fun c => !isVBlockingInternal S c) :=
      List.countP_congr fun c hc => by
        rw [ih c hc (hq.inner hc) fun n hn => hU n ((forAllNodes_sublist_of_mem hc).subset hn)]
        simp
    have hvsplit := countP_not_add_countP (fun x => decide (x ∈ S)) v
    have hisplit := countP_not_add_countP (isVBlockingInternal S) i
    have h1 := hq.threshold_pos
    have hle := hq.threshold_le
    rw [isVBlockingInternal_mk, isQuorumSliceInternal_mk, hv, hi, hq.decrementU32_add_one,
      decide_eq_true (show t ≠ 0 by omega), Bool.true_and, ← decide_not]
    exact decide_eq_decide.mpr (by omega)

/-- **Slices and v-blocking sets.** On a quorum set that passes `isQuorumSetSane(q,
false)`, for a universe `U` of nodes that holds every node of `q`, a node set `S` is
v-blocking exactly when the nodes of `U` outside `S` contain no slice; and both scans are
monotone in the node set. -/
theorem vBlocking_slice_duality (q : SCPQuorumSet N) (hq : isQuorumSetSane q false = true)
    (U S : List N) (hU : ∀ n ∈ forAllNodes q, n ∈ U) :
    isVBlocking q S = !isQuorumSlice q (U.filter fun n => n ∉ S) ∧
      ∀ S₁ S₂ : List N, S₁ ⊆ S₂ →
        (isQuorumSlice q S₁ = true → isQuorumSlice q S₂ = true) ∧
          (isVBlocking q S₁ = true → isVBlocking q S₂ = true) :=
  ⟨isVBlockingInternal_eq_not U S q (sane_of_isQuorumSetSane hq) hU, fun _ _ h12 =>
    ⟨isQuorumSliceInternal_mono h12 q, isVBlockingInternal_mono h12 q⟩⟩

/-- A two-of-three set over the universe `[1, 2, 3]`: `[1, 2]` is v-blocking, and
`[3]` holds no slice. -/
theorem vBlocking_slice_duality_twoOfThree :
    isQuorumSetSane (.mk 2 [1, 2, 3] [] : SCPQuorumSet ℕ) false = true ∧
      (∀ n ∈ forAllNodes (.mk 2 [1, 2, 3] [] : SCPQuorumSet ℕ), n ∈ [1, 2, 3]) ∧
      (isVBlocking (.mk 2 [1, 2, 3] [] : SCPQuorumSet ℕ) [1, 2] =
          !isQuorumSlice (.mk 2 [1, 2, 3] []) ([1, 2, 3].filter fun n => n ∉ [1, 2]) ∧
        ∀ S₁ S₂ : List ℕ, S₁ ⊆ S₂ →
          (isQuorumSlice (.mk 2 [1, 2, 3] []) S₁ = true →
              isQuorumSlice (.mk 2 [1, 2, 3] []) S₂ = true) ∧
            (isVBlocking (.mk 2 [1, 2, 3] []) S₁ = true →
              isVBlocking (.mk 2 [1, 2, 3] []) S₂ = true)) :=
  ⟨by decide, by decide, vBlocking_slice_duality _ (by decide) _ _ (by decide)⟩

/-! ### `isQuorum` -/

section Quorum

variable {St : Type}

/-- The filter of `isQuorum`'s loop: `n`'s latest statement names a quorum set with a
slice in the candidates `P`. -/
def quorumKeep (map : AList (fun _ : N => St)) (qfun : St → Option (SCPQuorumSet N))
    (P : List N) (n : N) : Bool :=
  match map.lookup n with
  | some st =>
    match qfun st with
    | some q => isQuorumSlice q P
    | none => false
  | none => false

theorem quorumKeep_eq_true {map : AList (fun _ : N => St)} {qfun : St → Option (SCPQuorumSet N)}
    {P : List N} {n : N} :
    quorumKeep map qfun P n = true ↔
      ∃ st q, map.lookup n = some st ∧ qfun st = some q ∧ isQuorumSlice q P = true := by
  unfold quorumKeep
  split
  · next st hst =>
    split
    · next q hq => simp [hst, hq]
    · next hq => simp [hst, hq]
  · next hst => simp [hst]

/-- The filter keeps more nodes when there are more candidates. -/
theorem quorumKeep_mono {map : AList (fun _ : N => St)} {qfun : St → Option (SCPQuorumSet N)}
    {P P' : List N} {n : N} (hP : P ⊆ P') :
    quorumKeep map qfun P n = true → quorumKeep map qfun P' n = true := by
  rw [quorumKeep_eq_true, quorumKeep_eq_true]
  rintro ⟨st, q, hst, hq, hslice⟩
  exact ⟨st, q, hst, hq, isQuorumSliceInternal_mono hP q hslice⟩

/-- `isQuorum`'s loop is the shrinking iteration of its filter. -/
theorem quorumFixpoint_eq_iterate (map : AList (fun _ : N => St))
    (qfun : St → Option (SCPQuorumSet N)) :
    ∀ (fuel : ℕ) (l : List N), quorumFixpoint map qfun fuel l = Shrink.iterate (quorumKeep map qfun) fuel l
  | 0, _ => rfl
  | fuel + 1, l => by
    rw [quorumFixpoint, Shrink.iterate_succ, quorumFixpoint_eq_iterate map qfun fuel]
    rfl

/-- **`isQuorum` computes the greatest fixpoint.** Its `do ... while` loop has stopped
within one round per filtered node and one more (more rounds change nothing), and it
answers whether some set `Q` of filtered nodes contains a slice of `qSet` and, for each
of its members, a slice of the quorum set its statement names. -/
theorem isQuorum_greatest_fixpoint (qSet : SCPQuorumSet N) (map : AList (fun _ : N => St))
    (qfun : St → Option (SCPQuorumSet N)) (filter : St → Bool) :
    (∀ fuel, (filteredNodes map filter).length < fuel →
      quorumFixpoint map qfun fuel (filteredNodes map filter) =
        quorumFixpoint map qfun ((filteredNodes map filter).length + 1) (filteredNodes map filter)) ∧
    (isQuorum qSet map qfun filter = true ↔
      ∃ Q : List N, Q ⊆ filteredNodes map filter ∧ isQuorumSlice qSet Q = true ∧
        ∀ n ∈ Q, ∃ st q, map.lookup n = some st ∧ qfun st = some q ∧ isQuorumSlice q Q = true) := by
  set pNodes := filteredNodes map filter
  refine ⟨fun fuel hfuel => ?_, ?_⟩
  · rw [quorumFixpoint_eq_iterate, quorumFixpoint_eq_iterate]
    exact Shrink.iterate_fuel _ _ _ (Nat.lt_succ_self _) hfuel
  · show isQuorumSlice qSet (quorumFixpoint map qfun (pNodes.length + 1) pNodes) = true ↔ _
    rw [quorumFixpoint_eq_iterate]
    constructor
    · -- the loop's result is such a set
      intro hslice
      refine ⟨_, (Shrink.iterate_sublist _ pNodes).subset, hslice, fun n hn => ?_⟩
      exact quorumKeep_eq_true.mp (Shrink.iterate_stable _ pNodes (Nat.lt_succ_self _) n hn)
    · -- every such set survives the loop, and its slice is one of the result's
      rintro ⟨Q, hQ, hslice, hmem⟩
      have hkeep : ∀ n ∈ Q, quorumKeep map qfun Q n = true := fun n hn =>
        quorumKeep_eq_true.mpr (hmem n hn)
      have hmono : ∀ {l l' : List N} {x : N}, l ⊆ l' →
          quorumKeep map qfun l x = true → quorumKeep map qfun l' x = true :=
        fun h => quorumKeep_mono h
      have hsub := @Shrink.subset_iterate _ (quorumKeep map qfun) hmono Q hkeep
        (pNodes.length + 1) pNodes hQ
      exact isQuorumSliceInternal_mono hsub qSet hslice

end Quorum

end Scans

end LocalNode
end Scp
end HcnetCore
