import HcnetCore.Scp.QuorumSlice
import HcnetCore.Systems.Compare

/-!
# The canonical form of a quorum set

`normalizeQSet(q, nullptr)` simplifies `q` (`normalizeQSetSimplify`) and then sorts it
(`normalizeQuorumSetReorder`); `LocalNode` hashes the result. This module shows that the
result is a canonical form of `q` that keeps its meaning.

* `lawsAt_qSetCompareInt` — `qSetCompareInt` orders quorum sets linearly: it compares
  validators, then inner sets, then the threshold (`qSetCompareInt_eq`), so `Cmp` passes
  the laws of the order of nodes and of numbers up the tree. Sorting by it therefore has
  one answer for all orders of a list (`Cmp.sortBy_eq_of_perm`).
* `Counts` — both threshold scans only count hits. Sorting permutes what they count
  (`Counts.reorder`). The simplification replaces a singleton inner set `{t: 1, v: [x]}`
  by the validator `x` and a wrapper `{t: 1, inner: [q]}` by `q`, and both count alike
  (`Counts.simplify`).
* `Simplified` — the shape the simplification leaves. Sorting keeps it, and on it the
  simplification does nothing, so normalising twice is normalising once.
* `PermEquiv` — two sets that differ only in the order of their validators and inner
  sets, at any depth. They normalise to the same set.
-/

namespace HcnetCore
namespace Scp
namespace LocalNode

variable {N : Type} [LinearOrder N]

/-! ### `qSetCompareInt` is a linear order -/

theorem intLexicographicalCompare_eq_lex {α : Type} (comp : α → α → ℤ) :
    ∀ l m : List α, intLexicographicalCompare comp l m = Cmp.lex comp l m
  | _ :: _, _ :: _ => by
    rw [intLexicographicalCompare, Cmp.lex_cons_cons, intLexicographicalCompare_eq_lex comp]
    rfl
  | [], _ :: _ => rfl
  | _ :: _, [] => rfl
  | [], [] => rfl

theorem qSetCompareIntList_eq_lex :
    ∀ l m : List (SCPQuorumSet N), qSetCompareIntList l m = Cmp.lex qSetCompareInt l m
  | _ :: _, _ :: _ => by
    rw [qSetCompareIntList, Cmp.lex_cons_cons, qSetCompareIntList_eq_lex]
    rfl
  | [], _ :: _ => rfl
  | _ :: _, [] => rfl
  | [], [] => rfl

section NodeOrder

variable {M : Type} [LinearOrder M] {a b : M}

theorem nodeIDCompareInt_lt_zero : nodeIDCompareInt a b < 0 ↔ a < b := by
  unfold nodeIDCompareInt
  split_ifs with h₁ h₂ <;> simp [h₁]

theorem nodeIDCompareInt_nonpos : nodeIDCompareInt a b ≤ 0 ↔ a ≤ b := by
  unfold nodeIDCompareInt
  split_ifs with h₁ h₂
  · simp [h₁.le]
  · simp [not_le.mpr h₂]
  · simp [not_lt.mp h₂]

theorem lawsAt_nodeIDCompareInt (a : M) : Cmp.LawsAt nodeIDCompareInt a where
  swap b := by
    rcases lt_trichotomy a b with h | rfl | h
    · simp [nodeIDCompareInt, h, not_lt_of_gt h]
    · simp [nodeIDCompareInt]
    · simp [nodeIDCompareInt, h, not_lt_of_gt h]
  eq_of_eq_zero {b} h := by
    unfold nodeIDCompareInt at h
    split_ifs at h with h₁ h₂
    · omega
    · exact le_antisymm (not_lt.mp h₂) (not_lt.mp h₁)
  lt_of_lt_of_le hab hbc := by
    rw [nodeIDCompareInt_lt_zero] at hab ⊢
    exact lt_of_lt_of_le hab (nodeIDCompareInt_nonpos.mp hbc)

end NodeOrder

/-- What `qSetCompareInt` compares, in its order: validators, inner sets, threshold. -/
def compareKey : SCPQuorumSet N → List N × List (SCPQuorumSet N) × ℕ
  | .mk t v i => (v, i, t)

omit [LinearOrder N] in
theorem compareKey_injective {q q' : SCPQuorumSet N} (h : compareKey q = compareKey q') :
    q = q' := by
  obtain ⟨t, v, i⟩ := q
  obtain ⟨t', v', i'⟩ := q'
  simp only [compareKey, Prod.mk.injEq] at h
  rw [h.1, h.2.1, h.2.2]

/-- `qSetCompareInt` is the comparison of the keys, component by component. -/
theorem qSetCompareInt_eq (q q' : SCPQuorumSet N) :
    qSetCompareInt q q' =
      Cmp.prod (Cmp.lex nodeIDCompareInt) (Cmp.prod (Cmp.lex qSetCompareInt) nodeIDCompareInt)
        (compareKey q) (compareKey q') := by
  obtain ⟨t, v, i⟩ := q
  obtain ⟨t', v', i'⟩ := q'
  -- the threshold comparison of the source is `nodeIDCompareInt` on numbers
  have ht : (if t < t' then -1 else if t = t' then 0 else 1 : ℤ) = nodeIDCompareInt t t' := by
    unfold nodeIDCompareInt
    split_ifs <;> omega
  rw [qSetCompareInt, intLexicographicalCompare_eq_lex, qSetCompareIntList_eq_lex, ht]
  rfl

/-- **`qSetCompareInt` is a linear order on quorum sets.** -/
theorem lawsAt_qSetCompareInt (q : SCPQuorumSet N) : Cmp.LawsAt qSetCompareInt q := by
  induction q using SCPQuorumSet.ind with
  | mk t v i ih =>
    -- the laws at the key: nodes and numbers are ordered, and the inner sets by induction
    have hkey : Cmp.LawsAt
        (Cmp.prod (Cmp.lex nodeIDCompareInt) (Cmp.prod (Cmp.lex qSetCompareInt) nodeIDCompareInt))
        (compareKey (.mk t v i)) :=
      Cmp.lawsAt_prod (Cmp.lawsAt_lex fun x _ => lawsAt_nodeIDCompareInt x)
        (Cmp.lawsAt_prod (Cmp.lawsAt_lex ih) (lawsAt_nodeIDCompareInt t))
    have hcmp : qSetCompareInt = fun q q' : SCPQuorumSet N =>
        Cmp.prod (Cmp.lex nodeIDCompareInt) (Cmp.prod (Cmp.lex qSetCompareInt) nodeIDCompareInt)
          (compareKey q) (compareKey q') :=
      funext₂ qSetCompareInt_eq
    rw [hcmp]
    exact hkey.comap fun _ h => compareKey_injective h

/-! ### Reordering -/

theorem stdSort_eq_sortBy {α : Type} {lt : α → α → Bool} {cmp : α → α → ℤ}
    (h : ∀ a b, lt a b = decide (cmp a b < 0)) (l : List α) : stdSort lt l = Cmp.sortBy cmp l := by
  obtain rfl : lt = fun a b => decide (cmp a b < 0) := funext₂ h
  rfl

theorem normalizeQuorumSetReorderList_eq :
    ∀ l : List (SCPQuorumSet N), normalizeQuorumSetReorderList l = l.map normalizeQuorumSetReorder
  | [] => rfl
  | q :: qs => by rw [normalizeQuorumSetReorderList, normalizeQuorumSetReorderList_eq qs, List.map_cons]

/-- Reordering sorts the validators and the reordered inner sets. -/
theorem normalizeQuorumSetReorder_mk (t : ℕ) (v : List N) (i : List (SCPQuorumSet N)) :
    normalizeQuorumSetReorder (.mk t v i) =
      .mk t (Cmp.sortBy nodeIDCompareInt v)
        (Cmp.sortBy qSetCompareInt (i.map normalizeQuorumSetReorder)) := by
  have hv : ∀ a b : N, decide (a < b) = decide (nodeIDCompareInt a b < 0) := fun a b =>
    decide_eq_decide.mpr nodeIDCompareInt_lt_zero.symm
  rw [normalizeQuorumSetReorder, normalizeQuorumSetReorderList_eq, stdSort_eq_sortBy hv,
    stdSort_eq_sortBy fun _ _ => rfl]

omit [LinearOrder N] in
theorem isSingletonQSet_eq_some {q : SCPQuorumSet N} {x : N} :
    isSingletonQSet q = some x ↔ q = .mk 1 [x] [] := by
  unfold isSingletonQSet
  split
  · simp
  · next q hne =>
    simp only [reduceCtorEq, false_iff]
    exact fun h => hne x h

/-- Reordering keeps a set a singleton, and a non-singleton not one. -/
theorem isSingletonQSet_reorder (q : SCPQuorumSet N) :
    isSingletonQSet (normalizeQuorumSetReorder q) = isSingletonQSet q := by
  obtain ⟨t, v, i⟩ := q
  rw [normalizeQuorumSetReorder_mk]
  have hv := Cmp.perm_sortBy nodeIDCompareInt v
  have hi := Cmp.perm_sortBy qSetCompareInt (i.map normalizeQuorumSetReorder)
  cases hs : isSingletonQSet (.mk t v i) with
  | some x =>
    obtain ⟨rfl, rfl, rfl⟩ : t = 1 ∧ v = [x] ∧ i = [] := by simpa using isSingletonQSet_eq_some.mp hs
    rfl
  | none =>
    cases ht : isSingletonQSet (SCPQuorumSet.mk t (Cmp.sortBy nodeIDCompareInt v)
        (Cmp.sortBy qSetCompareInt (i.map normalizeQuorumSetReorder))) with
    | none => rfl
    | some x =>
      obtain ⟨rfl, hsv, hsi⟩ := by simpa using isSingletonQSet_eq_some.mp ht
      rw [hsv, List.singleton_perm] at hv
      rw [hsi, List.nil_perm, List.map_eq_nil_iff] at hi
      rw [← hv, hi] at hs
      simp [isSingletonQSet] at hs

/-! ### Simplification -/

/-- The validators that `normalizeQSetSimplify` keeps. -/
def keptValidators (idToRemove : Option N) (v : List N) : List N :=
  match idToRemove with
  | some id => v.filter fun n => decide (n ≠ id)
  | none => v

theorem normalizeInnerSets_eq (idToRemove : Option N) :
    ∀ l : List (SCPQuorumSet N), normalizeInnerSets idToRemove l =
      ((l.map (normalizeQSetSimplify idToRemove)).filterMap isSingletonQSet,
        (l.map (normalizeQSetSimplify idToRemove)).filter fun q => (isSingletonQSet q).isNone)
  | [] => rfl
  | q :: qs => by
    rw [normalizeInnerSets, normalizeInnerSets_eq idToRemove qs]
    cases h : isSingletonQSet (normalizeQSetSimplify idToRemove q) <;> simp [h]

/-- `normalizeQSetSimplify` on one set: the threshold `T` lowered by the number of removed
validators, the kept validators followed by the merged singletons `V`, the other inner sets
`I`, and a set `{t: 1, v: [], inner: [q]}` unwrapped to `q`. -/
theorem normalizeQSetSimplify_mk_cases {idToRemove : Option N} {t T : ℕ} {v V : List N}
    {i I : List (SCPQuorumSet N)}
    (hT : (t + 2 ^ 32 - (v.length - (keptValidators idToRemove v).length)) % 2 ^ 32 = T)
    (hV : keptValidators idToRemove v ++ (normalizeInnerSets idToRemove i).1 = V)
    (hI : (normalizeInnerSets idToRemove i).2 = I) :
    (T = 1 ∧ V = [] ∧ ∃ q, I = [q] ∧ normalizeQSetSimplify idToRemove (.mk t v i) = q) ∨
      (¬(T = 1 ∧ V = [] ∧ I.length = 1) ∧
        normalizeQSetSimplify idToRemove (.mk t v i) = .mk T V I) := by
  subst hT hV hI
  rw [normalizeQSetSimplify.eq_def]
  dsimp only
  split
  · next q hT hV hI => exact .inl ⟨hT, hV, q, hI, rfl⟩
  · next hne =>
    refine .inr ⟨?_, rfl⟩
    rintro ⟨hT, hV, hI⟩
    obtain ⟨q, hq⟩ := List.length_eq_one_iff.mp hI
    exact hne q hT hV hq

/-! ### The scans only count -/

section Counting

variable (S : List N) (F : ℕ → ℕ → ℕ → Bool) (sem : SCPQuorumSet N → Bool)

/-- A verdict on quorum sets that only counts: on `{t, v, i}` it is `F` of the threshold,
the number of entries and the number of hits, a hit being a validator in `S` or an inner
set with a positive verdict. -/
structure Counts : Prop where
  mk_eq : ∀ t v i, sem (.mk t v i) =
    F t (v.length + i.length) (v.countP (fun x => decide (x ∈ S)) + i.countP sem)

theorem counts_isQuorumSliceInternal :
    Counts S (fun t _ c => decide (decrementU32 t + 1 ≤ c)) (isQuorumSliceInternal S) :=
  ⟨fun t v i => isQuorumSliceInternal_mk S t v i⟩

theorem counts_isVBlockingInternal :
    Counts S (fun t n c => decide (t ≠ 0) && decide (max ((1 + n : ℕ) - (t : ℤ)) 1 ≤ (c : ℤ)))
      (isVBlockingInternal S) := ⟨fun t v i => by
  rw [isVBlockingInternal_mk, Nat.add_assoc]⟩

variable {S F sem}

/-- **Reordering keeps a counting verdict.** -/
theorem Counts.reorder (h : Counts S F sem) (q : SCPQuorumSet N) :
    sem (normalizeQuorumSetReorder q) = sem q := by
  induction q using SCPQuorumSet.ind with
  | mk t v i ih =>
    have hv := Cmp.perm_sortBy nodeIDCompareInt v
    have hi := Cmp.perm_sortBy qSetCompareInt (i.map normalizeQuorumSetReorder)
    -- the reordered inner sets have the verdicts of the inner sets
    have hcount : (i.map normalizeQuorumSetReorder).countP sem = i.countP sem := by
      rw [List.countP_map]
      exact List.countP_congr fun q hq => by simp [ih q hq]
    rw [normalizeQuorumSetReorder_mk, h.mk_eq, h.mk_eq, hv.length_eq, hi.length_eq, List.length_map,
      hv.countP_eq, hi.countP_eq, hcount]

/-- Merging the singleton inner sets into the validators keeps the number of hits. -/
theorem countP_merge (hsing : ∀ x, sem (.mk 1 [x] []) = decide (x ∈ S)) :
    ∀ L : List (SCPQuorumSet N),
      (L.filterMap isSingletonQSet).countP (fun x => decide (x ∈ S)) +
        (L.filter fun q => (isSingletonQSet q).isNone).countP sem = L.countP sem
  | [] => rfl
  | q :: L => by
    have ih := countP_merge hsing L
    cases hq : isSingletonQSet q with
    | none =>
      simp only [List.filterMap_cons, hq, List.filter_cons, Option.isNone_none, if_true,
        List.countP_cons]
      omega
    | some x =>
      obtain rfl := isSingletonQSet_eq_some.mp hq
      simp only [List.filterMap_cons, hq, List.filter_cons, Option.isNone_some, List.countP_cons,
        hsing]
      simp only [Bool.false_eq_true, if_false]
      omega

omit [LinearOrder N] in
/-- Merging the singleton inner sets keeps the number of entries. -/
theorem length_merge : ∀ L : List (SCPQuorumSet N),
    (L.filterMap isSingletonQSet).length + (L.filter fun q => (isSingletonQSet q).isNone).length =
      L.length
  | [] => rfl
  | q :: L => by
    have ih := length_merge L
    cases hq : isSingletonQSet q with
    | none =>
      simp only [List.filterMap_cons, hq, List.filter_cons, Option.isNone_none, if_true,
        List.length_cons]
      omega
    | some x =>
      simp only [List.filterMap_cons, hq, List.filter_cons, Option.isNone_some, List.length_cons]
      simp only [Bool.false_eq_true, if_false]
      omega

/-- **Simplifying a sane set keeps a counting verdict** that takes a set of threshold `1`
with one entry for that entry. -/
theorem Counts.simplify (h : Counts S F sem) (hF : ∀ c, F 1 1 c = decide (1 ≤ c))
    (q : SCPQuorumSet N) (hq : Sane q) : sem (normalizeQSetSimplify none q) = sem q := by
  induction q using SCPQuorumSet.ind with
  | mk t v i ih =>
    have hsing : ∀ x, sem (.mk 1 [x] []) = decide (x ∈ S) := fun x => by
      rw [h.mk_eq, List.length_singleton, List.length_nil, hF]
      by_cases hx : x ∈ S <;> simp [hx]
    -- with nothing removed the threshold stays: it fits in a `uint32`
    have ht : (t + 2 ^ 32 - (v.length - (keptValidators none v).length)) % 2 ^ 32 = t := by
      simp only [keptValidators, Nat.sub_self, Nat.sub_zero, Nat.add_mod_right]
      exact Nat.mod_eq_of_lt hq.threshold_lt
    set L := i.map (normalizeQSetSimplify none) with hLdef
    have hL : L.countP sem = i.countP sem := by
      rw [hLdef, List.countP_map]
      exact List.countP_congr fun q hq' => by simp [ih q hq' (hq.inner hq')]
    have hLlen : L.length = i.length := List.length_map _
    have hcount := countP_merge hsing L
    have hlen := length_merge L
    have hV : keptValidators none v ++ (normalizeInnerSets none i).1 =
        v ++ L.filterMap isSingletonQSet := by rw [normalizeInnerSets_eq]; rfl
    have hI : (normalizeInnerSets none i).2 = L.filter fun q => (isSingletonQSet q).isNone := by
      rw [normalizeInnerSets_eq]
    rcases normalizeQSetSimplify_mk_cases ht hV hI with ⟨rfl, hV', q', hI', hres⟩ | ⟨-, hres⟩
    · -- a wrapper `{t: 1, inner: [q']}`: one entry, a hit exactly when `q'` is one
      obtain ⟨rfl, hM⟩ := List.append_eq_nil_iff.mp hV'
      rw [hI', hM, List.length_nil, List.length_singleton] at hlen
      rw [hI', hM, List.countP_nil, List.countP_singleton] at hcount
      rw [hres, h.mk_eq, List.length_nil, List.countP_nil, ← hLlen, ← hlen, ← hL, ← hcount, hF]
      cases sem q' <;> rfl
    · -- the merged validators are hits exactly when their singleton sets were
      rw [hres, h.mk_eq, h.mk_eq]
      simp only [List.length_append, List.countP_append]
      congr 1 <;> omega

end Counting

/-! ### Idempotence -/

mutual
/-- The shape `normalizeQSetSimplify` leaves: thresholds that fit in a `uint32`, no
wrapper `{t: 1, v: [], inner: [q]}`, and no singleton inner set, at any depth. -/
def Simplified : SCPQuorumSet N → Prop
  | .mk t v i => t < 2 ^ 32 ∧ ¬(t = 1 ∧ v = [] ∧ i.length = 1) ∧ SimplifiedInner i

/-- `Simplified` inner sets that are not singletons. -/
def SimplifiedInner : List (SCPQuorumSet N) → Prop
  | [] => True
  | q :: qs => Simplified q ∧ isSingletonQSet q = none ∧ SimplifiedInner qs
end

omit [LinearOrder N] in
theorem simplifiedInner_iff : ∀ l : List (SCPQuorumSet N),
    SimplifiedInner l ↔ ∀ q ∈ l, Simplified q ∧ isSingletonQSet q = none
  | [] => by simp [SimplifiedInner]
  | q :: qs => by simp [SimplifiedInner, simplifiedInner_iff qs, and_assoc]

omit [LinearOrder N] in
theorem simplified_mk {t : ℕ} {v : List N} {i : List (SCPQuorumSet N)} :
    Simplified (.mk t v i) ↔ t < 2 ^ 32 ∧ ¬(t = 1 ∧ v = [] ∧ i.length = 1) ∧
      ∀ q ∈ i, Simplified q ∧ isSingletonQSet q = none := by
  rw [Simplified, simplifiedInner_iff]

/-- **The simplification leaves a `Simplified` set**, whatever node it removes. -/
theorem simplified_normalizeQSetSimplify (idToRemove : Option N) (q : SCPQuorumSet N) :
    Simplified (normalizeQSetSimplify idToRemove q) := by
  induction q using SCPQuorumSet.ind with
  | mk t v i ih =>
    have hinner : (normalizeInnerSets idToRemove i).2 =
        (i.map (normalizeQSetSimplify idToRemove)).filter fun q => (isSingletonQSet q).isNone := by
      rw [normalizeInnerSets_eq]
    rcases normalizeQSetSimplify_mk_cases rfl rfl hinner with ⟨-, -, q', hI, hres⟩ | ⟨hne, hres⟩
    · -- the unwrapped set is a simplified inner set
      have hq' : q' ∈ (i.map (normalizeQSetSimplify idToRemove)).filter
          fun q => (isSingletonQSet q).isNone := by simp [hI]
      obtain ⟨p, hp, rfl⟩ := List.mem_map.mp (List.mem_filter.mp hq').1
      rw [hres]
      exact ih p hp
    · rw [hres, simplified_mk]
      refine ⟨Nat.mod_lt _ (Nat.two_pow_pos 32), hne, fun q hq => ?_⟩
      obtain ⟨hmem, hsing⟩ := List.mem_filter.mp hq
      obtain ⟨p, hp, rfl⟩ := List.mem_map.mp hmem
      exact ⟨ih p hp, Option.isNone_iff_eq_none.mp hsing⟩

/-- On a `Simplified` set the simplification with nothing to remove does nothing. -/
theorem normalizeQSetSimplify_of_simplified (q : SCPQuorumSet N) (hq : Simplified q) :
    normalizeQSetSimplify none q = q := by
  induction q using SCPQuorumSet.ind with
  | mk t v i ih =>
    obtain ⟨ht, hne, hi⟩ := simplified_mk.mp hq
    -- every inner set is left as it is, and none is a singleton
    have hmap : i.map (normalizeQSetSimplify none) = i :=
      calc i.map (normalizeQSetSimplify none)
          = i.map id := List.map_congr_left fun q hq' => ih q hq' (hi q hq').1
        _ = i := List.map_id i
    have hmerged : i.filterMap isSingletonQSet = [] :=
      List.filterMap_eq_nil_iff.mpr fun q hq' => (hi q hq').2
    have hinner : (i.filter fun q => (isSingletonQSet q).isNone) = i :=
      List.filter_eq_self.mpr fun q hq' => by simp [(hi q hq').2]
    have ht' : (t + 2 ^ 32 - (v.length - (keptValidators none v).length)) % 2 ^ 32 = t := by
      simp only [keptValidators, Nat.sub_self, Nat.sub_zero, Nat.add_mod_right]
      exact Nat.mod_eq_of_lt ht
    have hV : keptValidators none v ++ (normalizeInnerSets none i).1 = v := by
      rw [normalizeInnerSets_eq, hmap, hmerged, List.append_nil]
      rfl
    have hI : (normalizeInnerSets none i).2 = i := by rw [normalizeInnerSets_eq, hmap, hinner]
    rcases normalizeQSetSimplify_mk_cases ht' hV hI with ⟨h1, hv, q', hi', -⟩ | ⟨-, hres⟩
    · exact absurd ⟨h1, hv, by simp [hi']⟩ hne
    · exact hres

/-- Reordering keeps a set `Simplified`: it keeps thresholds and the number of entries. -/
theorem simplified_reorder (q : SCPQuorumSet N) (hq : Simplified q) :
    Simplified (normalizeQuorumSetReorder q) := by
  induction q using SCPQuorumSet.ind with
  | mk t v i ih =>
    obtain ⟨ht, hne, hi⟩ := simplified_mk.mp hq
    have hv := Cmp.perm_sortBy nodeIDCompareInt v
    have hI := Cmp.perm_sortBy qSetCompareInt (i.map normalizeQuorumSetReorder)
    rw [normalizeQuorumSetReorder_mk, simplified_mk]
    refine ⟨ht, ?_, fun q hq' => ?_⟩
    · rw [hI.length_eq, List.length_map, ← List.length_eq_zero_iff, hv.length_eq,
        List.length_eq_zero_iff]
      exact hne
    · obtain ⟨p, hp, rfl⟩ := List.mem_map.mp (hI.subset hq')
      exact ⟨ih p hp (hi p hp).1, (isSingletonQSet_reorder p).trans (hi p hp).2⟩

/-- **Reordering twice is reordering once.** -/
theorem normalizeQuorumSetReorder_idem (q : SCPQuorumSet N) :
    normalizeQuorumSetReorder (normalizeQuorumSetReorder q) = normalizeQuorumSetReorder q := by
  induction q using SCPQuorumSet.ind with
  | mk t v i ih =>
    -- the inner sets are already reordered, so only the two sorts are repeated
    have hinner : (Cmp.sortBy qSetCompareInt (i.map normalizeQuorumSetReorder)).map
        normalizeQuorumSetReorder = Cmp.sortBy qSetCompareInt (i.map normalizeQuorumSetReorder) :=
      calc _ = (Cmp.sortBy qSetCompareInt (i.map normalizeQuorumSetReorder)).map id :=
            List.map_congr_left fun q hq => by
              obtain ⟨p, hp, rfl⟩ := List.mem_map.mp ((Cmp.perm_sortBy _ _).subset hq)
              exact ih p hp
        _ = _ := List.map_id _
    rw [normalizeQuorumSetReorder_mk, normalizeQuorumSetReorder_mk, hinner,
      Cmp.sortBy_sortBy lawsAt_nodeIDCompareInt, Cmp.sortBy_sortBy lawsAt_qSetCompareInt]

/-- **Normalising twice is normalising once.** -/
theorem normalizeQSet_normalizeQSet (q : SCPQuorumSet N) :
    normalizeQSet (normalizeQSet q none) none = normalizeQSet q none := by
  have hs := simplified_reorder _ (simplified_normalizeQSetSimplify none q)
  rw [normalizeQSet, normalizeQSet, normalizeQSetSimplify_of_simplified _ hs,
    normalizeQuorumSetReorder_idem]

/-! ### Permutations -/

mutual
/-- Two quorum sets that differ only in the order of their validators and of their inner
sets, at any depth: the same threshold, permuted validators, and inner sets that are,
after a permutation, pairwise `PermEquiv`. -/
def PermEquiv : SCPQuorumSet N → SCPQuorumSet N → Prop
  | .mk t v i, .mk t' v' i' => t = t' ∧ v.Perm v' ∧ ∃ j, PermEquivList i j ∧ j.Perm i'

/-- `PermEquiv` position by position. -/
def PermEquivList : List (SCPQuorumSet N) → List (SCPQuorumSet N) → Prop
  | [], [] => True
  | q :: qs, q' :: qs' => PermEquiv q q' ∧ PermEquivList qs qs'
  | _, _ => False
end

omit [LinearOrder N] in
theorem permEquivList_iff : ∀ {l l' : List (SCPQuorumSet N)},
    PermEquivList l l' ↔ List.Forall₂ PermEquiv l l'
  | [], [] => by simp [PermEquivList]
  | [], _ :: _ => by simp [PermEquivList]
  | _ :: _, [] => by simp [PermEquivList]
  | _ :: _, _ :: _ => by rw [PermEquivList, permEquivList_iff, List.forall₂_cons]

omit [LinearOrder N] in
theorem permEquiv_mk {t t' : ℕ} {v v' : List N} {i i' : List (SCPQuorumSet N)} :
    PermEquiv (.mk t v i) (.mk t' v' i') ↔
      t = t' ∧ v.Perm v' ∧ ∃ j, List.Forall₂ PermEquiv i j ∧ j.Perm i' := by
  simp only [PermEquiv, permEquivList_iff]

omit [LinearOrder N] in
/-- A function that agrees on related elements maps related lists alike. -/
theorem map_eq_of_forall₂ {α β : Type} {R : α → α → Prop} {f : α → β} :
    ∀ {l₁ l₂ : List α}, List.Forall₂ R l₁ l₂ → (∀ x ∈ l₁, ∀ y, R x y → f x = f y) →
      l₁.map f = l₂.map f
  | [], [], .nil, _ => rfl
  | x :: _, y :: _, .cons hxy hrest, h => by
    rw [List.map_cons, List.map_cons, h x (by simp) y hxy,
      map_eq_of_forall₂ hrest fun z hz => h z (by simp [hz])]

/-- The singletons merged by the simplification are those of the normal forms. -/
theorem filterMap_simplify_eq (idToRemove : Option N) (l : List (SCPQuorumSet N)) :
    (l.map (normalizeQSetSimplify idToRemove)).filterMap isSingletonQSet =
      (l.map fun q => normalizeQuorumSetReorder (normalizeQSetSimplify idToRemove q)).filterMap
        isSingletonQSet := by
  simp only [List.filterMap_map, Function.comp_def, isSingletonQSet_reorder]

/-- The inner sets kept by the simplification, reordered, are the non-singleton normal
forms. -/
theorem map_reorder_filter_simplify (idToRemove : Option N) (l : List (SCPQuorumSet N)) :
    ((l.map (normalizeQSetSimplify idToRemove)).filter fun q => (isSingletonQSet q).isNone).map
        normalizeQuorumSetReorder =
      (l.map fun q => normalizeQuorumSetReorder (normalizeQSetSimplify idToRemove q)).filter
        fun q => (isSingletonQSet q).isNone := by
  simp only [List.filter_map, List.map_map, Function.comp_def, isSingletonQSet_reorder]

/-- The normal form of one set depends on its threshold, on its validators up to order and
on its reordered inner sets up to order. -/
theorem reorder_simplify_congr {idToRemove : Option N} {t t' : ℕ} {v v' : List N}
    {i i' : List (SCPQuorumSet N)}
    (hT : (t + 2 ^ 32 - (v.length - (keptValidators idToRemove v).length)) % 2 ^ 32 =
      (t' + 2 ^ 32 - (v'.length - (keptValidators idToRemove v').length)) % 2 ^ 32)
    (hV : (keptValidators idToRemove v ++ (normalizeInnerSets idToRemove i).1).Perm
      (keptValidators idToRemove v' ++ (normalizeInnerSets idToRemove i').1))
    (hI : ((normalizeInnerSets idToRemove i).2.map normalizeQuorumSetReorder).Perm
      ((normalizeInnerSets idToRemove i').2.map normalizeQuorumSetReorder)) :
    normalizeQuorumSetReorder (normalizeQSetSimplify idToRemove (.mk t v i)) =
      normalizeQuorumSetReorder (normalizeQSetSimplify idToRemove (.mk t' v' i')) := by
  have hlen := hI.length_eq
  rw [List.length_map, List.length_map] at hlen
  rcases @normalizeQSetSimplify_mk_cases N _ idToRemove t _ v _ i _ rfl rfl rfl
      with ⟨h1, hV₀, q, hq, hres⟩ | ⟨hne, hres⟩ <;>
    rcases @normalizeQSetSimplify_mk_cases N _ idToRemove t' _ v' _ i' _ rfl rfl rfl
      with ⟨h1', hV₀', q', hq', hres'⟩ | ⟨hne', hres'⟩
  · -- both sides unwrap their one inner set
    rw [hq, hq', List.map_singleton, List.map_singleton, List.singleton_perm_singleton] at hI
    rw [hres, hres', hI]
  · rw [hV₀, List.nil_perm] at hV
    exact absurd ⟨hT ▸ h1, hV, by rw [← hlen, hq, List.length_singleton]⟩ hne'
  · rw [hV₀', List.perm_nil] at hV
    exact absurd ⟨hT ▸ h1', hV, by rw [hlen, hq', List.length_singleton]⟩ hne
  · -- both sides sort the same validators and the same reordered inner sets
    rw [hres, hres', normalizeQuorumSetReorder_mk, normalizeQuorumSetReorder_mk, hT,
      Cmp.sortBy_eq_of_perm lawsAt_nodeIDCompareInt hV,
      Cmp.sortBy_eq_of_perm lawsAt_qSetCompareInt hI]

/-- **Sets that differ only in order have the same normal form**, whatever node is
removed. -/
theorem normalize_eq_of_permEquiv (idToRemove : Option N) (q : SCPQuorumSet N) :
    ∀ q', PermEquiv q q' →
      normalizeQuorumSetReorder (normalizeQSetSimplify idToRemove q) =
        normalizeQuorumSetReorder (normalizeQSetSimplify idToRemove q') := by
  induction q using SCPQuorumSet.ind with
  | mk t v i ih =>
    rintro ⟨t', v', i'⟩ hq
    obtain ⟨rfl, hv, j, hij, hj⟩ := permEquiv_mk.mp hq
    -- the normal forms of the inner sets: equal along `i ≈ j`, permuted from `j` to `i'`
    have hk : (i.map fun q => normalizeQuorumSetReorder (normalizeQSetSimplify idToRemove q)).Perm
        (i'.map fun q => normalizeQuorumSetReorder (normalizeQSetSimplify idToRemove q)) := by
      rw [map_eq_of_forall₂ hij fun x hx y hxy => ih x hx y hxy]
      exact hj.map _
    have hkept : (keptValidators idToRemove v).Perm (keptValidators idToRemove v') := by
      cases idToRemove with
      | none => exact hv
      | some id => exact hv.filter _
    apply reorder_simplify_congr
    · rw [hv.length_eq, hkept.length_eq]
    · rw [normalizeInnerSets_eq, normalizeInnerSets_eq, filterMap_simplify_eq,
        filterMap_simplify_eq]
      exact hkept.append (hk.filterMap _)
    · rw [normalizeInnerSets_eq, normalizeInnerSets_eq, map_reorder_filter_simplify,
        map_reorder_filter_simplify]
      exact hk.filter _

/-! ### The canonical form -/

/-- **`normalizeQSet(q, nullptr)` is a canonical form that keeps the meaning of `q`.** On
a sane quorum set it keeps both scans for every node set; normalising twice is
normalising once; and sets that differ only in the order of validators and inner sets, at
any depth, normalise to the same set and so get the same `LocalNode` quorum-set hash. -/
theorem normalizeQSet_canonical :
    (∀ q : SCPQuorumSet N, isQuorumSetSane q false = true → ∀ S : List N,
      isQuorumSlice (normalizeQSet q none) S = isQuorumSlice q S ∧
        isVBlocking (normalizeQSet q none) S = isVBlocking q S) ∧
    (∀ q : SCPQuorumSet N, normalizeQSet (normalizeQSet q none) none = normalizeQSet q none) ∧
    ∀ q q' : SCPQuorumSet N, PermEquiv q q' →
      normalizeQSet q none = normalizeQSet q' none ∧
        ∀ {H : Type} (getHashOf : SCPQuorumSet N → H),
          getQuorumSetHash getHashOf q = getQuorumSetHash getHashOf q' := by
  refine ⟨fun q hq S => ?_, normalizeQSet_normalizeQSet, fun q q' hqq' => ?_⟩
  · have hsane := sane_of_isQuorumSetSane hq
    -- both scans take a set of threshold `1` with one entry for that entry
    have hslice : ∀ c, decide (decrementU32 1 + 1 ≤ c) = decide (1 ≤ c) := fun c => rfl
    have hblock : ∀ c : ℕ, (decide (1 ≠ 0) && decide (max ((1 + 1 : ℕ) - (1 : ℤ)) 1 ≤ (c : ℤ))) =
        decide (1 ≤ c) := fun c => by
      simp only [ne_eq, Nat.one_ne_zero, not_false_eq_true, decide_true, Bool.true_and]
      exact decide_eq_decide.mpr (by omega)
    refine ⟨?_, ?_⟩
    · rw [normalizeQSet, isQuorumSlice, isQuorumSlice, (counts_isQuorumSliceInternal S).reorder,
        (counts_isQuorumSliceInternal S).simplify hslice q hsane]
    · rw [normalizeQSet, isVBlocking, isVBlocking, (counts_isVBlockingInternal S).reorder,
        (counts_isVBlockingInternal S).simplify hblock q hsane]
  · have h := normalize_eq_of_permEquiv none q q' hqq'
    refine ⟨h, fun getHashOf => ?_⟩
    rw [getQuorumSetHash, getQuorumSetHash, normalizeQSet, normalizeQSet, h]

/-- A sane set with an inner set, its validators listed out of order at both levels: its
normal form keeps both scans, is a fixpoint, and is also the normal form of the same set
listed in order. -/
theorem normalizeQSet_canonical_reordered :
    isQuorumSetSane (.mk 2 [3, 1, 2] [.mk 1 [5, 4] []] : SCPQuorumSet ℕ) false = true ∧
      isQuorumSlice (normalizeQSet (.mk 2 [3, 1, 2] [.mk 1 [5, 4] []] : SCPQuorumSet ℕ) none)
        [1, 4] = isQuorumSlice (.mk 2 [3, 1, 2] [.mk 1 [5, 4] []]) [1, 4] ∧
      isVBlocking (normalizeQSet (.mk 2 [3, 1, 2] [.mk 1 [5, 4] []] : SCPQuorumSet ℕ) none)
        [2, 5] = isVBlocking (.mk 2 [3, 1, 2] [.mk 1 [5, 4] []]) [2, 5] ∧
      normalizeQSet (normalizeQSet (.mk 2 [3, 1, 2] [.mk 1 [5, 4] []] : SCPQuorumSet ℕ) none)
        none = normalizeQSet (.mk 2 [3, 1, 2] [.mk 1 [5, 4] []]) none ∧
      PermEquiv (.mk 2 [3, 1, 2] [.mk 1 [5, 4] []] : SCPQuorumSet ℕ)
        (.mk 2 [1, 2, 3] [.mk 1 [4, 5] []]) ∧
      normalizeQSet (.mk 2 [3, 1, 2] [.mk 1 [5, 4] []] : SCPQuorumSet ℕ) none =
        normalizeQSet (.mk 2 [1, 2, 3] [.mk 1 [4, 5] []]) none := by
  have hsane : isQuorumSetSane (.mk 2 [3, 1, 2] [.mk 1 [5, 4] []] : SCPQuorumSet ℕ) false =
      true := by decide
  -- the inner sets match position by position, so the witness list is the inner list itself
  have hinner : PermEquiv (.mk 1 [5, 4] [] : SCPQuorumSet ℕ) (.mk 1 [4, 5] []) :=
    permEquiv_mk.mpr ⟨rfl, by decide, [], List.Forall₂.nil, List.Perm.refl _⟩
  have hperm : PermEquiv (.mk 2 [3, 1, 2] [.mk 1 [5, 4] []] : SCPQuorumSet ℕ)
      (.mk 2 [1, 2, 3] [.mk 1 [4, 5] []]) :=
    permEquiv_mk.mpr ⟨rfl, by decide, _, List.Forall₂.cons hinner List.Forall₂.nil, List.Perm.refl _⟩
  obtain ⟨hsem, hidem, hcanon⟩ := normalizeQSet_canonical (N := ℕ)
  exact ⟨hsane, (hsem _ hsane [1, 4]).1, (hsem _ hsane [2, 5]).2, hidem _, hperm,
    (hcanon _ _ hperm).1⟩

end LocalNode
end Scp
end HcnetCore
