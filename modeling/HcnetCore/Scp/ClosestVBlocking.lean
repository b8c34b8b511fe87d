import HcnetCore.Scp.QuorumSlice

/-!
# `findClosestVBlocking` completes a v-blocking set

`LocalNode::findClosestVBlocking(qset, nodes, nullptr)` answers which nodes of `nodes`
would, together with every node outside `nodes`, block `qset`: the ballot protocol asks it
how far the nodes that have not moved are from making the local node move.

* `closestValidators_eq`, `closestInner_eq` — each of its two loops counts
  `leftTillBlock` down on the entries already blocked and returns early when the count
  reaches zero; otherwise it keeps the remaining candidates in order.
* `Closest` — what the answer is for one quorum set: nodes of `nodes` only, blocking the
  set together with the nodes outside `nodes`, and empty exactly when those already
  block it. `closest_findClosestVBlocking` proves it by induction over the tree: the
  answer takes `leftTillBlock` entries among the validators of `nodes` and the inner sets'
  own answers, and there are always enough, since the threshold is at least one.
* `findClosestVBlocking_sound` states it for `isVBlocking`, on every quorum set that
  passes `isQuorumSetSane`.

Whether the answer is also a smallest one is not settled here.
-/

namespace HcnetCore
namespace Scp
namespace LocalNode

variable {N : Type}

/-! ### The two loops -/

theorem decrementSizeT_eq {x : ℕ} (h1 : 1 ≤ x) (h2 : x ≤ 2 ^ 64) : decrementSizeT x = x - 1 := by
  unfold decrementSizeT
  omega

/-- The inner-set loop over the inner sets' answers: an empty answer is an inner set
already blocked. -/
theorem closestInner_eq (rs : List (List N)) {left : ℕ} (h1 : 1 ≤ left) (h2 : left ≤ 2 ^ 64) :
    closestInner left rs =
      if rs.countP (fun r => decide (r.length = 0)) < left then
        some (left - rs.countP (fun r => decide (r.length = 0)),
          rs.filter fun r => decide (r.length ≠ 0))
      else none := by
  induction rs generalizing left with
  | nil =>
    simp [closestInner]
    omega
  | cons r rs ih =>
    by_cases hr : r.length = 0
    · rw [closestInner, if_pos hr]
      simp only [List.countP_cons, hr, decide_true, if_true, List.filter_cons, ne_eq,
        not_true_eq_false, decide_false, Bool.false_eq_true, if_false]
      by_cases hl : left = 1
      · subst hl
        simp [decrementSizeT]
      · rw [if_neg (by rw [decrementSizeT_eq h1 h2]; omega), decrementSizeT_eq h1 h2,
          ih (by omega) (by omega)]
        by_cases hlt : rs.countP (fun r => decide (r.length = 0)) < left - 1
        · rw [if_pos hlt, if_pos (by omega), Nat.sub_sub, Nat.add_comm 1]
        · rw [if_neg hlt, if_neg (by omega)]
    · rw [closestInner, if_neg hr, ih h1 h2]
      simp only [List.countP_cons, hr, decide_false, Bool.false_eq_true, if_false, Nat.add_zero,
        List.filter_cons, ne_eq, not_false_eq_true, decide_true, if_true]
      split <;> rfl

variable [DecidableEq N]

/-- The validator loop, without an excluded node: it returns early exactly when the
validators outside `nodes` use up `left`, and otherwise leaves the rest of the count and
the validators in `nodes`. -/
theorem closestValidators_eq (nodes : List N) (v : List N) {left : ℕ} (h1 : 1 ≤ left)
    (h2 : left ≤ 2 ^ 64) :
    closestValidators nodes none left v =
      if v.countP (fun x => decide (x ∉ nodes)) < left then
        some (left - v.countP (fun x => decide (x ∉ nodes)), v.filter fun x => decide (x ∈ nodes))
      else none := by
  induction v generalizing left with
  | nil =>
    simp [closestValidators]
    omega
  | cons x xs ih =>
    by_cases hx : x ∈ nodes
    · -- a candidate: kept, and the count unchanged
      rw [closestValidators, if_neg (by simp), if_neg (by simpa using hx), ih h1 h2]
      simp only [List.countP_cons, hx, not_true_eq_false, decide_false, Bool.false_eq_true,
        if_false, Nat.add_zero, List.filter_cons, decide_true, if_true]
      split <;> rfl
    · -- already blocked: the count goes down, and the loop stops when it reaches zero
      rw [closestValidators, if_neg (by simp), if_pos hx]
      simp only [List.countP_cons, hx, not_false_eq_true, decide_true, if_true,
        List.filter_cons, decide_false, Bool.false_eq_true, if_false]
      by_cases hl : left = 1
      · subst hl
        simp [decrementSizeT]
      · rw [if_neg (by rw [decrementSizeT_eq h1 h2]; omega), decrementSizeT_eq h1 h2,
          ih (by omega) (by omega)]
        by_cases hlt : xs.countP (fun x => decide (x ∉ nodes)) < left - 1
        · rw [if_pos hlt, if_pos (by omega), Nat.sub_sub, Nat.add_comm 1]
        · rw [if_neg hlt, if_neg (by omega)]

theorem findClosestVBlockingList_eq (nodes : List N) (excluded : Option N) :
    ∀ l : List (SCPQuorumSet N),
      findClosestVBlockingList l nodes excluded = l.map fun q => findClosestVBlocking q nodes excluded
  | [] => rfl
  | q :: qs => by
    rw [findClosestVBlockingList, findClosestVBlockingList_eq nodes excluded qs, List.map_cons]

/-- `findClosestVBlocking` on a set of `n` entries whose threshold lies between `1` and `n`:
`leftTillBlock` starts at `1 + n - threshold`. The answer is empty when the validators
outside `nodes` and the inner sets with an empty answer reach that count; otherwise it is
the first validators of `nodes` and then the smallest other answers, until the rest of the
count is covered. -/
theorem findClosestVBlocking_mk (nodes : List N) {t : ℕ} {v : List N} {i : List (SCPQuorumSet N)}
    (ht1 : 1 ≤ t) (htn : t ≤ v.length + i.length) (hn : v.length + i.length < 2 ^ 63) :
    findClosestVBlocking (.mk t v i) nodes none =
      if v.countP (fun x => decide (x ∉ nodes)) +
          (i.map fun c => findClosestVBlocking c nodes none).countP (fun r => decide (r.length = 0)) <
          1 + v.length + i.length - t then
        (v.filter fun x => decide (x ∈ nodes)).take (1 + v.length + i.length - t -
            v.countP (fun x => decide (x ∉ nodes)) -
            (i.map fun c => findClosestVBlocking c nodes none).countP (fun r => decide (r.length = 0))) ++
          (((((i.map fun c => findClosestVBlocking c nodes none).filter
              fun r => decide (r.length ≠ 0)).insertionSort fun p q => p.length ≤ q.length).take
            (1 + v.length + i.length - t - v.countP (fun x => decide (x ∉ nodes)) -
              (i.map fun c => findClosestVBlocking c nodes none).countP (fun r => decide (r.length = 0)) -
              (v.filter fun x => decide (x ∈ nodes)).length)).flatten)
      else [] := by
  have hL : (1 + v.length + i.length + 2 ^ 64 - t) % 2 ^ 64 = 1 + v.length + i.length - t := by
    omega
  rw [findClosestVBlocking]
  simp only [hL]
  rw [closestValidators_eq nodes v (by omega) (by omega)]
  by_cases ha : v.countP (fun x => decide (x ∉ nodes)) < 1 + v.length + i.length - t
  · -- the validators outside `nodes` do not block yet: the inner sets are asked
    rw [if_pos ha, findClosestVBlockingList_eq]
    dsimp only
    rw [closestInner_eq _ (by omega) (by omega)]
    by_cases hb : (i.map fun c => findClosestVBlocking c nodes none).countP
        (fun r => decide (r.length = 0)) < 1 + v.length + i.length - t -
          v.countP (fun x => decide (x ∉ nodes))
    · rw [if_pos hb, if_pos (by omega)]
      dsimp only
      rw [List.length_take]
      -- what is left to cover after the validators: `k - min k f` is `k - f`
      congr 3
      omega
    · rw [if_neg hb, if_neg (by omega)]
  · rw [if_neg ha, if_neg (by omega)]

/-! ### Counting what the answer blocks -/

/-- A prefix of a list is counted in full among the list's elements that lie in it. -/
theorem length_take_le_countP_mem {α : Type} [BEq α] [LawfulBEq α] (l : List α) (k : ℕ) :
    (l.take k).length ≤ l.countP fun x => decide (x ∈ l.take k) := by
  have hall : (l.take k).countP (fun x => decide (x ∈ l.take k)) = (l.take k).length :=
    List.countP_eq_length.mpr fun x hx => by simpa using hx
  calc (l.take k).length
      = (l.take k).countP (fun x => decide (x ∈ l.take k)) := hall.symm
    _ ≤ (l.take k).countP (fun x => decide (x ∈ l.take k)) +
          (l.drop k).countP (fun x => decide (x ∈ l.take k)) := Nat.le_add_right _ _
    _ = l.countP fun x => decide (x ∈ l.take k) := by
          rw [← List.countP_append, List.take_append_drop]

section Count

variable {nodes U S : List N}

/-- The validators a node set `S` hits, when it holds the nodes of `U` outside `nodes` and
the first `k` validators of `nodes`: those outside `nodes`, and those `k`. -/
theorem countP_validators_le (v : List N) (hvU : ∀ x ∈ v, x ∈ U)
    (hS : ∀ x ∈ U, x ∉ nodes → x ∈ S) (k : ℕ)
    (hk : ∀ x ∈ (v.filter fun x => decide (x ∈ nodes)).take k, x ∈ S) :
    v.countP (fun x => decide (x ∉ nodes)) + ((v.filter fun x => decide (x ∈ nodes)).take k).length ≤
      v.countP fun x => decide (x ∈ S) := by
  -- split the validators by membership in `nodes`
  have hsplit := List.countP_eq_countP_filter_add v (fun x => decide (x ∈ S)) (fun x => decide (x ∉ nodes))
  -- those outside `nodes` all lie in `S`
  have hout : (v.filter fun x => decide (x ∉ nodes)).countP (fun x => decide (x ∈ S)) =
      v.countP fun x => decide (x ∉ nodes) := by
    rw [List.countP_eq_length.mpr, List.countP_eq_length_filter]
    intro x hx
    obtain ⟨hxv, hxn⟩ := List.mem_filter.mp hx
    exact decide_eq_true (hS x (hvU x hxv) (of_decide_eq_true hxn))
  -- those in `nodes` lie in `S` at least as far as the first `k`
  have hin : ((v.filter fun x => decide (x ∈ nodes)).take k).length ≤
      (v.filter fun x => !decide (x ∉ nodes)).countP fun x => decide (x ∈ S) := by
    have hfilter : (v.filter fun x => !decide (x ∉ nodes)) = v.filter fun x => decide (x ∈ nodes) := by
      simp
    rw [hfilter]
    exact (length_take_le_countP_mem _ k).trans
      (List.countP_mono_left fun x _ hx => decide_eq_true (hk x (of_decide_eq_true hx)))
  omega

/-- The inner sets a node set `S` blocks, when each inner set's answer `ans c` is a
`Closest` one, `S` holds the nodes of `U` outside `nodes`, and `S` holds the first `k`
non-empty answers in the order the answers are sorted in: the inner sets those nodes
already block, and one more for each of the `k`. -/
theorem countP_inner_le (i : List (SCPQuorumSet N)) (ans : SCPQuorumSet N → List N)
    (hans : ∀ c ∈ i, isVBlockingInternal ((U.filter fun x => x ∉ nodes) ++ ans c) c = true ∧
      (ans c = [] → isVBlockingInternal (U.filter fun x => x ∉ nodes) c = true))
    (hS : ∀ x ∈ U, x ∉ nodes → x ∈ S) (k : ℕ)
    (hk : ∀ r ∈ ((((i.map ans).filter fun r => decide (r.length ≠ 0)).insertionSort
        fun p q => p.length ≤ q.length).take k), ∀ x ∈ r, x ∈ S) :
    (i.map ans).countP (fun r => decide (r.length = 0)) +
        ((((i.map ans).filter fun r => decide (r.length ≠ 0)).insertionSort
          fun p q => p.length ≤ q.length).take k).length ≤
      i.countP (isVBlockingInternal S) := by
  have hcomp : (U.filter fun x => x ∉ nodes) ⊆ S := fun x hx => by
    obtain ⟨hxU, hxn⟩ := List.mem_filter.mp hx
    exact hS x hxU (by simpa using hxn)
  -- split the inner sets by whether their answer is empty
  have hsplit := List.countP_eq_countP_filter_add i (isVBlockingInternal S)
    (fun c => decide ((ans c).length = 0))
  -- an empty answer: blocked by the nodes outside `nodes` already
  have hempty : (i.filter fun c => decide ((ans c).length = 0)).countP (isVBlockingInternal S) =
      (i.map ans).countP fun r => decide (r.length = 0) := by
    rw [List.countP_map, List.countP_eq_length.mpr, List.countP_eq_length_filter]
    · rfl
    intro c hc
    obtain ⟨hci, h0⟩ := List.mem_filter.mp hc
    exact isVBlockingInternal_mono hcomp c
      ((hans c hci).2 (List.eq_nil_of_length_eq_zero (of_decide_eq_true h0)))
  -- a chosen answer: blocked with it, and the chosen answers are answers of distinct sets
  have hchosen : ((((i.map ans).filter fun r => decide (r.length ≠ 0)).insertionSort
        fun p q => p.length ≤ q.length).take k).length ≤
      (i.filter fun c => !decide ((ans c).length = 0)).countP (isVBlockingInternal S) := by
    set P := (i.map ans).filter fun r => decide (r.length ≠ 0)
    set chosen := (P.insertionSort fun p q => p.length ≤ q.length).take k
    calc chosen.length
        ≤ (P.insertionSort fun p q => p.length ≤ q.length).countP fun r => decide (r ∈ chosen) :=
          length_take_le_countP_mem _ k
      _ = P.countP fun r => decide (r ∈ chosen) := (List.perm_insertionSort _ P).countP_eq _
      _ = (i.filter fun c => !decide ((ans c).length = 0)).countP fun c => decide (ans c ∈ chosen) := by
          rw [List.countP_filter, List.countP_map, List.countP_filter]
          exact List.countP_congr fun c _ => by simp [Bool.and_comm]
      _ ≤ (i.filter fun c => !decide ((ans c).length = 0)).countP (isVBlockingInternal S) :=
          List.countP_mono_left fun c hc hcc => by
            have hsub : (U.filter fun x => x ∉ nodes) ++ ans c ⊆ S :=
              List.append_subset.mpr ⟨hcomp, fun x hx => hk _ (of_decide_eq_true hcc) x hx⟩
            exact isVBlockingInternal_mono hsub c (hans c (List.mem_filter.mp hc).1).1
  omega

end Count

/-- The elements `p` counts and those `q` keeps, for `p` the negation of `q`, are all of
them. -/
theorem countP_add_length_filter {α : Type} (p q : α → Bool) (hpq : ∀ x, p x = !q x)
    (l : List α) : l.countP p + (l.filter q).length = l.length := by
  induction l with
  | nil => rfl
  | cons x l ih =>
    rw [List.countP_cons, List.filter_cons, hpq x, List.length_cons]
    cases q x <;> simp <;> omega

/-! ### The answer blocks -/

/-- What `findClosestVBlocking q nodes nullptr` is to `q`, for a universe `U` of nodes:
nodes of `nodes` only, which with the nodes of `U` outside `nodes` block `q`, and none at
all exactly when those block `q` already. -/
structure Closest (nodes U : List N) (q : SCPQuorumSet N) (R : List N) : Prop where
  subset : ∀ x ∈ R, x ∈ nodes
  blocks : isVBlockingInternal ((U.filter fun x => x ∉ nodes) ++ R) q = true
  eq_nil_iff : R = [] ↔ isVBlockingInternal (U.filter fun x => x ∉ nodes) q = true

/-- **`findClosestVBlocking` completes a v-blocking set.** By induction over the tree: the
nodes outside `nodes` block `q` when the validators outside `nodes` and the inner sets
with an empty answer reach `1 + n - t`, and otherwise the answer covers what is missing,
with validators of `nodes` and with the answers of other inner sets, which block their
sets. There are enough of them, since `t ≥ 1` leaves at most `n - 1 + 1 - t` entries
to cover out of the `n` not yet blocked. -/
theorem closest_findClosestVBlocking (nodes U : List N) (q : SCPQuorumSet N) (hq : Sane q)
    (hU : ∀ x ∈ forAllNodes q, x ∈ U) : Closest nodes U q (findClosestVBlocking q nodes none) := by
  induction q using SCPQuorumSet.ind with
  | mk t v i ih =>
    have ht1 := hq.threshold_pos
    have htn := hq.threshold_le
    have hlen := hq.length_le
    have hile := length_le_length_flatMap i (thresholdsInRange_mk.mp hq.thresholds).2.2
    rw [forAllNodes_mk, List.length_append] at hlen
    have hvU : ∀ x ∈ v, x ∈ U := fun x hx =>
      hU x (by rw [forAllNodes_mk]; exact List.mem_append_left _ hx)
    have hinner : ∀ c ∈ i, Closest nodes U c (findClosestVBlocking c nodes none) := fun c hc =>
      ih c hc (hq.inner hc) fun x hx => hU x ((forAllNodes_sublist_of_mem hc).subset hx)
    -- the entries the nodes outside `nodes` block: the validators outside `nodes`, and the
    -- inner sets whose answer is empty
    have hva : v.countP (fun x => decide (x ∈ U.filter fun x => x ∉ nodes)) =
        v.countP fun x => decide (x ∉ nodes) :=
      List.countP_congr fun x hx => by simp [hvU x hx]
    have hib : i.countP (isVBlockingInternal (U.filter fun x => x ∉ nodes)) =
        (i.map fun c => findClosestVBlocking c nodes none).countP fun r => decide (r.length = 0) := by
      rw [List.countP_map]
      refine List.countP_congr fun c hc => ?_
      simp only [Function.comp_apply, decide_eq_true_eq, List.length_eq_zero_iff]
      exact (hinner c hc).eq_nil_iff.symm
    have hcomp : isVBlockingInternal (U.filter fun x => x ∉ nodes) (.mk t v i) =
        decide (1 + v.length + i.length - t ≤ v.countP (fun x => decide (x ∉ nodes)) +
          (i.map fun c => findClosestVBlocking c nodes none).countP fun r => decide (r.length = 0)) := by
      rw [isVBlockingInternal_mk, hva, hib, decide_eq_true (show t ≠ 0 by omega), Bool.true_and]
      exact decide_eq_decide.mpr (by omega)
    have hvlen := countP_add_length_filter (fun x => decide (x ∉ nodes))
      (fun x => decide (x ∈ nodes)) (fun x => by simp) v
    have hilen := countP_add_length_filter (fun r => decide (r.length = 0))
      (fun r => decide (r.length ≠ 0)) (fun r => by simp) (i.map fun c => findClosestVBlocking c nodes none)
    rw [List.length_map] at hilen
    rw [findClosestVBlocking_mk nodes ht1 htn (by omega)]
    split_ifs with hab
    · -- entries are left to cover: the first validators of `nodes`, then the smallest answers
      set a := v.countP fun x => decide (x ∉ nodes) with ha_def
      set rs := i.map fun c => findClosestVBlocking c nodes none with hrs
      set b := rs.countP fun r => decide (r.length = 0) with hb
      set res := v.filter fun x => decide (x ∈ nodes) with hres
      set P := rs.filter fun r => decide (r.length ≠ 0) with hP
      set sorted := P.insertionSort fun p q => p.length ≤ q.length with hsorted_def
      set k := 1 + v.length + i.length - t - a - b with hk
      set R := res.take k ++ (sorted.take (k - res.length)).flatten
      have hS : ∀ x ∈ U, x ∉ nodes → x ∈ (U.filter fun x => x ∉ nodes) ++ R := fun x hxU hxn =>
        List.mem_append_left _ (List.mem_filter.mpr ⟨hxU, by simpa using hxn⟩)
      have hv := countP_validators_le v hvU hS k fun x hx =>
        List.mem_append_right _ (List.mem_append_left _ hx)
      have hi := countP_inner_le i (fun c => findClosestVBlocking c nodes none)
        (fun c hc => ⟨(hinner c hc).blocks, (hinner c hc).eq_nil_iff.mp⟩) hS (k - res.length)
        fun r hr x hx => List.mem_append_right _ (List.mem_append_right _ (List.mem_flatten.mpr ⟨r, hr, hx⟩))
      rw [← hrs, ← hb, ← hP, ← hsorted_def] at hi
      have hsorted : sorted.length = P.length := List.length_insertionSort _ P
      rw [← ha_def, ← hres, List.length_take] at hv
      rw [List.length_take, hsorted] at hi
      refine ⟨?_, ?_, ?_⟩
      · -- only nodes of `nodes`: validators in `nodes`, and the inner sets' answers
        intro x hx
        rcases List.mem_append.mp hx with hx | hx
        · exact of_decide_eq_true (List.mem_filter.mp (List.mem_of_mem_take hx)).2
        · obtain ⟨r, hr, hxr⟩ := List.mem_flatten.mp hx
          have hrP : r ∈ P := (List.mem_insertionSort _).mp (List.mem_of_mem_take hr)
          obtain ⟨c, hc, rfl⟩ := List.mem_map.mp (List.mem_filter.mp hrP).1
          exact (hinner c hc).subset x hxr
      · -- the count is reached
        rw [isVBlockingInternal_mk, Bool.and_eq_true, decide_eq_true_eq, decide_eq_true_eq]
        exact ⟨by omega, by omega⟩
      · -- the answer is not empty, and the nodes outside `nodes` alone do not block
        rw [hcomp]
        constructor
        · intro hR
          obtain ⟨hres0, hflat⟩ := List.append_eq_nil_iff.mp hR
          have hchosen0 : sorted.take (k - res.length) = [] := by
            refine List.eq_nil_iff_forall_not_mem.mpr fun r hr => ?_
            have hrP : r ∈ P := (List.mem_insertionSort _).mp (List.mem_of_mem_take hr)
            have hr0 := List.flatten_eq_nil_iff.mp hflat r hr
            exact absurd (congrArg List.length hr0) (of_decide_eq_true (List.mem_filter.mp hrP).2)
          have h1 := congrArg List.length hres0
          have h2 := congrArg List.length hchosen0
          rw [List.length_take, List.length_nil] at h1 h2
          rw [hsorted] at h2
          omega
        · intro h
          exact absurd (of_decide_eq_true h) (by omega)
    · -- the nodes outside `nodes` block `q` already, and the answer is empty
      have hblocked : isVBlockingInternal (U.filter fun x => x ∉ nodes) (.mk t v i) = true := by
        rw [hcomp]
        exact decide_eq_true (by omega)
      refine ⟨fun x hx => absurd hx List.not_mem_nil, ?_, ⟨fun _ => hblocked, fun _ => rfl⟩⟩
      rw [List.append_nil]
      exact hblocked

/-- **`findClosestVBlocking` completes a v-blocking set.** On a quorum set that passes
`isQuorumSetSane(q, false)`, for a universe `U` holding every node of `q`, the answer of
`findClosestVBlocking(q, nodes, nullptr)` is made of nodes of `nodes`; with the nodes of `U`
outside `nodes` it is v-blocking; and it is empty exactly when those nodes are v-blocking
already. -/
theorem findClosestVBlocking_sound (q : SCPQuorumSet N) (hq : isQuorumSetSane q false = true)
    (nodes U : List N) (hU : ∀ x ∈ forAllNodes q, x ∈ U) :
    (∀ x ∈ findClosestVBlocking q nodes none, x ∈ nodes) ∧
      isVBlocking q ((U.filter fun x => x ∉ nodes) ++ findClosestVBlocking q nodes none) = true ∧
      (findClosestVBlocking q nodes none = [] ↔
        isVBlocking q (U.filter fun x => x ∉ nodes) = true) := by
  have h := closest_findClosestVBlocking nodes U q (sane_of_isQuorumSetSane hq) hU
  exact ⟨h.subset, h.blocks, h.eq_nil_iff⟩

/-- Two of `1`, `2`, `3` and one of `4`, `5`, with `2` and `3` outside `nodes`: one more
entry must be blocked, and the validator `1` is the answer. -/
theorem findClosestVBlocking_sound_nested :
    (∀ x ∈ findClosestVBlocking (.mk 2 [1, 2, 3] [.mk 1 [4, 5] []] : SCPQuorumSet ℕ) [1, 4, 5] none,
        x ∈ [1, 4, 5]) ∧
      isVBlocking (.mk 2 [1, 2, 3] [.mk 1 [4, 5] []] : SCPQuorumSet ℕ)
        (([1, 2, 3, 4, 5].filter fun x => x ∉ [1, 4, 5]) ++
          findClosestVBlocking (.mk 2 [1, 2, 3] [.mk 1 [4, 5] []]) [1, 4, 5] none) = true ∧
      (findClosestVBlocking (.mk 2 [1, 2, 3] [.mk 1 [4, 5] []] : SCPQuorumSet ℕ) [1, 4, 5] none = [] ↔
        isVBlocking (.mk 2 [1, 2, 3] [.mk 1 [4, 5] []] : SCPQuorumSet ℕ)
          ([1, 2, 3, 4, 5].filter fun x => x ∉ [1, 4, 5]) = true) :=
  findClosestVBlocking_sound _ (by decide) [1, 4, 5] [1, 2, 3, 4, 5] (by decide)

example : findClosestVBlocking (.mk 2 [1, 2, 3] [.mk 1 [4, 5] []] : SCPQuorumSet ℕ) [1, 4, 5] none =
    [1] := by
  decide

end LocalNode
end Scp
end HcnetCore
