import Mathlib.Data.Finset.Card
import HcnetCore.Util.TarjanSCCInvariant

/-!
# Correctness of `TarjanSCCCalculator`

`calculateSCCs(n, succ)` returns, for every graph on the nodes below `n` whose successor
sets stay below `n`, with `mSCCs` exactly the strongly connected components of the
graph, each once (`calculateSCCs_components`).

The proof follows the recursion of the source:

* one turn of the loop of `scc(v)` keeps `LoopInv`, in each of its three branches
  (`LoopInv.visit_fresh`, `LoopInv.visit_onStack`, `LoopInv.visit_done`), given the
  postcondition of the recursive call; the whole loop then keeps it
  (`foldlM_visitSuccessor`);
* `scc(v)` returns and meets `SccPost` (`scc_spec`), by induction on the fuel: every call
  visits a node that had no index, so the nodes below `n` without an index bound the
  depth of the recursion (`unvisitedBelow`);
* the loop of `calculateSCCs` keeps `RootsInv`: the stack is empty between its turns,
  since a call started on an empty stack ends at a root (`SccPost.stack_eq_nil`).
-/

namespace HcnetCore

namespace TarjanSCCCalculator

variable {succ : ℕ → Finset ℕ} {t tk tc : TarjanSCCCalculator} {v j n : ℕ} {seen : List ℕ}

/-- A call of `scc(v)` gives `v` an index. -/
theorem SccPost.visited_self (hc : SccPost succ t v tc) (ht : WF succ t) : tc.Visited v := by
  have := ht.counter_nonneg
  rw [Visited, hc.index_self]
  omega

namespace LoopInv

theorem exists_new (h : LoopInv succ t v seen tk) : ∃ new, tk.mStack = new ++ v :: t.mStack ∧
    v ∉ new ∧ OpenAbove succ t (tk.mNodes v).mLowLink tk new := by
  obtain ⟨new, hnew, hopen⟩ := h.stack
  exact ⟨new, hnew, fun hv =>
    List.disjoint_of_nodup_append (hnew ▸ h.wf.stack_nodup) hv (List.mem_cons_self ..), hopen⟩

theorem mem_stack (h : LoopInv succ t v seen tk) : v ∈ tk.mStack := by
  obtain ⟨new, hnew, -⟩ := h.stack
  simp [hnew]

/-- A successor already in a component changes nothing. -/
theorem visit_done (h : LoopInv succ t v seen tk) (hj : tk.Done j) :
    LoopInv succ t v (seen ++ [j]) tk where
  __ := h
  seen_settled w hw := by
    rcases List.mem_append.1 hw with hw | hw
    · exact h.seen_settled w hw
    · exact Or.inl (List.mem_singleton.1 hw ▸ hj)

/-- A successor on the stack lowers the low link of `v` to its index. -/
theorem visit_onStack (h : LoopInv succ t v seen tk) (ht : WF succ t) (hj : Edge succ v j)
    (hjs : j ∈ tk.mStack) :
    LoopInv succ t v (seen ++ [j])
      (tk.setLowLink v (min (tk.mNodes v).mLowLink (tk.mNodes j).mIndex)) := by
  obtain ⟨new, hnew, hvnew, hopen⟩ := h.exists_new
  refine
    { wf := h.wf.setLowLink_min h.mem_stack (Or.inr ⟨j, hjs, rfl, .single hj⟩)
      ext := h.ext.setLowLink (h.not_visited ht)
      index_self := by simpa using h.index_self
      fresh := fun x hx hxt => by simpa using h.fresh x (setLowLink_visited.1 hx) hxt
      stack := ⟨new, by simpa using hnew, ?_⟩
      seen_settled := ?_ }
  · rw [setLowLink_lowLink_self]
    exact (hopen.mono (min_le_left ..)).setLowLink hvnew
  · intro w hw
    rw [setLowLink_lowLink_self]
    rcases List.mem_append.1 hw with hw | hw
    · exact ((h.seen_settled w hw).mono (min_le_left ..)).setLowLink
    · rw [List.mem_singleton.1 hw]
      exact Settled.setLowLink (Or.inr ⟨hjs, min_le_right ..⟩)

/-- A successor with no index is visited by the recursive call, and lowers the low link
of `v` to the low link it has afterwards. -/
theorem visit_fresh (h : LoopInv succ t v seen tk) (ht : WF succ t) (hj : Edge succ v j)
    (hjv : ¬ tk.Visited j) (hc : SccPost succ tk j tc) :
    LoopInv succ t v (seen ++ [j])
      (tc.setLowLink v (min (tc.mNodes v).mLowLink (tc.mNodes j).mLowLink)) := by
  obtain ⟨new, hnew, hvnew, hopen⟩ := h.exists_new
  obtain ⟨newc, hnewc, hopenc⟩ := hc.stack
  have hvk : tk.Visited v := h.wf.stack_visited v h.mem_stack
  -- the call leaves the record of `v` and the stack below it as they were
  have hrec : tc.mNodes v = tk.mNodes v := hc.ext.nodes v hvk
  have hvc : v ∈ tc.mStack := by
    rw [hnewc]
    exact List.mem_append_right _ h.mem_stack
  have hvnewc : v ∉ newc := fun hv => (hopenc v hv).1 hvk
  -- the low link of `j` is the index of a stack node `j` reaches, unless `j` was a root,
  -- whose low link is its index: above every index in `tk`, so the minimum is `v`'s
  have hmin : (tc.mNodes v).mLowLink ≤ (tc.mNodes j).mLowLink ∨ ∃ w ∈ tc.mStack,
      (tc.mNodes w).mIndex = (tc.mNodes j).mLowLink ∧ Relation.ReflTransGen (Edge succ) v w := by
    by_cases hjs : j ∈ tc.mStack
    · obtain ⟨w, hw, hwl, hr⟩ := hc.wf.low_reach j hjs
      exact Or.inr ⟨w, hw, hwl, .head hj hr⟩
    · left
      rw [(hc.root hjs).2, hc.index_self, hrec]
      exact (h.wf.low_le v h.mem_stack).trans (h.wf.index_lt v hvk).le
  have hsettled : ∀ w, tk.Settled (tk.mNodes v).mLowLink w →
      (tc.setLowLink v (min (tc.mNodes v).mLowLink (tc.mNodes j).mLowLink)).Settled
        (min (tc.mNodes v).mLowLink (tc.mNodes j).mLowLink) w := fun w hw => by
    have := hw.extend hc.ext h.wf hc.wf ⟨newc, hnewc⟩
    rw [← hrec] at this
    exact (this.mono (min_le_left ..)).setLowLink
  refine
    { wf := hc.wf.setLowLink_min hvc hmin
      ext := (h.ext.trans hc.ext).setLowLink (h.not_visited ht)
      index_self := by rw [setLowLink_index, hrec, h.index_self]
      fresh := fun x hx hxt => ?_
      stack := ⟨newc ++ new, by rw [setLowLink_mStack, hnewc, hnew, List.append_assoc], ?_⟩
      seen_settled := ?_ }
  · -- a node visited by the recursive call is reachable from `j`, hence from `v`
    rw [setLowLink_index]
    rw [setLowLink_visited] at hx
    by_cases hxk : tk.Visited x
    · rw [hc.ext.nodes x hxk]
      exact h.fresh x hxk hxt
    · obtain ⟨hle, hr⟩ := hc.fresh x hx hxk
      exact ⟨h.ext.counter_le.trans hle, .head hj hr⟩
  · rw [setLowLink_lowLink_self]
    refine OpenAbove.append ?_ ?_
    · exact ((hopenc.of_extends h.ext).mono (min_le_right ..)).setLowLink hvnewc
    · have hext := hopen.extend (fun x hx => by rw [hnew]; exact List.mem_append_left _ hx)
        hc.ext h.wf hc.wf ⟨newc, hnewc⟩
      rw [← hrec] at hext
      exact (hext.mono (min_le_left ..)).setLowLink hvnew
  · intro w hw
    rw [setLowLink_lowLink_self]
    rcases List.mem_append.1 hw with hw | hw
    · exact hsettled w (h.seen_settled w hw)
    · rw [List.mem_singleton.1 hw]
      refine Settled.setLowLink ?_
      by_cases hjs : j ∈ tc.mStack
      · -- `j` stayed on the stack: it is open, so its low link is below its index
        have hjnew : j ∈ newc := by
          rw [hnewc, List.mem_append] at hjs
          exact hjs.resolve_right fun hjk => hjv (h.wf.stack_visited j hjk)
        exact Or.inr ⟨hjs, (min_le_right ..).trans (hopenc j hjnew).2.1.le⟩
      · exact Or.inl ⟨hc.visited_self h.wf, hjs⟩

/-- **One turn of the loop of `scc(v)`** keeps the loop invariant, given that a call on a
successor with no index meets its postcondition. -/
theorem visitSuccessor_spec {visit : ℕ → TarjanSCCCalculator → Option TarjanSCCCalculator}
    (h : LoopInv succ t v seen tk) (ht : WF succ t) (hj : Edge succ v j)
    (hvisit : ¬ tk.Visited j → ∃ tc, visit j tk = some tc ∧ SccPost succ tk j tc) :
    ∃ t', visitSuccessor visit v tk j = some t' ∧ LoopInv succ t v (seen ++ [j]) t' := by
  unfold visitSuccessor
  split_ifs with hfresh hon
  · obtain ⟨tc, htc, hc⟩ := hvisit (not_not.2 hfresh)
    exact ⟨_, by rw [htc]; rfl, h.visit_fresh ht hj (not_not.2 hfresh) hc⟩
  · exact ⟨_, rfl, h.visit_onStack ht hj ((h.wf.onStack_iff j).1 hon)⟩
  · refine ⟨tk, rfl, h.visit_done ⟨hfresh, fun hjs => hon ?_⟩⟩
    exact (h.wf.onStack_iff j).2 hjs

end LoopInv

/-- **The loop of `scc(v)`** over any list of successors keeps the loop invariant, given
that a call on a successor with no index, from any state the loop reaches, meets its
postcondition. -/
theorem foldlM_visitSuccessor {visit : ℕ → TarjanSCCCalculator → Option TarjanSCCCalculator}
    (ht : WF succ t)
    (hvisit : ∀ j tk seen, Edge succ v j → LoopInv succ t v seen tk → ¬ tk.Visited j →
      ∃ tc, visit j tk = some tc ∧ SccPost succ tk j tc) :
    ∀ (rest seen : List ℕ) (tk : TarjanSCCCalculator), (∀ j ∈ rest, Edge succ v j) →
      LoopInv succ t v seen tk →
      ∃ t', rest.foldlM (visitSuccessor visit v) tk = some t' ∧ LoopInv succ t v (seen ++ rest) t'
  | [], seen, tk, _, h => ⟨tk, rfl, by rw [List.append_nil]; exact h⟩
  | j :: rest, seen, tk, hrest, h => by
    have hj := hrest j (List.mem_cons_self ..)
    obtain ⟨t₁, h₁, hinv₁⟩ := h.visitSuccessor_spec ht hj (hvisit j tk seen hj h)
    obtain ⟨t₂, h₂, hinv₂⟩ := foldlM_visitSuccessor ht hvisit rest (seen ++ [j]) t₁
      (fun j hj => hrest j (List.mem_cons_of_mem _ hj)) hinv₁
    refine ⟨t₂, by rw [List.foldlM_cons, h₁]; exact h₂, ?_⟩
    rwa [List.append_assoc, List.singleton_append] at hinv₂

/-! ### The depth of the recursion -/

/-- The nodes below `n` with no index yet. -/
def unvisitedBelow (n : ℕ) (t : TarjanSCCCalculator) : ℕ :=
  ((Finset.range n).filter fun x => (t.mNodes x).mIndex = -1).card

theorem unvisitedBelow_le {t' : TarjanSCCCalculator} (h : ∀ x, t.Visited x → t'.Visited x) :
    unvisitedBelow n t' ≤ unvisitedBelow n t := by
  refine Finset.card_le_card fun x hx => ?_
  rw [Finset.mem_filter] at hx ⊢
  exact ⟨hx.1, by_contra fun hx' => h x hx' hx.2⟩

/-- Pushing a node below `n` with no index takes one from the count. -/
theorem unvisitedBelow_push (ht : WF succ t) (hv : ¬ t.Visited v) (hvn : v < n) :
    unvisitedBelow n (t.push v) < unvisitedBelow n t := by
  refine Finset.card_lt_card (Finset.ssubset_iff_of_subset ?_ |>.2 ⟨v, ?_, ?_⟩)
  · intro x hx
    rw [Finset.mem_filter] at hx ⊢
    exact ⟨hx.1, by_contra fun hx' => (push_visited ht).2 (Or.inr hx') hx.2⟩
  · rw [Finset.mem_filter, Finset.mem_range]
    exact ⟨hvn, not_not.1 hv⟩
  · simp only [Finset.mem_filter, push_self, not_and]
    have := ht.counter_nonneg
    omega

theorem LoopInv.visited_of_push (h : LoopInv succ t v seen tk) (ht : WF succ t) {x : ℕ}
    (hx : (t.push v).Visited x) : tk.Visited x := by
  rcases (push_visited ht).1 hx with rfl | hx
  · exact h.wf.stack_visited x h.mem_stack
  · exact h.ext.visited hx

/-- **`scc(v)` returns and meets its postcondition**, from any calculator satisfying the
invariant, at a node below `n` with no index, given fuel for every node below `n` with no
index. -/
theorem scc_spec (hclosed : ∀ i < n, ∀ j ∈ succ i, j < n) :
    ∀ (fuel v : ℕ) (t : TarjanSCCCalculator), WF succ t → ¬ t.Visited v → v < n →
      unvisitedBelow n t ≤ fuel → ∃ t', scc succ fuel v t = some t' ∧ SccPost succ t v t'
  | 0, v, t, ht, hv, hvn, hfuel => by
    have := unvisitedBelow_push ht hv hvn
    omega
  | fuel + 1, v, t, ht, hv, hvn, hfuel => by
    have hpush : unvisitedBelow n (t.push v) ≤ fuel := by
      have := unvisitedBelow_push ht hv hvn
      omega
    -- every recursive call starts from a state of the loop, which has visited `v`
    obtain ⟨tk, hk, hinv⟩ := foldlM_visitSuccessor ht
      (fun j tk _ hj hinv hjv => scc_spec hclosed fuel j tk hinv.wf hjv (hclosed v hvn j hj)
        ((unvisitedBelow_le fun _ => hinv.visited_of_push ht).trans hpush))
      _ [] (t.push v) (fun j hj => Containers.mem_ascending.1 hj) (LoopInv.push ht hv)
    obtain ⟨t', h', hpost⟩ := hinv.sccPost_finish ht fun w hw => Containers.mem_ascending.2 hw
    exact ⟨t', by rw [scc, hk]; exact h', hpost⟩

/-! ### The loop of `calculateSCCs` -/

/-- A call of `scc` started on an empty stack leaves it empty: its node is a root. -/
theorem SccPost.stack_eq_nil (hc : SccPost succ t v tc) (hnil : t.mStack = []) :
    tc.mStack = [] := by
  by_cases hv : v ∈ tc.mStack
  · -- `v` left open has a low link below its index, yet equal to the index of a node the
    -- call pushed, which is at least that of `v`
    exfalso
    obtain ⟨new, hnew, hopen⟩ := hc.stack
    rw [hnil, List.append_nil] at hnew
    obtain ⟨w, hw, hwl, -⟩ := hc.wf.low_reach v hv
    rw [hnew] at hv hw
    have hle := (hc.fresh w (hc.wf.stack_visited w (hnew ▸ hw)) (hopen w hw).1).1
    rw [← hc.index_self, hwl] at hle
    exact absurd (hopen v hv).2.1 (not_lt.2 hle)
  · rw [(hc.root hv).1, hnil]

/-- What holds between the turns of the loop of `calculateSCCs`, after the nodes below
`k`: the stack is empty, the nodes below `k` are visited, and no node from `n` on is. -/
structure RootsInv (succ : ℕ → Finset ℕ) (n k : ℕ) (t : TarjanSCCCalculator) : Prop where
  wf : WF succ t
  stack_nil : t.mStack = []
  visited_below : ∀ x < k, t.Visited x
  visited_lt : ∀ x, t.Visited x → x < n

theorem RootsInv.initial : RootsInv succ n 0 initial where
  wf :=
    { counter_nonneg := le_rfl
      index_nonneg := fun _ hx => absurd rfl hx
      index_lt := fun _ hx => absurd rfl hx
      onStack_iff := fun _ => ⟨fun h => absurd h Bool.false_ne_true, fun h => absurd h List.not_mem_nil⟩
      stack_visited := fun _ hx => absurd hx List.not_mem_nil
      stack_sorted := List.Pairwise.nil
      low_le := fun _ hx => absurd hx List.not_mem_nil
      low_reach := fun _ hx => absurd hx List.not_mem_nil
      done_closed := fun _ _ hx => absurd rfl hx.1
      component := fun _ hC => absurd hC List.not_mem_nil
      done_iff := fun _ => ⟨fun hx => absurd rfl hx.1, fun ⟨_, hC, _⟩ => absurd hC List.not_mem_nil⟩
      disjoint := List.Pairwise.nil }
  stack_nil := rfl
  visited_below _ hx := absurd hx (Nat.not_lt_zero _)
  visited_lt _ hx := absurd rfl hx

/-- **One turn of the loop of `calculateSCCs`.** -/
theorem visitRoot_spec (hclosed : ∀ i < n, ∀ j ∈ succ i, j < n) {i : ℕ} (hi : i < n)
    (h : RootsInv succ n i t) :
    ∃ t', visitRoot succ n t i = some t' ∧ RootsInv succ n (i + 1) t' := by
  unfold visitRoot
  split_ifs with hfresh
  · have hv : ¬ t.Visited i := not_not.2 hfresh
    have hfuel : unvisitedBelow n t ≤ n :=
      (Finset.card_filter_le _ _).trans (Finset.card_range n).le
    obtain ⟨t', h', hc⟩ := scc_spec hclosed n i t h.wf hv hi hfuel
    refine ⟨t', h', hc.wf, hc.stack_eq_nil h.stack_nil, fun x hx => ?_, fun x hx => ?_⟩
    · rcases Nat.lt_succ_iff_lt_or_eq.1 hx with hx | rfl
      · exact hc.ext.visited (h.visited_below x hx)
      · exact hc.visited_self h.wf
    · -- a node the call visited is reachable from `i`, so below `n`
      by_cases hxt : t.Visited x
      · exact h.visited_lt x hxt
      · exact reflTransGen_closed (fun a b ha hab => hclosed a ha b hab)
          (hc.fresh x hx hxt).2 hi
  · refine ⟨t, rfl, h.wf, h.stack_nil, fun x hx => ?_, h.visited_lt⟩
    rcases Nat.lt_succ_iff_lt_or_eq.1 hx with hx | rfl
    · exact h.visited_below x hx
    · exact hfresh

theorem foldlM_visitRoot (hclosed : ∀ i < n, ∀ j ∈ succ i, j < n) :
    ∀ (k : ℕ) (t : TarjanSCCCalculator) (l : List ℕ), (∀ i ∈ l, i < n) →
      List.range' k l.length = l → RootsInv succ n k t →
      ∃ t', l.foldlM (visitRoot succ n) t = some t' ∧ RootsInv succ n (k + l.length) t'
  | k, t, [], _, _, h => ⟨t, rfl, h⟩
  | k, t, i :: l, hl, hr, h => by
    rw [List.length_cons, List.range'_succ, List.cons.injEq] at hr
    obtain ⟨rfl, hr⟩ := hr
    obtain ⟨t₁, h₁, hinv₁⟩ := visitRoot_spec hclosed (hl k (List.mem_cons_self ..)) h
    obtain ⟨t₂, h₂, hinv₂⟩ := foldlM_visitRoot hclosed (k + 1) t₁ l
      (fun i hi => hl i (List.mem_cons_of_mem _ hi)) hr hinv₁
    refine ⟨t₂, by rw [List.foldlM_cons, h₁]; exact h₂, ?_⟩
    rwa [List.length_cons, ← Nat.add_assoc, Nat.add_right_comm]

/-- **`calculateSCCs` computes the strongly connected components.** For a graph on the
nodes below `n` whose successors stay below `n`, `calculateSCCs` returns. Its components
are exactly the sets of nodes strongly connected to a node below `n`, each listed once,
and every node below `n` is in exactly one of them. -/
theorem calculateSCCs_components (n : ℕ) (succ : ℕ → Finset ℕ)
    (hclosed : ∀ i < n, ∀ j ∈ succ i, j < n) :
    ∃ t, calculateSCCs succ n = some t ∧
      (∀ C, C ∈ t.mSCCs ↔ ∃ x < n, ∀ y, y ∈ C ↔ StronglyConnected (Edge succ) x y) ∧
      (∀ x < n, ∃! C, C ∈ t.mSCCs ∧ x ∈ C) ∧ t.mSCCs.Nodup := by
  obtain ⟨t, ht, hinv⟩ := foldlM_visitRoot hclosed 0 initial (List.range n)
    (fun _ => List.mem_range.1) (by rw [List.length_range, List.range_eq_range'])
    RootsInv.initial
  rw [List.length_range, Nat.zero_add] at hinv
  -- the stack is empty at the end, so every node below `n` is in a component
  have hdone : ∀ x < n, t.Done x := fun x hx =>
    ⟨hinv.visited_below x hx, by rw [hinv.stack_nil]; exact List.not_mem_nil⟩
  -- a component holding `x` is the set of nodes strongly connected to `x`
  have hcomp : ∀ C ∈ t.mSCCs, ∀ x ∈ C, ∀ y, y ∈ C ↔ StronglyConnected (Edge succ) x y := by
    intro C hC x hx y
    obtain ⟨r, -, hCr⟩ := hinv.wf.component C hC
    rw [hCr y, ((hCr x).1 hx).congr_left]
  refine ⟨t, ht, fun C => ⟨fun hC => ?_, fun ⟨x, hx, hCx⟩ => ?_⟩, fun x hx => ?_, ?_⟩
  · obtain ⟨r, hr, hCr⟩ := hinv.wf.component C hC
    exact ⟨r, hinv.visited_lt r ((hinv.wf.done_iff r).2 ⟨C, hC, hr⟩).1, hCr⟩
  · obtain ⟨D, hD, hxD⟩ := (hinv.wf.done_iff x).1 (hdone x hx)
    have hCD : C = D := Finset.ext fun y => (hCx y).trans (hcomp D hD x hxD y).symm
    exact hCD ▸ hD
  · obtain ⟨C, hC, hxC⟩ := (hinv.wf.done_iff x).1 (hdone x hx)
    exact ⟨C, ⟨hC, hxC⟩, fun D ⟨hD, hxD⟩ =>
      Finset.ext fun y => (hcomp D hD x hxD y).trans (hcomp C hC x hxC y).symm⟩
  · -- the components are disjoint, and none is empty
    refine hinv.wf.disjoint.imp_of_mem fun {C D} hC _ hCD hEq => ?_
    obtain ⟨r, hr, -⟩ := hinv.wf.component C hC
    exact Finset.disjoint_left.1 hCD hr (hEq ▸ hr)

end TarjanSCCCalculator

end HcnetCore
