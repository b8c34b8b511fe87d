import Mathlib.Data.List.Nodup
import Mathlib.Data.List.GetD
import HcnetCore.Herder.PaymentLoops
import HcnetCore.Util.TarjanSCCSpec

/-!
# The asset pairs of payment loops

`findAllAssetPairsInvolvedInPaymentLoops(ops)` returns exactly the conversion steps
`a → b` of the path payments of `ops` whose two assets lie in one strongly connected
component, of at least two assets, of the graph of all conversion steps, and each of
them once (`findAllAssetPairs_spec`).

The proof has three layers:

* the interning locals keep an invariant (`AssetGraph.WF`: `numToAsset` lists each
  interned asset once, `assetToNum` is its inverse, the successors of a node are nodes),
  and the graph they build has an edge from the node of `a` to the node of `b` exactly
  when some operation has the conversion step `a → b`
  (`WF.hasEdge_foldl_internOperation`);
* a node of `a` and a node of `b` are strongly connected in the graph of nodes exactly
  when `a` and `b` are in the graph of assets (`WF.stronglyConnected_iff`), by a
  simulation in each direction;
* the loop over the components appends, for each component of more than one node, the
  pairs of the edges inside it (`WF.appendComponentPairs_eq`), and
  `calculateSCCs_components` says which sets the components are.
-/

namespace HcnetCore

namespace Herder

variable {A : Type}

/-- The conversion steps of a path payment: each asset of `sendAsset, path...,
destAsset` with the next one. -/
def conversionSteps (sendAsset destAsset : A) (path : List A) : List (A × A) :=
  (sendAsset :: path ++ [destAsset]).zip (path ++ [destAsset])

theorem conversionSteps_nil (src dst : A) : conversionSteps src dst [] = [(src, dst)] := rfl

theorem conversionSteps_cons (src dst x : A) (path : List A) :
    conversionSteps src dst (x :: path) = (src, x) :: conversionSteps x dst path := rfl

/-- The conversion steps of an operation: those of a path payment, none for the others. -/
def PaymentOperation.steps : PaymentOperation A → List (A × A)
  | .pathPaymentStrictReceive sendAsset destAsset path => conversionSteps sendAsset destAsset path
  | .pathPaymentStrictSend sendAsset destAsset path => conversionSteps sendAsset destAsset path
  | .other => []

/-- Some operation of `ops` converts `a` to `b` in one step. -/
def ConversionStep (ops : List (PaymentOperation A)) (a b : A) : Prop :=
  ∃ op ∈ ops, (a, b) ∈ op.steps

namespace AssetGraph

variable {g : AssetGraph A} {a b src dst : A} {i j : ℕ}

/-- The successors of node `i`: the closure `graph.at(i)` given to `calculateSCCs`. -/
def successors (g : AssetGraph A) (i : ℕ) : Finset ℕ := g.graph.getD i ∅

/-- The invariant of the interning locals. -/
structure WF (g : AssetGraph A) : Prop where
  /-- `numToAsset` lists each interned asset once. -/
  nodup : g.numToAsset.Nodup
  /-- `assetToNum` is the inverse of `numToAsset`. -/
  assetToNum_eq_some : ∀ a i, g.assetToNum a = some i ↔ g.numToAsset[i]? = some a
  graph_length : g.graph.length = g.numToAsset.length
  /-- The successors of a node are nodes. -/
  graph_lt : ∀ i, ∀ j ∈ g.successors i, j < g.numToAsset.length

/-- The graph has an edge from the node of `a` to the node of `b`. -/
def HasEdge (g : AssetGraph A) (a b : A) : Prop :=
  ∃ i j, g.numToAsset[i]? = some a ∧ g.numToAsset[j]? = some b ∧ j ∈ g.successors i

theorem WF.node_inj (h : g.WF) (hi : g.numToAsset[i]? = some a)
    (hj : g.numToAsset[j]? = some a) : i = j :=
  (List.getElem?_inj (List.getElem?_eq_some_iff.1 hi).1 h.nodup).1 (hi.trans hj.symm)

/-- Only a node has successors. -/
theorem lt_of_mem_successors (h : j ∈ g.successors i) : i < g.graph.length := by
  by_contra hi
  rw [successors, List.getD_eq_default _ _ (not_lt.1 hi)] at h
  exact Finset.notMem_empty j h

theorem exists_node (hi : i < g.numToAsset.length) : ∃ a, g.numToAsset[i]? = some a :=
  ⟨_, List.getElem?_eq_getElem hi⟩

theorem wf_empty : (empty : AssetGraph A).WF where
  nodup := List.nodup_nil
  assetToNum_eq_some _ _ := by simp [empty]
  graph_length := rfl
  graph_lt _ _ hj := by simp [successors, empty] at hj

theorem not_hasEdge_empty : ¬ (empty : AssetGraph A).HasEdge a b := by
  rintro ⟨i, j, hi, -, -⟩
  simp [empty] at hi

/-! ### Nodes and edges -/

/-- The nodes of an interned asset keep their asset as the list grows. -/
theorem getElem?_of_prefix {l₁ l₂ : List A} (hp : l₁ <+: l₂) (hi : l₁[i]? = some a) :
    l₂[i]? = some a := by
  obtain ⟨l, rfl⟩ := hp
  rw [List.getElem?_append_left (List.getElem?_eq_some_iff.1 hi).1, hi]

theorem getElem?_of_prefix_of_lt {l₁ l₂ : List A} (hp : l₁ <+: l₂) (hi : i < l₁.length)
    (h : l₂[i]? = some a) : l₁[i]? = some a := by
  obtain ⟨l, rfl⟩ := hp
  rwa [List.getElem?_append_left hi] at h

/-- Adding a successor that is a node keeps the invariant. -/
theorem WF.addEdge (h : g.WF) (hj : j < g.numToAsset.length) :
    ({ g with graph := g.graph.modify i (insert j) } : AssetGraph A).WF where
  nodup := h.nodup
  assetToNum_eq_some := h.assetToNum_eq_some
  graph_length := by simp [h.graph_length]
  graph_lt k l hl := by
    simp only [successors, List.getD_eq_getElem?_getD, List.getElem?_modify] at hl
    rcases hk : g.graph[k]? with _ | s
    · simp [hk] at hl
    · have hs : s = g.successors k := by simp [successors, List.getD_eq_getElem?_getD, hk]
      rw [hk] at hl
      simp only [Option.map_eq_map, Option.map_some, Option.getD_some] at hl
      split_ifs at hl
      · rcases Finset.mem_insert.1 hl with rfl | hl
        · exact hj
        · exact h.graph_lt k l (hs ▸ hl)
      · exact h.graph_lt k l (hs ▸ hl)

theorem successors_modify (hi : i < g.graph.length) (k : ℕ) :
    ({ g with graph := g.graph.modify i (insert j) } : AssetGraph A).successors k =
      if k = i then insert j (g.successors k) else g.successors k := by
  simp only [successors, List.getD_eq_getElem?_getD, List.getElem?_modify]
  by_cases hk : k < g.graph.length
  · rw [List.getElem?_eq_getElem hk]
    by_cases hki : k = i
    · simp [hki]
    · simp [hki, Ne.symm hki]
  · rw [List.getElem?_eq_none (not_lt.1 hk)]
    have hki : k ≠ i := fun e => hk (e ▸ hi)
    simp [hki]

/-! ### Interning -/

section Interning

variable [DecidableEq A]

theorem numToAsset_isPrefix_internAsset (g : AssetGraph A) (a : A) :
    g.numToAsset <+: (g.internAsset a).2.numToAsset := by
  unfold internAsset
  split
  · exact List.prefix_refl _
  · exact List.prefix_append _ _

theorem internAsset_successors (g : AssetGraph A) (a : A) (i : ℕ) :
    (g.internAsset a).2.successors i = g.successors i := by
  unfold internAsset successors
  split
  · rfl
  · -- the new node has no successors, as a node out of range has none
    by_cases hi : i < g.graph.length
    · rw [List.getD_append _ _ _ _ hi]
    · rw [List.getD_append_right _ _ _ _ (not_lt.1 hi), List.getD_eq_default _ _ (not_lt.1 hi)]
      cases i - g.graph.length <;> simp

theorem WF.internAsset (h : g.WF) : (g.internAsset a).2.WF := by
  unfold AssetGraph.internAsset
  split
  · exact h
  · rename_i hnone
    -- `a` had no node, so it is not in `numToAsset`
    have ha : a ∉ g.numToAsset := fun ha => by
      obtain ⟨i, hi⟩ := List.mem_iff_getElem?.1 ha
      rw [(h.assetToNum_eq_some a i).2 hi] at hnone
      cases hnone
    have hnode : ∀ b i, (g.numToAsset ++ [a])[i]? = some b ↔
        g.numToAsset[i]? = some b ∨ (i = g.numToAsset.length ∧ a = b) := by
      intro b i
      rcases lt_trichotomy i g.numToAsset.length with hi | rfl | hi
      · rw [List.getElem?_append_left hi]
        exact ⟨Or.inl, fun h' => h'.resolve_right fun ⟨he, _⟩ => absurd he hi.ne⟩
      · simp
      · rw [List.getElem?_append_right hi.le, List.getElem?_eq_none (by simp; omega)]
        simp [List.getElem?_eq_none hi.le, hi.ne']
    refine ⟨h.nodup.append (List.nodup_singleton a) (List.disjoint_singleton.2 ha),
      fun b i => ?_, by simp [h.graph_length], fun i j hj => ?_⟩
    · show Function.update g.assetToNum a (some g.numToAsset.length) b = some i ↔ _
      rw [hnode, Function.update_apply]
      split_ifs with hb
      · subst hb
        constructor
        · rintro ⟨⟩
          exact Or.inr ⟨rfl, rfl⟩
        · rintro (hi | ⟨rfl, -⟩)
          · exact absurd (List.mem_iff_getElem?.2 ⟨i, hi⟩) ha
          · rfl
      · rw [h.assetToNum_eq_some b i]
        exact ⟨Or.inl, fun h' => h'.resolve_right fun ⟨_, hab⟩ => hb hab.symm⟩
    · have hj' : j ∈ g.successors i := by
        have := internAsset_successors g a i
        unfold AssetGraph.internAsset at this
        rw [hnone] at this
        exact this ▸ hj
      simpa using (h.graph_lt i j hj').trans (Nat.lt_succ_self _)

theorem WF.internAsset_node (h : g.WF) :
    (g.internAsset a).2.numToAsset[(g.internAsset a).1]? = some a := by
  unfold AssetGraph.internAsset
  split
  · rename_i i hi
    exact (h.assetToNum_eq_some a i).1 hi
  · simp

/-- `internEdge(src, dst)` interns `src`, then `dst`, then adds the edge. -/
theorem internEdge_eq (g : AssetGraph A) (src dst : A) :
    g.internEdge src dst =
      { ((g.internAsset src).2.internAsset dst).2 with
        graph := ((g.internAsset src).2.internAsset dst).2.graph.modify (g.internAsset src).1
          (insert ((g.internAsset src).2.internAsset dst).1) } := rfl

/-- **What `internEdge(src, dst)` does**: `src` and `dst` have nodes `si` and `di`
afterwards, the nodes interned before keep their assets, `si` gains the successor `di`,
and the invariant holds. -/
theorem WF.internEdge_spec (h : g.WF) (src dst : A) : (g.internEdge src dst).WF ∧ ∃ si di,
    (g.internEdge src dst).numToAsset[si]? = some src ∧
    (g.internEdge src dst).numToAsset[di]? = some dst ∧
    g.numToAsset <+: (g.internEdge src dst).numToAsset ∧
    ∀ k, (g.internEdge src dst).successors k =
      if k = si then insert di (g.successors k) else g.successors k := by
  have h₁ := h.internAsset (a := src)
  have h₂ := h₁.internAsset (a := dst)
  -- the node of `src` stays the node of `src` when `dst` is interned
  have hsi := getElem?_of_prefix (numToAsset_isPrefix_internAsset _ dst) (h.internAsset_node (a := src))
  have hlt : (g.internAsset src).1 < ((g.internAsset src).2.internAsset dst).2.graph.length := by
    rw [h₂.graph_length]
    exact (List.getElem?_eq_some_iff.1 hsi).1
  rw [internEdge_eq]
  refine ⟨h₂.addEdge (List.getElem?_eq_some_iff.1 h₁.internAsset_node).1, _, _, hsi,
    h₁.internAsset_node, (numToAsset_isPrefix_internAsset g src).trans (numToAsset_isPrefix_internAsset _ dst),
    fun k => ?_⟩
  rw [successors_modify hlt, internAsset_successors, internAsset_successors]

theorem WF.internEdge (h : g.WF) : (g.internEdge src dst).WF := (h.internEdge_spec src dst).1

/-- **The edges after `internEdge(src, dst)`** are those before and the edge from `src` to
`dst`. -/
theorem WF.hasEdge_internEdge (h : g.WF) :
    (g.internEdge src dst).HasEdge a b ↔ g.HasEdge a b ∨ (a = src ∧ b = dst) := by
  obtain ⟨-, si, di, hsi, hdi, hpre, hsucc⟩ := h.internEdge_spec src dst
  -- an edge of the old graph is between old nodes, which keep their assets
  have hold : ∀ i j, j ∈ g.successors i → (g.internEdge src dst).numToAsset[i]? = some a →
      (g.internEdge src dst).numToAsset[j]? = some b → g.HasEdge a b := fun i j hij hia hjb =>
    ⟨i, j, getElem?_of_prefix_of_lt hpre (h.graph_length ▸ lt_of_mem_successors hij) hia,
      getElem?_of_prefix_of_lt hpre (h.graph_lt i j hij) hjb, hij⟩
  constructor
  · rintro ⟨i, j, hia, hjb, hij⟩
    rw [hsucc] at hij
    split_ifs at hij with hisi
    · rcases Finset.mem_insert.1 hij with rfl | hij
      · subst hisi
        exact Or.inr ⟨Option.some.inj (hia.symm.trans hsi), Option.some.inj (hjb.symm.trans hdi)⟩
      · exact Or.inl (hold i j hij hia hjb)
    · exact Or.inl (hold i j hij hia hjb)
  · rintro (⟨i, j, hia, hjb, hij⟩ | ⟨rfl, rfl⟩)
    · refine ⟨i, j, getElem?_of_prefix hpre hia, getElem?_of_prefix hpre hjb, ?_⟩
      rw [hsucc]
      split_ifs
      · exact Finset.mem_insert_of_mem hij
      · exact hij
    · exact ⟨si, di, hsi, hdi, by rw [hsucc, if_pos rfl]; exact Finset.mem_insert_self _ _⟩

theorem internSegment_nil : g.internSegment src dst [] = g.internEdge src dst := rfl

theorem internSegment_cons (x : A) (path : List A) :
    g.internSegment src dst (x :: path) = (g.internEdge src x).internSegment x dst path := rfl

theorem WF.internSegment : ∀ {path : List A} {g : AssetGraph A} {src : A}, g.WF →
    (g.internSegment src dst path).WF
  | [], _, _, h => h.internEdge
  | _ :: _, _, _, h => by
    rw [internSegment_cons]
    exact h.internEdge.internSegment

/-- **The edges after `internSegment(src, dst, path)`** are those before and the
conversion steps of the path payment. -/
theorem WF.hasEdge_internSegment : ∀ {path : List A} {g : AssetGraph A} {src : A}, g.WF →
    ((g.internSegment src dst path).HasEdge a b ↔
      g.HasEdge a b ∨ (a, b) ∈ conversionSteps src dst path)
  | [], _, _, h => by
    rw [internSegment_nil, h.hasEdge_internEdge, conversionSteps_nil, List.mem_singleton,
      Prod.mk.injEq]
  | _ :: _, _, _, h => by
    rw [internSegment_cons, h.internEdge.hasEdge_internSegment, h.hasEdge_internEdge,
      conversionSteps_cons, List.mem_cons, Prod.mk.injEq, or_assoc]

theorem WF.internOperation (h : g.WF) (op : PaymentOperation A) : (g.internOperation op).WF := by
  cases op with
  | pathPaymentStrictReceive => exact h.internSegment
  | pathPaymentStrictSend => exact h.internSegment
  | other => exact h

theorem WF.hasEdge_internOperation (h : g.WF) (op : PaymentOperation A) :
    (g.internOperation op).HasEdge a b ↔ g.HasEdge a b ∨ (a, b) ∈ op.steps := by
  cases op with
  | pathPaymentStrictReceive => exact h.hasEdge_internSegment
  | pathPaymentStrictSend => exact h.hasEdge_internSegment
  | other => exact (or_iff_left List.not_mem_nil).symm

theorem WF.foldl_internOperation : ∀ {ops : List (PaymentOperation A)} {g : AssetGraph A},
    g.WF → (ops.foldl AssetGraph.internOperation g).WF
  | [], _, h => h
  | op :: _, _, h => (h.internOperation op).foldl_internOperation

/-- **The graph of the loop over the operations** has, besides the edges it started with,
an edge for each conversion step of the operations. -/
theorem WF.hasEdge_foldl_internOperation : ∀ {ops : List (PaymentOperation A)}
    {g : AssetGraph A}, g.WF →
    ((ops.foldl AssetGraph.internOperation g).HasEdge a b ↔
      g.HasEdge a b ∨ ConversionStep ops a b)
  | [], _, _ => (or_iff_left fun ⟨_, hop, _⟩ => List.not_mem_nil hop).symm
  | op :: _, _, h => by
    rw [List.foldl_cons, (h.internOperation op).hasEdge_foldl_internOperation,
      h.hasEdge_internOperation, or_assoc]
    simp only [ConversionStep, List.mem_cons, or_and_right, exists_or, exists_eq_left]

end Interning

/-! ### The graph of nodes and the graph of assets -/

/-- A run of edges from a node of `a` ends at a node of an asset that `a` reaches. -/
theorem WF.exists_asset_of_reach (h : g.WF)
    (hr : Relation.ReflTransGen (TarjanSCCCalculator.Edge g.successors) i j)
    (hi : g.numToAsset[i]? = some a) :
    ∃ b, g.numToAsset[j]? = some b ∧ Relation.ReflTransGen g.HasEdge a b :=
  reflTransGen_simulation (R := fun k c => g.numToAsset[k]? = some c)
    (fun k k' c hk hkk' => by
      obtain ⟨c', hc'⟩ := exists_node (h.graph_lt k k' hkk')
      exact ⟨c', hc', k, k', hk, hc', hkk'⟩) hr hi

/-- A run of edges from `a` ends at an asset with a node that the node of `a` reaches. -/
theorem WF.exists_node_of_reach (h : g.WF) (hr : Relation.ReflTransGen g.HasEdge a b)
    (hi : g.numToAsset[i]? = some a) :
    ∃ j, g.numToAsset[j]? = some b ∧
      Relation.ReflTransGen (TarjanSCCCalculator.Edge g.successors) i j :=
  reflTransGen_simulation (R := fun c k => g.numToAsset[k]? = some c)
    (fun c c' k hk ⟨k₀, k₁, h₀, h₁, hk₁⟩ => ⟨k₁, h₁, by rw [h.node_inj hk h₀]; exact hk₁⟩) hr hi

theorem WF.reach_iff (h : g.WF) (hi : g.numToAsset[i]? = some a)
    (hj : g.numToAsset[j]? = some b) :
    Relation.ReflTransGen (TarjanSCCCalculator.Edge g.successors) i j ↔
      Relation.ReflTransGen g.HasEdge a b := by
  constructor
  · intro hr
    obtain ⟨b', hb', hr'⟩ := h.exists_asset_of_reach hr hi
    rwa [Option.some.inj (hb'.symm.trans hj)] at hr'
  · intro hr
    obtain ⟨j', hj', hr'⟩ := h.exists_node_of_reach hr hi
    rwa [h.node_inj hj' hj] at hr'

/-- **Nodes are strongly connected exactly when their assets are.** -/
theorem WF.stronglyConnected_iff (h : g.WF) (hi : g.numToAsset[i]? = some a)
    (hj : g.numToAsset[j]? = some b) :
    StronglyConnected (TarjanSCCCalculator.Edge g.successors) i j ↔
      StronglyConnected g.HasEdge a b :=
  and_congr (h.reach_iff hi hj) (h.reach_iff hj hi)

/-! ### The loop over the components -/

/-- The pairs that the loop body appends for the component `scc`. -/
def componentPairs (g : AssetGraph A) (scc : Finset ℕ) : List (AssetPair A) :=
  if scc.card > 1 then
    (Containers.ascending scc).flatMap fun src =>
      (Containers.ascending (g.successors src ∩ scc)).flatMap fun dst =>
        (g.assetPair src dst).toList
  else []

theorem assetPair_eq_some {p : AssetPair A} : g.assetPair src' dst' = some p ↔
    g.numToAsset[src']? = some p.buying ∧ g.numToAsset[dst']? = some p.selling := by
  obtain ⟨c, d⟩ := p
  unfold assetPair
  cases g.numToAsset[src']? <;> cases g.numToAsset[dst']? <;> simp

theorem mem_componentPairs {scc : Finset ℕ} {p : AssetPair A} :
    p ∈ g.componentPairs scc ↔ scc.card > 1 ∧
      ∃ src ∈ scc, ∃ dst ∈ g.successors src, dst ∈ scc ∧ g.assetPair src dst = some p := by
  unfold componentPairs
  split_ifs with hcard
  · simp only [List.mem_flatMap, Containers.mem_ascending, Finset.mem_inter, Option.mem_toList]
    tauto
  · simp [hcard]

/-- **The loop body at a component** appends its pairs, all of its nodes being nodes of
the graph. -/
theorem WF.appendComponentPairs_eq (h : g.WF) {scc : Finset ℕ}
    (hscc : ∀ i ∈ scc, i < g.numToAsset.length) (ret : List (AssetPair A)) :
    g.appendComponentPairs ret scc = some (ret ++ g.componentPairs scc) := by
  unfold appendComponentPairs componentPairs
  split_ifs with hcard
  · refine Containers.foldlM_append_eq_some (fun src hsrc ret => ?_) ret
    have hs := hscc src (Containers.mem_ascending.1 hsrc)
    have hget : g.graph[src]? = some (g.successors src) := by
      rw [successors, List.getD_eq_getElem?_getD,
        List.getElem?_eq_getElem (h.graph_length ▸ hs)]
      rfl
    rw [hget, Option.bind_eq_bind, Option.bind_some]
    refine Containers.foldlM_append_eq_some (fun dst hdst ret => ?_) ret
    have hd := hscc dst (Finset.mem_inter.1 (Containers.mem_ascending.1 hdst)).2
    obtain ⟨b, hb⟩ := exists_node hd
    obtain ⟨a, ha⟩ := exists_node hs
    rw [(assetPair_eq_some (p := ⟨a, b⟩)).2 ⟨ha, hb⟩]
    rfl
  · simp

theorem WF.nodup_componentPairs (h : g.WF) (scc : Finset ℕ) : (g.componentPairs scc).Nodup := by
  unfold componentPairs
  split_ifs
  · refine Containers.nodup_flatMap_of_unique (Containers.nodup_ascending _)
      (fun src _ => ?_) ?_
    · refine Containers.nodup_flatMap_of_unique (Containers.nodup_ascending _)
        (fun dst _ => ?_) ?_
      · cases g.assetPair src dst <;> simp
      · -- two pairs from `src` with one target asset have one target node
        intro d₁ _ d₂ _ p hp₁ hp₂
        rw [Option.mem_toList, assetPair_eq_some] at hp₁ hp₂
        exact h.node_inj hp₁.2 hp₂.2
    · intro s₁ _ s₂ _ p hp₁ hp₂
      simp only [List.mem_flatMap, Option.mem_toList, assetPair_eq_some] at hp₁ hp₂
      obtain ⟨_, _, hp₁⟩ := hp₁
      obtain ⟨_, _, hp₂⟩ := hp₂
      exact h.node_inj hp₁.1 hp₂.1
  · exact List.nodup_nil

end AssetGraph

open AssetGraph in
/-- **The asset pairs of payment loops.** `findAllAssetPairsInvolvedInPaymentLoops`
returns, each once, exactly the pairs `(a, b)` of a conversion step `a → b` of the
operations such that `a` and `b` lie in one strongly connected component of the graph of
all conversion steps, and that component holds an asset other than `a`. -/
theorem findAllAssetPairs_spec [DecidableEq A] (ops : List (PaymentOperation A)) :
    ∃ ret, findAllAssetPairsInvolvedInPaymentLoops ops = some ret ∧ ret.Nodup ∧
      ∀ a b, ⟨a, b⟩ ∈ ret ↔ ConversionStep ops a b ∧
        StronglyConnected (ConversionStep ops) a b ∧
        ∃ c, StronglyConnected (ConversionStep ops) a c ∧ c ≠ a := by
  set g := ops.foldl AssetGraph.internOperation AssetGraph.empty with hg
  have hwf : g.WF := wf_empty.foldl_internOperation
  -- the edges of the graph are the conversion steps
  have hrel : g.HasEdge = ConversionStep ops := by
    funext a b
    rw [hg, wf_empty.hasEdge_foldl_internOperation, eq_iff_iff]
    exact or_iff_right not_hasEdge_empty
  rw [← hrel]
  have hclosed : ∀ i < g.graph.length, ∀ j ∈ g.successors i, j < g.graph.length :=
    fun i _ j hj => hwf.graph_length ▸ hwf.graph_lt i j hj
  obtain ⟨t, ht, hcomp, huniq, hnodup⟩ :=
    TarjanSCCCalculator.calculateSCCs_components g.graph.length g.successors hclosed
  -- the members of a component are nodes
  have hnode : ∀ C ∈ t.mSCCs, ∀ i ∈ C, i < g.numToAsset.length := by
    intro C hC i hi
    obtain ⟨x, hx, hCx⟩ := (hcomp C).1 hC
    rw [← hwf.graph_length]
    exact reflTransGen_closed (fun a b ha hab => hclosed a ha b hab) ((hCx i).1 hi).1 hx
  -- two nodes of a component are strongly connected
  have hsc : ∀ C ∈ t.mSCCs, ∀ i ∈ C, ∀ j ∈ C,
      StronglyConnected (TarjanSCCCalculator.Edge g.successors) i j := by
    intro C hC i hi j hj
    obtain ⟨x, -, hCx⟩ := (hcomp C).1 hC
    exact ((hCx i).1 hi).symm.trans ((hCx j).1 hj)
  refine ⟨t.mSCCs.flatMap g.componentPairs, ?_, ?_, fun a b => ⟨?_, ?_⟩⟩
  · show TarjanSCCCalculator.calculateSCCs g.successors g.graph.length >>= _ = _
    rw [ht, Option.bind_eq_bind, Option.bind_some,
      Containers.foldlM_append_eq_some (fun C hC ret => hwf.appendComponentPairs_eq (hnode C hC) ret),
      List.nil_append]
  · -- a pair names its source node, which is in one component only
    refine Containers.nodup_flatMap_of_unique hnodup (fun C _ => hwf.nodup_componentPairs C) ?_
    intro C hC D hD p hpC hpD
    obtain ⟨-, s₁, hs₁, _, -, -, hp₁⟩ := mem_componentPairs.1 hpC
    obtain ⟨-, s₂, hs₂, _, -, -, hp₂⟩ := mem_componentPairs.1 hpD
    have hs : s₁ = s₂ := hwf.node_inj (assetPair_eq_some.1 hp₁).1 (assetPair_eq_some.1 hp₂).1
    subst hs
    exact (huniq s₁ (hwf.graph_length ▸ hnode C hC s₁ hs₁)).unique ⟨hC, hs₁⟩ ⟨hD, hs₂⟩
  · intro hab
    obtain ⟨C, hC, hp⟩ := List.mem_flatMap.1 hab
    obtain ⟨hcard, src, hsrc, dst, hedge, hdst, hp⟩ := mem_componentPairs.1 hp
    obtain ⟨hs, hd⟩ := assetPair_eq_some.1 hp
    -- another node of the component gives another asset
    obtain ⟨k, hk, hks⟩ := Finset.exists_mem_ne hcard src
    obtain ⟨c, hc⟩ := exists_node (hnode C hC k hk)
    refine ⟨⟨src, dst, hs, hd, hedge⟩, (hwf.stronglyConnected_iff hs hd).1 (hsc C hC src hsrc dst hdst),
      c, (hwf.stronglyConnected_iff hs hc).1 (hsc C hC src hsrc k hk), fun hca => ?_⟩
    rw [hca] at hc
    exact hks (hwf.node_inj hc hs)
  · rintro ⟨⟨src, dst, hs, hd, hedge⟩, hab, c, hac, hca⟩
    have hsrc : src < g.graph.length := lt_of_mem_successors hedge
    obtain ⟨C, ⟨hC, hsrcC⟩, -⟩ := huniq src hsrc
    obtain ⟨x, -, hCx⟩ := (hcomp C).1 hC
    -- a node strongly connected to `src` is in its component
    have hmem : ∀ k, StronglyConnected (TarjanSCCCalculator.Edge g.successors) src k → k ∈ C :=
      fun k hk => (hCx k).2 (((hCx src).1 hsrcC).trans hk)
    obtain ⟨k, hk, -⟩ := hwf.exists_node_of_reach hac.1 hs
    have hkC := hmem k ((hwf.stronglyConnected_iff hs hk).2 hac)
    have hcard : C.card > 1 := Finset.one_lt_card.2 ⟨src, hsrcC, k, hkC, fun e => hca (by
      subst e
      exact Option.some.inj (hk.symm.trans hs))⟩
    exact List.mem_flatMap.2 ⟨C, hC, mem_componentPairs.2 ⟨hcard, src, hsrcC, dst, hedge,
      hmem dst ((hwf.stronglyConnected_iff hs hd).2 hab), assetPair_eq_some.2 ⟨hs, hd⟩⟩⟩

/-- **Tarjan's components and the pairs of payment loops.** `calculateSCCs` returns, for
every graph on the nodes below `n` whose successors stay below `n`, exactly the strongly
connected components of the graph, each once, with every node in exactly one; and
`findAllAssetPairsInvolvedInPaymentLoops` returns, each once, exactly the conversion steps
`a → b` of the operations whose assets lie in one component, of the graph of all
conversion steps, that holds an asset other than `a`. -/
theorem paymentLoops_correct :
    (∀ (n : ℕ) (succ : ℕ → Finset ℕ), (∀ i < n, ∀ j ∈ succ i, j < n) →
      ∃ t, TarjanSCCCalculator.calculateSCCs succ n = some t ∧
        (∀ C, C ∈ t.mSCCs ↔ ∃ x < n, ∀ y, y ∈ C ↔
          StronglyConnected (TarjanSCCCalculator.Edge succ) x y) ∧
        (∀ x < n, ∃! C, C ∈ t.mSCCs ∧ x ∈ C) ∧ t.mSCCs.Nodup) ∧
    (∀ {A : Type} [DecidableEq A] (ops : List (PaymentOperation A)),
      ∃ ret, findAllAssetPairsInvolvedInPaymentLoops ops = some ret ∧ ret.Nodup ∧
        ∀ a b, ⟨a, b⟩ ∈ ret ↔ ConversionStep ops a b ∧
          StronglyConnected (ConversionStep ops) a b ∧
          ∃ c, StronglyConnected (ConversionStep ops) a c ∧ c ≠ a) :=
  ⟨TarjanSCCCalculator.calculateSCCs_components, fun ops => findAllAssetPairs_spec ops⟩

/-- The graph `0 ⇄ 1`, `2 → 0` keeps its successors below `3`, so `calculateSCCs` returns
its components, `{0, 1}` and `{2}`, each once. -/
theorem paymentLoops_correct_two_components :
    (∀ i < 3, ∀ j ∈ (fun i : ℕ => if i < 2 then ({1 - i} : Finset ℕ) else {0}) i, j < 3) ∧
      ∃ t, TarjanSCCCalculator.calculateSCCs
          (fun i : ℕ => if i < 2 then ({1 - i} : Finset ℕ) else {0}) 3 = some t ∧
        (∀ C, C ∈ t.mSCCs ↔ ∃ x < 3, ∀ y, y ∈ C ↔ StronglyConnected
          (TarjanSCCCalculator.Edge fun i : ℕ => if i < 2 then ({1 - i} : Finset ℕ) else {0}) x y) ∧
        (∀ x < 3, ∃! C, C ∈ t.mSCCs ∧ x ∈ C) ∧ t.mSCCs.Nodup := by
  have hrange : ∀ i < 3, ∀ j ∈ (fun i : ℕ => if i < 2 then ({1 - i} : Finset ℕ) else {0}) i,
      j < 3 := by decide
  exact ⟨hrange, paymentLoops_correct.1 3 _ hrange⟩

end Herder

end HcnetCore
