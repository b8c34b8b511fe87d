import Mathlib.Data.Finset.Lattice.Lemmas
import Mathlib.Data.Finset.Disjoint
import HcnetCore.Util.TarjanSCC
import HcnetCore.Systems.Components

/-!
# The invariant of Tarjan's algorithm

The correctness argument for `TarjanSCCCalculator` is compositional, following the
recursion of `scc`:

* `WF` is what holds between any two calls: index bounds, the stack is the set of nodes
  with `mOnStack`, sorted by index, and the low link of a node on the stack is the index
  of a stack node it reaches; nodes already in a component reach only such nodes, and
  every component in `mSCCs` is exactly the set of nodes strongly connected to one of its
  members.
* `Extends t t'` is what a call changes: records of nodes visited before stay as they
  are, components are only appended, the index counter only grows.
* `LoopInv t v seen t'` holds in the loop of `scc(v)` started from `t`, after the
  successors `seen`: the nodes pushed since are fresh, not roots, and every edge out of
  them or out of `v` to a seen successor is `Settled` at the low link of `v`: it enters a
  finished component, or a stack node whose index is at least that low link.
* `SccPost t v t'` is the postcondition of `scc(v)` from `t`.

The heart of the proof is `LoopInv.sccPost_finish`: at the end of the loop, if the low link of
`v` is its index, the nodes above `v` and `v` itself are exactly the component of `v`
(`LoopInv.mem_component_iff`). Everything reachable from them is above `v` or finished
(`LoopInv.closed`), and each of them reaches `v` by strong induction on the index: a
non-root reaches a stack node of smaller index (`LoopInv.reach_root`).
-/

namespace HcnetCore

namespace TarjanSCCCalculator

/-- The graph that `getNodeSuccessors` describes: an edge from `x` to each successor. -/
def Edge (succ : ℕ → Finset ℕ) (x y : ℕ) : Prop := y ∈ succ x

/-- Node `x` has an index: `scc(x)` has started. -/
def Visited (t : TarjanSCCCalculator) (x : ℕ) : Prop := (t.mNodes x).mIndex ≠ -1

/-- Node `x` is in a finished component: visited and off the stack. -/
def Done (t : TarjanSCCCalculator) (x : ℕ) : Prop := t.Visited x ∧ x ∉ t.mStack

variable {succ : ℕ → Finset ℕ} {t t' t'' tk tc : TarjanSCCCalculator} {v w x y j : ℕ}
  {l m : ℤ}

/-! ### Updates of the state -/

section Updates

theorem setLowLink_mNodes :
    (t.setLowLink v l).mNodes = Function.update t.mNodes v { t.mNodes v with mLowLink := l } :=
  rfl

@[simp] theorem setLowLink_mStack : (t.setLowLink v l).mStack = t.mStack := rfl

@[simp] theorem setLowLink_mIndex : (t.setLowLink v l).mIndex = t.mIndex := rfl

@[simp] theorem setLowLink_mSCCs : (t.setLowLink v l).mSCCs = t.mSCCs := rfl

@[simp] theorem setLowLink_index : ((t.setLowLink v l).mNodes x).mIndex = (t.mNodes x).mIndex := by
  rw [setLowLink_mNodes, Function.update_apply]
  split_ifs with h
  · rw [h]
  · rfl

@[simp] theorem setLowLink_onStack :
    ((t.setLowLink v l).mNodes x).mOnStack = (t.mNodes x).mOnStack := by
  rw [setLowLink_mNodes, Function.update_apply]
  split_ifs with h
  · rw [h]
  · rfl

theorem setLowLink_lowLink :
    ((t.setLowLink v l).mNodes x).mLowLink = if x = v then l else (t.mNodes x).mLowLink := by
  rw [setLowLink_mNodes, Function.update_apply]
  split_ifs <;> rfl

@[simp] theorem setLowLink_lowLink_self : ((t.setLowLink v l).mNodes v).mLowLink = l := by
  rw [setLowLink_lowLink, if_pos rfl]

theorem setLowLink_lowLink_of_ne (h : x ≠ v) :
    ((t.setLowLink v l).mNodes x).mLowLink = (t.mNodes x).mLowLink := by
  rw [setLowLink_lowLink, if_neg h]

@[simp] theorem setLowLink_visited : (t.setLowLink v l).Visited x ↔ t.Visited x := by
  simp [Visited]

@[simp] theorem setLowLink_done : (t.setLowLink v l).Done x ↔ t.Done x := by
  simp [Done]

@[simp] theorem push_mStack : (t.push v).mStack = v :: t.mStack := rfl

@[simp] theorem push_mIndex : (t.push v).mIndex = t.mIndex + 1 := rfl

@[simp] theorem push_mSCCs : (t.push v).mSCCs = t.mSCCs := rfl

@[simp] theorem push_self : (t.push v).mNodes v = ⟨t.mIndex, t.mIndex, true⟩ :=
  Function.update_self ..

theorem push_of_ne (h : x ≠ v) : (t.push v).mNodes x = t.mNodes x :=
  Function.update_of_ne h ..

end Updates

/-! ### The invariant between calls -/

/-- What holds of the calculator between any two calls of `scc`. -/
structure WF (succ : ℕ → Finset ℕ) (t : TarjanSCCCalculator) : Prop where
  counter_nonneg : 0 ≤ t.mIndex
  index_nonneg : ∀ x, t.Visited x → 0 ≤ (t.mNodes x).mIndex
  index_lt : ∀ x, t.Visited x → (t.mNodes x).mIndex < t.mIndex
  onStack_iff : ∀ x, (t.mNodes x).mOnStack = true ↔ x ∈ t.mStack
  stack_visited : ∀ x ∈ t.mStack, t.Visited x
  /-- The stack is sorted by index, the latest pushed first. -/
  stack_sorted : t.mStack.Pairwise fun x y => (t.mNodes y).mIndex < (t.mNodes x).mIndex
  low_le : ∀ x ∈ t.mStack, (t.mNodes x).mLowLink ≤ (t.mNodes x).mIndex
  /-- The low link of a stack node is the index of a stack node it reaches. -/
  low_reach : ∀ x ∈ t.mStack, ∃ w ∈ t.mStack,
    (t.mNodes w).mIndex = (t.mNodes x).mLowLink ∧ Relation.ReflTransGen (Edge succ) x w
  done_closed : ∀ x y, t.Done x → Edge succ x y → t.Done y
  /-- Every component found is the set of nodes strongly connected to one of its members. -/
  component : ∀ C ∈ t.mSCCs, ∃ r ∈ C, ∀ y, y ∈ C ↔ StronglyConnected (Edge succ) r y
  done_iff : ∀ x, t.Done x ↔ ∃ C ∈ t.mSCCs, x ∈ C
  disjoint : t.mSCCs.Pairwise Disjoint

theorem WF.stack_nodup (h : WF succ t) : t.mStack.Nodup :=
  h.stack_sorted.imp fun hlt heq => (heq ▸ hlt).false

/-- Lowering the low link of a stack node `v` to the index of a stack node it reaches,
or not at all, keeps the invariant. -/
theorem WF.setLowLink_min (h : WF succ t) (hv : v ∈ t.mStack)
    (hm : (t.mNodes v).mLowLink ≤ m ∨ ∃ w ∈ t.mStack, (t.mNodes w).mIndex = m ∧
      Relation.ReflTransGen (Edge succ) v w) :
    WF succ (t.setLowLink v (min (t.mNodes v).mLowLink m)) := by
  have hlow : ∀ x ∈ t.mStack, ((t.setLowLink v (min (t.mNodes v).mLowLink m)).mNodes x).mLowLink
      ≤ (t.mNodes x).mLowLink := by
    intro x _
    rw [setLowLink_lowLink]
    split_ifs with hx
    · rw [hx]; exact min_le_left _ _
    · exact le_rfl
  refine
    { counter_nonneg := h.counter_nonneg
      index_nonneg := by simpa using h.index_nonneg
      index_lt := by simpa using h.index_lt
      onStack_iff := by simpa using h.onStack_iff
      stack_visited := by simpa using h.stack_visited
      stack_sorted := by simpa using h.stack_sorted
      low_le := fun x hx => by
        simpa using (hlow x hx).trans (h.low_le x hx)
      low_reach := ?_
      done_closed := by simpa using h.done_closed
      component := h.component
      done_iff := by simpa using h.done_iff
      disjoint := h.disjoint }
  intro x hx
  rw [setLowLink_lowLink]
  split_ifs with hxv
  · -- the new low link of `v`: the old one, or `m`
    subst hxv
    rcases hm with hm | ⟨w, hw, hwm, hr⟩
    · rw [min_eq_left hm]
      simpa using h.low_reach x hx
    · rcases min_choice (t.mNodes x).mLowLink m with hmin | hmin
      · rw [hmin]; simpa using h.low_reach x hx
      · rw [hmin]; exact ⟨w, hw, by rw [setLowLink_index, hwm], hr⟩
  · simpa using h.low_reach x hx

/-! ### What a call changes -/

/-- What a call of `scc` changes from `t` to `t'`: the records of nodes visited in `t`
stay, components are appended, the index counter grows. -/
structure Extends (t t' : TarjanSCCCalculator) : Prop where
  nodes : ∀ x, t.Visited x → t'.mNodes x = t.mNodes x
  sccs : ∃ more, t'.mSCCs = t.mSCCs ++ more
  counter_le : t.mIndex ≤ t'.mIndex

namespace Extends

theorem visited (h : Extends t t') (hx : t.Visited x) : t'.Visited x := by
  unfold Visited
  rw [h.nodes x hx]
  exact hx

theorem refl (t : TarjanSCCCalculator) : Extends t t :=
  ⟨fun _ _ => rfl, ⟨[], (List.append_nil _).symm⟩, le_rfl⟩

theorem trans (h : Extends t t') (h' : Extends t' t'') : Extends t t'' where
  nodes x hx := (h'.nodes x (h.visited hx)).trans (h.nodes x hx)
  sccs := by
    obtain ⟨more, hmore⟩ := h.sccs
    obtain ⟨more', hmore'⟩ := h'.sccs
    exact ⟨more ++ more', by rw [hmore', hmore, List.append_assoc]⟩
  counter_le := h.counter_le.trans h'.counter_le

/-- A finished component stays finished. -/
theorem done (h : Extends t t') (hwf : WF succ t) (hwf' : WF succ t') (hx : t.Done x) :
    t'.Done x := by
  obtain ⟨C, hC, hxC⟩ := (hwf.done_iff x).1 hx
  obtain ⟨more, hmore⟩ := h.sccs
  exact (hwf'.done_iff x).2 ⟨C, by rw [hmore]; exact List.mem_append_left _ hC, hxC⟩

/-- Changing the record of a node not visited in `t` keeps the relation. -/
theorem setLowLink (h : Extends t t') (hv : ¬ t.Visited v) :
    Extends t (t'.setLowLink v l) where
  nodes x hx := by
    have hxv : x ≠ v := fun hxv => hv (hxv ▸ hx)
    rw [setLowLink_mNodes, Function.update_of_ne hxv]
    exact h.nodes x hx
  sccs := h.sccs
  counter_le := h.counter_le

theorem push (hv : ¬ t.Visited v) : Extends t (t.push v) where
  nodes _ hx := push_of_ne fun hxv => hv (hxv ▸ hx)
  sccs := ⟨[], (List.append_nil _).symm⟩
  counter_le := Int.le_add_one le_rfl

end Extends

/-! ### Settled edges and the open nodes above a call -/

/-- An edge into `w`, seen from a component still open with low link `l`: `w` is in a
finished component, or on the stack with an index at least `l`. -/
def Settled (t : TarjanSCCCalculator) (l : ℤ) (w : ℕ) : Prop :=
  t.Done w ∨ (w ∈ t.mStack ∧ l ≤ (t.mNodes w).mIndex)

namespace Settled

theorem mono (h : t.Settled l w) (hl : m ≤ l) : t.Settled m w :=
  h.imp_right fun h => ⟨h.1, hl.trans h.2⟩

theorem setLowLink (h : t.Settled l w) : (t.setLowLink v m).Settled l w := by
  simpa [Settled] using h

/-- A call that keeps the stack of `t` below its own keeps an edge settled. -/
theorem extend (h : t.Settled l w) (hext : Extends t t') (hwf : WF succ t) (hwf' : WF succ t')
    (hstack : ∃ new, t'.mStack = new ++ t.mStack) : t'.Settled l w := by
  rcases h with hd | ⟨hs, hl⟩
  · exact Or.inl (hext.done hwf hwf' hd)
  · obtain ⟨new, hnew⟩ := hstack
    right
    rw [hnew, hext.nodes w (hwf.stack_visited w hs)]
    exact ⟨List.mem_append_right _ hs, hl⟩

end Settled

/-- The nodes `new` that a call started from `t` pushed and left on the stack of `t'`:
none was visited in `t`, none is a root, and every edge out of them is settled at `l`. -/
def OpenAbove (succ : ℕ → Finset ℕ) (t : TarjanSCCCalculator) (l : ℤ)
    (t' : TarjanSCCCalculator) (new : List ℕ) : Prop :=
  ∀ x ∈ new, ¬ t.Visited x ∧ (t'.mNodes x).mLowLink < (t'.mNodes x).mIndex ∧
    ∀ w, Edge succ x w → t'.Settled l w

namespace OpenAbove

variable {new new' : List ℕ}

theorem mono (h : OpenAbove succ t l t' new) (hl : m ≤ l) : OpenAbove succ t m t' new :=
  fun x hx => ⟨(h x hx).1, (h x hx).2.1, fun w hw => ((h x hx).2.2 w hw).mono hl⟩

theorem append (h : OpenAbove succ t l t' new) (h' : OpenAbove succ t l t' new') :
    OpenAbove succ t l t' (new ++ new') := by
  intro x hx
  rcases List.mem_append.1 hx with hx | hx
  · exact h x hx
  · exact h' x hx

/-- Open nodes of a call from `t'` are open nodes of a call from any earlier `t`. -/
theorem of_extends (h : OpenAbove succ t' l t'' new) (hext : Extends t t') :
    OpenAbove succ t l t'' new :=
  fun x hx => ⟨fun hv => (h x hx).1 (hext.visited hv), (h x hx).2⟩

theorem setLowLink (h : OpenAbove succ t l t' new) (hv : v ∉ new) :
    OpenAbove succ t l (t'.setLowLink v m) new := by
  intro x hx
  have hxv : x ≠ v := fun hxv => hv (hxv ▸ hx)
  rw [setLowLink_lowLink_of_ne hxv, setLowLink_index]
  exact ⟨(h x hx).1, (h x hx).2.1, fun w hw => ((h x hx).2.2 w hw).setLowLink⟩

/-- A later call that keeps the stack below its own keeps the open nodes open. -/
theorem extend (h : OpenAbove succ t l t' new) (hnew : ∀ x ∈ new, x ∈ t'.mStack)
    (hext : Extends t' t'') (hwf : WF succ t') (hwf' : WF succ t'')
    (hstack : ∃ new, t''.mStack = new ++ t'.mStack) : OpenAbove succ t l t'' new := by
  intro x hx
  rw [hext.nodes x (hwf.stack_visited x (hnew x hx))]
  exact ⟨(h x hx).1, (h x hx).2.1,
    fun w hw => ((h x hx).2.2 w hw).extend hext hwf hwf' hstack⟩

end OpenAbove

/-! ### The pop loop -/

/-- The records after the pop loop took the nodes of `l` off the stack. -/
def offStack (l : List ℕ) (nodes : ℕ → SCCNode) (x : ℕ) : SCCNode :=
  if x ∈ l then { nodes x with mOnStack := false } else nodes x

@[simp] theorem offStack_index (l : List ℕ) (nodes : ℕ → SCCNode) (x : ℕ) :
    (offStack l nodes x).mIndex = (nodes x).mIndex := by
  unfold offStack
  split_ifs <;> rfl

@[simp] theorem offStack_lowLink (l : List ℕ) (nodes : ℕ → SCCNode) (x : ℕ) :
    (offStack l nodes x).mLowLink = (nodes x).mLowLink := by
  unfold offStack
  split_ifs <;> rfl

theorem offStack_of_not_mem {l : List ℕ} {nodes : ℕ → SCCNode} (hx : x ∉ l) :
    offStack l nodes x = nodes x := if_neg hx

/-- The pop loop at `v` on the stack `new ++ v :: S` pops `new` and `v` into the
component, and leaves `S`. -/
theorem popSCC_eq {S : List ℕ} : ∀ {new : List ℕ} {nodes : ℕ → SCCNode} {acc : Finset ℕ},
    v ∉ new → popSCC v (new ++ v :: S) nodes acc =
      some (S, offStack (v :: new) nodes, insert v (new.toFinset ∪ acc))
  | [], nodes, acc, _ => by
    rw [List.nil_append, popSCC, if_neg (not_not.2 rfl)]
    congr 3
    · funext x
      rw [Function.update_apply, offStack]
      split_ifs with h₁ h₂ h₂
      · rw [h₁]
      · exact absurd (List.mem_singleton.2 h₁) h₂
      · exact absurd (List.mem_singleton.1 h₂) h₁
      · rfl
    · rw [List.toFinset_nil, Finset.empty_union]
  | j :: new, nodes, acc, hv => by
    have hjv : j ≠ v := fun h => hv (h ▸ List.mem_cons_self ..)
    rw [List.cons_append, popSCC, if_pos hjv, popSCC_eq (fun h => hv (List.mem_cons_of_mem j h))]
    congr 3
    · funext x
      simp only [offStack, Function.update_apply, List.mem_cons]
      by_cases hxj : x = j
      · subst hxj
        simp [hjv]
      · simp [hxj]
    · ext x
      simp only [Finset.mem_insert, Finset.mem_union, List.mem_toFinset, List.mem_cons]
      tauto

/-- The calculator after the pop at the root `v` took `v` and the nodes `new` above it
off the stack `new ++ v :: S`. -/
def popped (t : TarjanSCCCalculator) (v : ℕ) (new S : List ℕ) : TarjanSCCCalculator :=
  { t with
    mStack := S
    mNodes := offStack (v :: new) t.mNodes
    mSCCs := t.mSCCs ++ [insert v (new.toFinset ∪ {v})] }

section Popped

variable {new S : List ℕ}

theorem popped_mNodes : (popped t v new S).mNodes = offStack (v :: new) t.mNodes := rfl

@[simp] theorem popped_mStack : (popped t v new S).mStack = S := rfl

@[simp] theorem popped_mIndex : (popped t v new S).mIndex = t.mIndex := rfl

@[simp] theorem popped_mSCCs :
    (popped t v new S).mSCCs = t.mSCCs ++ [insert v (new.toFinset ∪ {v})] := rfl

@[simp] theorem popped_index : ((popped t v new S).mNodes x).mIndex = (t.mNodes x).mIndex :=
  offStack_index ..

@[simp] theorem popped_lowLink :
    ((popped t v new S).mNodes x).mLowLink = (t.mNodes x).mLowLink :=
  offStack_lowLink ..

@[simp] theorem popped_visited : (popped t v new S).Visited x ↔ t.Visited x := by
  simp [Visited]

theorem mem_popped_component :
    x ∈ insert v (new.toFinset ∪ {v}) ↔ x ∈ v :: new := by
  simp only [Finset.mem_insert, Finset.mem_union, List.mem_toFinset, Finset.mem_singleton,
    List.mem_cons]
  tauto

/-- `finish` at a root pops its component. -/
theorem finish_of_root (hroot : (t.mNodes v).mLowLink = (t.mNodes v).mIndex)
    (hstack : t.mStack = new ++ v :: S) (hv : v ∉ new) :
    finish v t = some (popped t v new S) := by
  rw [finish, if_pos hroot, hstack, popSCC_eq hv]
  rfl

end Popped

/-! ### The loop of `scc(v)` and the postcondition of `scc(v)` -/

/-- The invariant of the loop of `scc(v)` started from `t`, after the successors `seen`. -/
structure LoopInv (succ : ℕ → Finset ℕ) (t : TarjanSCCCalculator) (v : ℕ) (seen : List ℕ)
    (t' : TarjanSCCCalculator) : Prop where
  wf : WF succ t'
  ext : Extends t t'
  index_self : (t'.mNodes v).mIndex = t.mIndex
  /-- Every node the call visited has an index from `t` on, and is reachable from `v`. -/
  fresh : ∀ x, t'.Visited x → ¬ t.Visited x →
    t.mIndex ≤ (t'.mNodes x).mIndex ∧ Relation.ReflTransGen (Edge succ) v x
  /-- `v` is on the stack, below the open nodes pushed since. -/
  stack : ∃ new, t'.mStack = new ++ v :: t.mStack ∧
    OpenAbove succ t (t'.mNodes v).mLowLink t' new
  seen_settled : ∀ w ∈ seen, t'.Settled (t'.mNodes v).mLowLink w

/-- The postcondition of `scc(v)` started from `t`. -/
structure SccPost (succ : ℕ → Finset ℕ) (t : TarjanSCCCalculator) (v : ℕ)
    (t' : TarjanSCCCalculator) : Prop where
  wf : WF succ t'
  ext : Extends t t'
  index_self : (t'.mNodes v).mIndex = t.mIndex
  fresh : ∀ x, t'.Visited x → ¬ t.Visited x →
    t.mIndex ≤ (t'.mNodes x).mIndex ∧ Relation.ReflTransGen (Edge succ) v x
  /-- The nodes the call left on the stack are open, their edges settled at the low link
  of `v`. -/
  stack : ∃ new, t'.mStack = new ++ t.mStack ∧ OpenAbove succ t (t'.mNodes v).mLowLink t' new
  /-- If `v` left the stack, it was the root of its component, and the nodes above it
  went with it. -/
  root : v ∉ t'.mStack → t'.mStack = t.mStack ∧ (t'.mNodes v).mLowLink = (t'.mNodes v).mIndex

theorem push_visited (h : WF succ t) : (t.push v).Visited x ↔ x = v ∨ t.Visited x := by
  by_cases hxv : x = v
  · subst hxv
    simp only [Visited, push_self, true_or, iff_true]
    have := h.counter_nonneg
    omega
  · simp [Visited, push_of_ne hxv, hxv]

theorem push_done (hv : ¬ t.Visited v) : (t.push v).Done x ↔ t.Done x := by
  by_cases hxv : x = v
  · subst hxv
    simp [Done, hv]
  · simp [Done, Visited, push_of_ne hxv, hxv]

/-- Pushing a node not visited yet keeps the invariant. -/
theorem WF.push (h : WF succ t) (hv : ¬ t.Visited v) : WF succ (t.push v) := by
  -- the nodes of the stack of `t` are visited, so they are not `v` and keep their records
  have hS : ∀ x ∈ t.mStack, x ≠ v := fun x hx hxv => hv (hxv ▸ h.stack_visited x hx)
  refine
    { counter_nonneg := by simpa using Int.le_add_one h.counter_nonneg
      index_nonneg := ?_
      index_lt := ?_
      onStack_iff := ?_
      stack_visited := ?_
      stack_sorted := ?_
      low_le := ?_
      low_reach := ?_
      done_closed := fun x y hx hxy => (push_done hv).2 (h.done_closed x y ((push_done hv).1 hx) hxy)
      component := h.component
      done_iff := fun x => (push_done hv).trans (h.done_iff x)
      disjoint := h.disjoint }
  · intro x hx
    rcases (push_visited h).1 hx with rfl | hx
    · simpa using h.counter_nonneg
    · have hxv : x ≠ v := fun hxv => hv (hxv ▸ hx)
      rw [push_of_ne hxv]
      exact h.index_nonneg x hx
  · intro x hx
    rcases (push_visited h).1 hx with rfl | hx
    · simp only [push_self, push_mIndex]
      omega
    · have hxv : x ≠ v := fun hxv => hv (hxv ▸ hx)
      rw [push_of_ne hxv, push_mIndex]
      exact (h.index_lt x hx).trans (Int.lt_add_one_iff.2 le_rfl)
  · intro x
    by_cases hxv : x = v
    · subst hxv
      simp
    · rw [push_of_ne hxv, h.onStack_iff, push_mStack, List.mem_cons, or_iff_right hxv]
  · intro x hx
    exact (push_visited h).2 ((List.mem_cons.1 hx).imp_right (h.stack_visited x))
  · rw [push_mStack, List.pairwise_cons, push_self]
    refine ⟨fun x hx => ?_, h.stack_sorted.imp_of_mem fun hx hy hlt => ?_⟩
    · rw [push_of_ne (hS x hx)]
      exact h.index_lt x (h.stack_visited x hx)
    · rwa [push_of_ne (hS _ hx), push_of_ne (hS _ hy)]
  · intro x hx
    rcases List.mem_cons.1 hx with rfl | hx
    · simp
    · rw [push_of_ne (hS x hx)]
      exact h.low_le x hx
  · intro x hx
    rcases List.mem_cons.1 hx with rfl | hx
    · exact ⟨x, List.mem_cons_self .., by simp, .refl⟩
    · obtain ⟨w, hw, hwl, hr⟩ := h.low_reach x hx
      refine ⟨w, List.mem_cons_of_mem v hw, ?_, hr⟩
      rw [push_of_ne (hS x hx), push_of_ne (hS w hw), hwl]

namespace LoopInv

variable {seen new : List ℕ}

/-- The loop starts after the push. -/
theorem push (h : WF succ t) (hv : ¬ t.Visited v) : LoopInv succ t v [] (t.push v) where
  wf := h.push hv
  ext := Extends.push hv
  index_self := by simp
  fresh x hx hxt := by
    rcases (push_visited h).1 hx with rfl | hx
    · exact ⟨by simp, .refl⟩
    · exact absurd hx hxt
  stack := ⟨[], rfl, fun _ hx => absurd hx List.not_mem_nil⟩
  seen_settled _ hw := absurd hw List.not_mem_nil

/-- `v` was not visited before the call. -/
theorem not_visited (h : LoopInv succ t v seen tk) (ht : WF succ t) : ¬ t.Visited v := by
  intro hv
  have hlt := ht.index_lt v hv
  rw [← h.ext.nodes v hv, h.index_self] at hlt
  exact lt_irrefl _ hlt

/-- Neither `v` nor an open node above it was visited before the call. -/
theorem not_visited_of_mem (h : LoopInv succ t v seen tk) (ht : WF succ t)
    (hopen : OpenAbove succ t l tk new) (hx : x ∈ v :: new) : ¬ t.Visited x := by
  rcases List.mem_cons.1 hx with rfl | hx
  · exact h.not_visited ht
  · exact (hopen x hx).1

/-- After the pop at `v`, the finished nodes are those finished before and the popped
ones. -/
theorem popped_done (h : LoopInv succ t v seen tk) (ht : WF succ t)
    (hnew : tk.mStack = new ++ v :: t.mStack) (hopen : OpenAbove succ t l tk new) :
    (popped tk v new t.mStack).Done x ↔ tk.Done x ∨ x ∈ v :: new := by
  have hmem : x ∈ tk.mStack ↔ x ∈ v :: new ∨ x ∈ t.mStack := by
    rw [hnew, List.mem_append, List.mem_cons, List.mem_cons]
    tauto
  by_cases hx : x ∈ v :: new
  · -- a popped node was visited by the call, so it is not on the stack below `v`
    have hxt := h.not_visited_of_mem ht hopen hx
    simp only [Done, popped_visited, popped_mStack, hx, or_true, iff_true]
    exact ⟨h.wf.stack_visited x (hmem.2 (Or.inl hx)), fun hs => hxt (ht.stack_visited x hs)⟩
  · simp only [Done, popped_visited, popped_mStack, hx, or_false, hmem, false_or]

/-- The stack nodes with an index at least that of `v` are `v` and the nodes above it. -/
theorem mem_above (h : LoopInv succ t v seen tk) (ht : WF succ t)
    (hnew : tk.mStack = new ++ v :: t.mStack) (hw : w ∈ tk.mStack)
    (hle : (tk.mNodes v).mIndex ≤ (tk.mNodes w).mIndex) : w ∈ v :: new := by
  rw [hnew] at hw
  rcases List.mem_append.1 hw with hw | hw
  · exact List.mem_cons_of_mem v hw
  · rcases List.mem_cons.1 hw with rfl | hw
    · exact List.mem_cons_self ..
    · -- the nodes below `v` were on the stack before the call, with smaller indices
      have hwt := ht.stack_visited w hw
      have hlt := ht.index_lt w hwt
      rw [← h.ext.nodes w hwt, ← h.index_self] at hlt
      exact absurd hle (not_le.2 hlt)

section Root

variable (ht : WF succ t) (h : LoopInv succ t v seen tk) (hseen : ∀ w, Edge succ v w → w ∈ seen)
  (hroot : (tk.mNodes v).mLowLink = (tk.mNodes v).mIndex)
  (hnew : tk.mStack = new ++ v :: t.mStack) (hopen : OpenAbove succ t (tk.mNodes v).mLowLink tk new)

include ht h hseen hroot hnew hopen

/-- At a root, every edge out of `v`, the nodes above it and the finished components
leads back into them. -/
theorem closed : ∀ x y, (x ∈ v :: new ∨ tk.Done x) → Edge succ x y → y ∈ v :: new ∨ tk.Done y := by
  rintro x y (hx | hx) hxy
  · have hs : tk.Settled (tk.mNodes v).mLowLink y := by
      rcases List.mem_cons.1 hx with rfl | hx
      · exact h.seen_settled y (hseen y hxy)
      · exact (hopen x hx).2.2 y hxy
    rcases hs with hd | ⟨hy, hle⟩
    · exact Or.inr hd
    · exact Or.inl (h.mem_above ht hnew hy (hroot ▸ hle))
  · exact Or.inr (h.wf.done_closed x y hx hxy)

/-- At a root, `v` and the nodes above it reach `v`. -/
theorem reach_root : ∀ y ∈ v :: new, Relation.ReflTransGen (Edge succ) y v := by
  -- strong induction on the index: a node above `v` is not a root, and its low link is
  -- the index of a stack node it reaches, which is above `v` too
  suffices hk : ∀ k : ℕ, ∀ y ∈ v :: new, ((tk.mNodes y).mIndex).toNat < k →
      Relation.ReflTransGen (Edge succ) y v from
    fun y hy => hk _ y hy (Nat.lt_succ_self _)
  intro k
  induction k with
  | zero => exact fun y _ hk => absurd hk (Nat.not_lt_zero _)
  | succ k ih =>
    intro y hy hk
    rcases List.mem_cons.1 hy with rfl | hy'
    · exact .refl
    · have hyk : y ∈ tk.mStack := by
        rw [hnew]
        exact List.mem_append_left _ hy'
      obtain ⟨w, hw, hwl, hyw⟩ := h.wf.low_reach y hyk
      have hwT : w ∈ v :: new := by
        rcases reflTransGen_closed (closed ht h hseen hroot hnew hopen) hyw (Or.inl hy) with
          hw' | hd
        · exact hw'
        · exact absurd hw hd.2
      have hlt : (tk.mNodes w).mIndex < (tk.mNodes y).mIndex := hwl ▸ (hopen y hy').2.1
      have h0 : 0 ≤ (tk.mNodes w).mIndex := h.wf.index_nonneg w (h.wf.stack_visited w hw)
      exact hyw.trans (ih w hwT (by omega))

/-- **The component of a root.** At a root, `v` and the nodes above it are exactly the
nodes strongly connected to `v`. -/
theorem mem_component_iff (y : ℕ) : y ∈ v :: new ↔ StronglyConnected (Edge succ) v y := by
  constructor
  · intro hy
    refine ⟨?_, reach_root ht h hseen hroot hnew hopen y hy⟩
    rcases List.mem_cons.1 hy with rfl | hy'
    · exact .refl
    · have hyk : y ∈ tk.mStack := by
        rw [hnew]
        exact List.mem_append_left _ hy'
      exact (h.fresh y (h.wf.stack_visited y hyk) (hopen y hy').1).2
  · rintro ⟨hvy, hyv⟩
    rcases reflTransGen_closed (closed ht h hseen hroot hnew hopen) hvy
      (Or.inl (List.mem_cons_self ..)) with hy | hd
    · exact hy
    · -- a finished node reaches only finished nodes, and `v` is on the stack
      have hvd : tk.Done v := reflTransGen_closed h.wf.done_closed hyv hd
      exact absurd (by rw [hnew]; simp) hvd.2

/-- At a root, the pop leaves a calculator that satisfies the invariant. -/
theorem wf_popped : WF succ (popped tk v new t.mStack) := by
  have hdone := fun x => h.popped_done ht hnew hopen (x := x)
  have hsuffix : t.mStack <:+ tk.mStack := ⟨new ++ [v], by simp [hnew]⟩
  have hT : ∀ x ∈ v :: new, x ∈ tk.mStack := fun x hx => by
    rw [hnew]
    rcases List.mem_cons.1 hx with rfl | hx <;> simp [*]
  refine
    { counter_nonneg := h.wf.counter_nonneg
      index_nonneg := by simpa using h.wf.index_nonneg
      index_lt := by simpa using h.wf.index_lt
      onStack_iff := ?_
      stack_visited := fun x hx => by simpa using h.wf.stack_visited x (hsuffix.subset hx)
      stack_sorted := by simpa using h.wf.stack_sorted.sublist hsuffix.sublist
      low_le := fun x hx => by simpa using h.wf.low_le x (hsuffix.subset hx)
      low_reach := ?_
      done_closed := fun x y hx hxy =>
        (hdone y).2 (closed ht h hseen hroot hnew hopen x y ((hdone x).1 hx).symm hxy).symm
      component := ?_
      done_iff := ?_
      disjoint := ?_ }
  · intro x
    rw [popped_mNodes, popped_mStack]
    by_cases hx : x ∈ v :: new
    · simp only [offStack, if_pos hx, Bool.false_eq_true, false_iff]
      exact fun hs => h.not_visited_of_mem ht hopen hx (ht.stack_visited x hs)
    · rw [offStack_of_not_mem hx, h.wf.onStack_iff, hnew, List.mem_append, List.mem_cons]
      simp only [List.mem_cons, not_or] at hx
      tauto
  · -- the low link of a node below `v` is the index of a node below `v`: the nodes from
    -- `v` on have larger indices
    intro x hx
    obtain ⟨w, hw, hwl, hr⟩ := h.wf.low_reach x (hsuffix.subset hx)
    have hw' : w ∈ t.mStack := by
      by_contra hwt
      have hwT : w ∈ v :: new := by
        rw [hnew, List.mem_append, List.mem_cons] at hw
        rw [List.mem_cons]
        tauto
      have hxt := ht.stack_visited x hx
      have h₁ := (h.fresh w (h.wf.stack_visited w (hT w hwT))
        (h.not_visited_of_mem ht hopen hwT)).1
      have h₂ := h.wf.low_le x (hsuffix.subset hx)
      have h₃ := ht.index_lt x hxt
      rw [← h.ext.nodes x hxt] at h₃
      rw [hwl] at h₁
      exact absurd (h₁.trans h₂) (not_le.2 h₃)
    exact ⟨w, hw', by simpa using hwl, hr⟩
  · intro C hC
    rw [popped_mSCCs, List.mem_append, List.mem_singleton] at hC
    rcases hC with hC | rfl
    · exact h.wf.component C hC
    · exact ⟨v, by simp, fun y =>
        mem_popped_component.trans (mem_component_iff ht h hseen hroot hnew hopen y)⟩
  · intro x
    rw [hdone x, h.wf.done_iff x, popped_mSCCs]
    simp only [List.mem_append, List.mem_singleton, or_and_right, exists_or, exists_eq_left,
      mem_popped_component]
  · rw [popped_mSCCs, List.pairwise_append]
    refine ⟨h.wf.disjoint, List.pairwise_singleton _ _, fun C hC D hD => ?_⟩
    rw [List.mem_singleton] at hD
    subst hD
    rw [Finset.disjoint_left]
    intro x hxC hxT
    exact ((h.wf.done_iff x).2 ⟨C, hC, hxC⟩).2 (hT x (mem_popped_component.1 hxT))

/-- At a root, `scc(v)` meets its postcondition after the pop. -/
theorem sccPost_popped : SccPost succ t v (popped tk v new t.mStack) where
  wf := wf_popped ht h hseen hroot hnew hopen
  ext :=
    { nodes := fun x hx => by
        rw [popped_mNodes, offStack_of_not_mem fun hxT => h.not_visited_of_mem ht hopen hxT hx]
        exact h.ext.nodes x hx
      sccs := by
        obtain ⟨more, hmore⟩ := h.ext.sccs
        exact ⟨more ++ [_], by rw [popped_mSCCs, hmore, List.append_assoc]⟩
      counter_le := h.ext.counter_le }
  index_self := by simpa using h.index_self
  fresh x hx hxt := by simpa using h.fresh x (popped_visited.1 hx) hxt
  stack := ⟨[], rfl, fun _ hx => absurd hx List.not_mem_nil⟩
  root _ := ⟨rfl, by simpa using hroot⟩

end Root

/-- At a node that is not a root, `scc(v)` meets its postcondition with `v` left on the
stack. -/
theorem sccPost_of_not_root (h : LoopInv succ t v seen tk) (ht : WF succ t)
    (hseen : ∀ w, Edge succ v w → w ∈ seen)
    (hroot : (tk.mNodes v).mLowLink ≠ (tk.mNodes v).mIndex) : SccPost succ t v tk := by
  obtain ⟨new, hnew, hopen⟩ := h.stack
  have hv : v ∈ tk.mStack := by simp [hnew]
  refine ⟨h.wf, h.ext, h.index_self, h.fresh, ⟨new ++ [v], by simp [hnew], hopen.append ?_⟩,
    fun hv' => absurd hv hv'⟩
  intro x hx
  rw [List.mem_singleton] at hx
  subst hx
  exact ⟨h.not_visited ht, lt_of_le_of_ne (h.wf.low_le x hv) hroot,
    fun w hw => h.seen_settled w (hseen w hw)⟩

/-- **The end of `scc(v)`.** Once the loop has seen every successor of `v`, `finish`
returns, and `scc(v)` meets its postcondition. -/
theorem sccPost_finish (h : LoopInv succ t v seen tk) (ht : WF succ t)
    (hseen : ∀ w, Edge succ v w → w ∈ seen) :
    ∃ t', finish v tk = some t' ∧ SccPost succ t v t' := by
  by_cases hroot : (tk.mNodes v).mLowLink = (tk.mNodes v).mIndex
  · obtain ⟨new, hnew, hopen⟩ := h.stack
    have hvnew : v ∉ new := fun hv =>
      List.disjoint_of_nodup_append (hnew ▸ h.wf.stack_nodup) hv (List.mem_cons_self ..)
    exact ⟨_, finish_of_root hroot hnew hvnew, sccPost_popped ht h hseen hroot hnew hopen⟩
  · exact ⟨tk, by rw [finish, if_neg hroot]; rfl, h.sccPost_of_not_root ht hseen hroot⟩
end LoopInv

end TarjanSCCCalculator

end HcnetCore
