import Mathlib.Order.Basic
import Mathlib.Order.Lattice
import Mathlib.Data.List.Pairwise

/-!
# Merging two key-sorted lists

A single pass over two lists sorted by strictly increasing keys, taking the entry
with the smaller key, and letting a function decide what stays of two entries with
the same key: the merge step of a log-structured store.

* `mergeWith key f os ns` — the merge; `f o n` is what remains of an entry `o` of
  the first list and an entry `n` of the second with the same key (nothing, or one
  entry with that key);
* `sortedByKey_mergeWith` — the merge of two sorted lists is sorted;
* `findKey_mergeWith` — **the reader's view**: the entry the merge holds for a key
  is `combine f` of the entries the two inputs hold for it. Every property of a
  merge that is about single keys follows from this one equation;
* `findKey_filter` — dropping entries from a sorted list drops them key by key.
-/

namespace HcnetCore

namespace KeyedMerge

variable {α K : Type*} [LinearOrder K] (key : α → K)

/-- Strictly increasing keys: every key occurs at most once. -/
def SortedByKey (l : List α) : Prop := l.Pairwise (fun a b => key a < key b)

instance : DecidablePred (SortedByKey key) := fun l =>
  inferInstanceAs (Decidable (l.Pairwise _))

/-- The entry of `l` with key `k`, if there is one. -/
def findKey (k : K) (l : List α) : Option α := l.find? (fun a => key a = k)

/-- The merge of two key-sorted lists: the entry with the smaller key goes first;
of two entries with the same key, `f` decides what stays. -/
def mergeWith (f : α → α → Option α) : List α → List α → List α
  | [], ns => ns
  | os, [] => os
  | o :: os, n :: ns =>
    if key o < key n then o :: mergeWith f os (n :: ns)
    else if key n < key o then n :: mergeWith f (o :: os) ns
    else (f o n).toList ++ mergeWith f os ns

/-- What the merge keeps of one key, given what each input holds for it. -/
def combine (f : α → α → Option α) : Option α → Option α → Option α
  | none, n => n
  | some o, none => some o
  | some o, some n => f o n

variable {key}

/-! ### Finding a key -/

theorem findKey_nil (k : K) : findKey key k ([] : List α) = none := rfl

theorem findKey_cons (k : K) (a : α) (l : List α) :
    findKey key k (a :: l) = if key a = k then some a else findKey key k l := by
  unfold findKey
  rw [List.find?_cons]
  by_cases h : key a = k <;> simp [h]

/-- A key below every key of the list is not found. -/
theorem findKey_eq_none_of_lt {k : K} {l : List α} (h : ∀ y ∈ l, k < key y) :
    findKey key k l = none := by
  induction l with
  | nil => rfl
  | cons a l ih =>
    rw [findKey_cons, if_neg (h a List.mem_cons_self).ne', ih fun y hy => h y (List.mem_cons_of_mem _ hy)]

theorem findKey_eq_some_iff {k : K} {l : List α} {a : α} (hl : SortedByKey key l) :
    findKey key k l = some a ↔ a ∈ l ∧ key a = k := by
  induction l with
  | nil => simp [findKey_nil]
  | cons b l ih =>
    rw [findKey_cons]
    have hb : ∀ y ∈ l, key b < key y := fun y hy => List.rel_of_pairwise_cons hl hy
    by_cases hbk : key b = k
    · -- `b` is the only entry with key `k`: the rest have larger keys
      rw [if_pos hbk]
      constructor
      · rintro ⟨⟩; exact ⟨List.mem_cons_self, hbk⟩
      · rintro ⟨ha, hak⟩
        rcases List.mem_cons.mp ha with rfl | ha
        · rfl
        · exact absurd (hbk.trans hak.symm) (hb a ha).ne
    · rw [if_neg hbk, ih hl.of_cons]
      constructor
      · exact fun ⟨ha, hak⟩ => ⟨List.mem_cons_of_mem _ ha, hak⟩
      · rintro ⟨ha, hak⟩
        rcases List.mem_cons.mp ha with rfl | ha
        · exact absurd hak hbk
        · exact ⟨ha, hak⟩

/-- A found entry has the key it was looked up by. -/
theorem key_of_findKey_eq_some {k : K} {l : List α} {a : α} (h : findKey key k l = some a) :
    key a = k := by
  simpa using List.find?_some h

/-! ### The merge -/

variable {f : α → α → Option α}

theorem mergeWith_nil_left (ns : List α) : mergeWith key f [] ns = ns := by
  rw [mergeWith]

theorem mergeWith_nil_right (os : List α) : mergeWith key f os [] = os := by
  cases os <;> simp [mergeWith]

theorem mergeWith_cons_cons (o n : α) (os ns : List α) :
    mergeWith key f (o :: os) (n :: ns) =
      if key o < key n then o :: mergeWith key f os (n :: ns)
      else if key n < key o then n :: mergeWith key f (o :: os) ns
      else (f o n).toList ++ mergeWith key f os ns := by
  rw [mergeWith]

omit [LinearOrder K] in
/-- What `f` keeps of two entries with one key has that key, when `f` keeps keys. -/
theorem key_of_mem_toList (hf : ∀ o n r, key o = key n → f o n = some r → key r = key o)
    {o n x : α} (heq : key o = key n) (hx : x ∈ (f o n).toList) : key x = key o :=
  hf o n x heq (Option.mem_toList.mp hx)

/-- Every entry of the merge has the key of an entry of an input, as far as a
predicate on keys can tell, when `f` keeps keys. -/
theorem forall_mergeWith (hf : ∀ o n r, key o = key n → f o n = some r → key r = key o) {P : K → Prop}
    (os ns : List α) (hos : ∀ y ∈ os, P (key y)) (hns : ∀ y ∈ ns, P (key y)) :
    ∀ x ∈ mergeWith key f os ns, P (key x) := by
  induction os, ns using mergeWith.induct key with
  | case1 ns => rw [mergeWith_nil_left]; exact hns
  | case2 os _ => rw [mergeWith_nil_right]; exact hos
  | case3 o os n ns hlt ih =>
    rw [mergeWith_cons_cons, if_pos hlt]
    intro x hx
    rcases List.mem_cons.mp hx with rfl | hx
    · exact hos x List.mem_cons_self
    · exact ih (fun y hy => hos y (List.mem_cons_of_mem _ hy)) hns x hx
  | case4 o os n ns hlt hgt ih =>
    rw [mergeWith_cons_cons, if_neg hlt, if_pos hgt]
    intro x hx
    rcases List.mem_cons.mp hx with rfl | hx
    · exact hns x List.mem_cons_self
    · exact ih hos (fun y hy => hns y (List.mem_cons_of_mem _ hy)) x hx
  | case5 o os n ns hlt hgt ih =>
    rw [mergeWith_cons_cons, if_neg hlt, if_neg hgt]
    intro x hx
    rcases List.mem_append.mp hx with hx | hx
    · -- what `f` keeps has the key of `o`
      rw [key_of_mem_toList hf (le_antisymm (not_lt.mp hgt) (not_lt.mp hlt)) hx]
      exact hos o List.mem_cons_self
    · exact ih (fun y hy => hos y (List.mem_cons_of_mem _ hy))
        (fun y hy => hns y (List.mem_cons_of_mem _ hy)) x hx

/-- **The merge of two sorted lists is sorted.** -/
theorem sortedByKey_mergeWith (hf : ∀ o n r, key o = key n → f o n = some r → key r = key o)
    (os ns : List α) (hos : SortedByKey key os) (hns : SortedByKey key ns) :
    SortedByKey key (mergeWith key f os ns) := by
  induction os, ns using mergeWith.induct key with
  | case1 ns => rwa [mergeWith_nil_left]
  | case2 os _ => rwa [mergeWith_nil_right]
  | case3 o os n ns hlt ih =>
    rw [mergeWith_cons_cons, if_pos hlt]
    -- `o` is below the rest of its list, and below `n`, hence below all of `n :: ns`
    have hn : ∀ y ∈ n :: ns, key o < key y := fun y hy => by
      rcases List.mem_cons.mp hy with rfl | hy
      · exact hlt
      · exact hlt.trans (List.rel_of_pairwise_cons hns hy)
    refine List.pairwise_cons.mpr ⟨forall_mergeWith hf os (n :: ns)
      (fun y hy => List.rel_of_pairwise_cons hos hy) hn, ih hos.of_cons hns⟩
  | case4 o os n ns hlt hgt ih =>
    rw [mergeWith_cons_cons, if_neg hlt, if_pos hgt]
    have ho : ∀ y ∈ o :: os, key n < key y := fun y hy => by
      rcases List.mem_cons.mp hy with rfl | hy
      · exact hgt
      · exact hgt.trans (List.rel_of_pairwise_cons hos hy)
    refine List.pairwise_cons.mpr ⟨forall_mergeWith hf (o :: os) ns ho
      (fun y hy => List.rel_of_pairwise_cons hns hy), ih hos hns.of_cons⟩
  | case5 o os n ns hlt hgt ih =>
    rw [mergeWith_cons_cons, if_neg hlt, if_neg hgt]
    have heq : key o = key n := le_antisymm (not_lt.mp hgt) (not_lt.mp hlt)
    refine List.pairwise_append.mpr ⟨?_, ih hos.of_cons hns.of_cons, fun x hx y hy => ?_⟩
    · cases f o n <;> simp
    · -- the kept entry has the common key, which is below both tails
      rw [key_of_mem_toList hf heq hx]
      exact forall_mergeWith hf os ns (fun z hz => List.rel_of_pairwise_cons hos hz)
        (fun z hz => heq ▸ List.rel_of_pairwise_cons hns hz) y hy

/-- **The reader's view of a merge.** -/
theorem findKey_mergeWith (hf : ∀ o n r, key o = key n → f o n = some r → key r = key o) (k : K)
    (os ns : List α) (hos : SortedByKey key os) (hns : SortedByKey key ns) :
    findKey key k (mergeWith key f os ns) = combine f (findKey key k os) (findKey key k ns) := by
  induction os, ns using mergeWith.induct key with
  | case1 ns => rw [mergeWith_nil_left, findKey_nil, combine]
  | case2 os _ =>
    rw [mergeWith_nil_right, findKey_nil]
    cases findKey key k os <;> rfl
  | case3 o os n ns hlt ih =>
    rw [mergeWith_cons_cons, if_pos hlt, findKey_cons, findKey_cons]
    by_cases hok : key o = k
    · -- `k` is below every key of `n :: ns`
      have hnone : findKey key k (n :: ns) = none := findKey_eq_none_of_lt fun y hy => by
        rcases List.mem_cons.mp hy with rfl | hy
        · exact hok ▸ hlt
        · exact hok ▸ hlt.trans (List.rel_of_pairwise_cons hns hy)
      rw [if_pos hok, if_pos hok, hnone]
      rfl
    · rw [if_neg hok, if_neg hok, ih hos.of_cons hns]
  | case4 o os n ns hlt hgt ih =>
    rw [mergeWith_cons_cons, if_neg hlt, if_pos hgt, findKey_cons, findKey_cons (l := ns)]
    by_cases hnk : key n = k
    · have hnone : findKey key k (o :: os) = none := findKey_eq_none_of_lt fun y hy => by
        rcases List.mem_cons.mp hy with rfl | hy
        · exact hnk ▸ hgt
        · exact hnk ▸ hgt.trans (List.rel_of_pairwise_cons hos hy)
      rw [if_pos hnk, if_pos hnk, hnone]
      rfl
    · rw [if_neg hnk, if_neg hnk, ih hos hns.of_cons]
  | case5 o os n ns hlt hgt ih =>
    rw [mergeWith_cons_cons, if_neg hlt, if_neg hgt, findKey_cons, findKey_cons (l := ns)]
    have heq : key o = key n := le_antisymm (not_lt.mp hgt) (not_lt.mp hlt)
    by_cases hok : key o = k
    · -- both inputs hold `k`; nothing after the kept entry has it
      have hrest : findKey key k (mergeWith key f os ns) = none := by
        rw [ih hos.of_cons hns.of_cons,
          findKey_eq_none_of_lt fun y hy => hok ▸ List.rel_of_pairwise_cons hos hy,
          findKey_eq_none_of_lt fun y hy => hok ▸ heq ▸ List.rel_of_pairwise_cons hns hy]
        rfl
      rw [if_pos hok, if_pos (heq ▸ hok), combine]
      cases hr : f o n with
      | none => simpa using hrest
      | some r =>
        rw [Option.toList_some, List.singleton_append, findKey_cons, if_pos ((hf o n r heq hr).trans hok)]
    · -- neither input holds `k` at its head, and what `f` keeps has the head's key
      rw [if_neg hok, if_neg (heq ▸ hok), ← ih hos.of_cons hns.of_cons]
      cases hr : f o n with
      | none => rfl
      | some r =>
        rw [Option.toList_some, List.singleton_append, findKey_cons,
          if_neg ((hf o n r heq hr).symm ▸ hok)]

/-! ### Dropping entries -/

/-- Filtering a sorted list filters what it holds for each key. -/
theorem findKey_filter (p : α → Bool) (k : K) {l : List α} (hl : SortedByKey key l) :
    findKey key k (l.filter p) = (findKey key k l).filter p := by
  induction l with
  | nil => rfl
  | cons a l ih =>
    rw [List.filter_cons, findKey_cons]
    by_cases hak : key a = k
    · -- the rest holds no entry with key `k`, filtered or not
      have hnone : findKey key k (l.filter p) = none := findKey_eq_none_of_lt fun y hy =>
        hak ▸ List.rel_of_pairwise_cons hl (List.mem_filter.mp hy).1
      rw [if_pos hak]
      by_cases hp : p a = true
      · rw [if_pos hp, findKey_cons, if_pos hak, Option.filter_some, if_pos hp]
      · rw [if_neg hp, hnone, Option.filter_some, if_neg hp]
    · rw [if_neg hak, ← ih hl.of_cons]
      by_cases hp : p a = true
      · rw [if_pos hp, findKey_cons, if_neg hak]
      · rw [if_neg hp]

theorem sortedByKey_filter (p : α → Bool) {l : List α} (hl : SortedByKey key l) :
    SortedByKey key (l.filter p) :=
  hl.filter p

end KeyedMerge

end HcnetCore
