import Mathlib.Data.Finset.Sort

/-!
# Two standard-library scans over sorted sequences

Two algorithms of the C++ standard library are read here as functions on lists:

* `adjacentFind p l` — `std::adjacent_find` with a binary predicate: the first
  element `x` of `l` whose successor `y` satisfies `p x y`;
* `includes v p` — `std::includes`: a single simultaneous pass over two ranges
  sorted by `<`, deciding whether every element of the second range occurs in the
  first.

`std::includes` is only meaningful on sorted input, and its callers typically check
sortedness with `std::adjacent_find` (with the predicate `!(x < y)`). The two
specifications proved here say exactly that:

* `adjacentFind_not_lt_eq_none` — no adjacent pair out of order iff the list is
  strictly sorted (`List.Pairwise (· < ·)`);
* `includes_iff_subset` — on strictly sorted input, the scan decides inclusion of
  the underlying sets.

`toSortedList` serialises a finite set into the strictly sorted list a program
obtains by iterating an ordered set; inclusion of serialisations is inclusion of
the sets (`toSortedList_subset_iff`).
-/

namespace HcnetCore

namespace SortedList

variable {α : Type*}

/-- `std::adjacent_find(l.begin(), l.end(), p)`: the first element whose successor
it is related to by `p`, or `none` when the scan reaches the end. -/
def adjacentFind (p : α → α → Bool) : List α → Option α
  | a :: b :: rest => if p a b then some a else adjacentFind p (b :: rest)
  | _ => none

/-- The scan finds nothing exactly when no adjacent pair satisfies `p`. -/
theorem adjacentFind_eq_none_iff (p : α → α → Bool) :
    ∀ l : List α, adjacentFind p l = none ↔ l.IsChain (fun a b => p a b = false)
  | [] => by simp [adjacentFind]
  | [a] => by simp [adjacentFind]
  | a :: b :: rest => by
    rw [adjacentFind, List.isChain_cons_cons, ← adjacentFind_eq_none_iff p (b :: rest)]
    cases p a b <;> simp

variable [LinearOrder α]

/-- **`adjacent_find` as a sortedness check.** With the predicate `!(x < y)`, the
scan finds nothing exactly on strictly increasing lists. -/
theorem adjacentFind_not_lt_eq_none {l : List α} :
    adjacentFind (fun x y => !decide (x < y)) l = none ↔ l.Pairwise (· < ·) := by
  rw [adjacentFind_eq_none_iff, ← List.isChain_iff_pairwise]
  simp

/-- `std::includes(v.begin(), v.end(), p.begin(), p.end())` with the comparator
`<`: walk `v`, and advance in `p` whenever the two heads are equivalent. -/
def includes : List α → List α → Bool
  | _, [] => true
  | [], _ :: _ => false
  | a :: as, b :: bs =>
    if b < a then false
    else if a < b then includes as (b :: bs)
    else includes as bs

@[simp] theorem includes_nil_right (v : List α) : includes v [] = true := by
  cases v <;> rfl

/-- An element below the head of a strictly sorted list does not occur in it. -/
theorem not_mem_of_lt_head {a b : α} {as : List α} (hv : (a :: as).Pairwise (· < ·))
    (hba : b < a) : b ∉ a :: as := by
  intro hb
  rcases List.mem_cons.mp hb with rfl | hb
  · exact lt_irrefl _ hba
  · exact lt_asymm hba (List.rel_of_pairwise_cons hv hb)

/-- **Specification of `includes`.** On strictly sorted input, the one-pass scan
decides whether every element of the second list occurs in the first. -/
theorem includes_iff_subset :
    ∀ {v p : List α}, v.Pairwise (· < ·) → p.Pairwise (· < ·) →
      (includes v p = true ↔ ∀ x ∈ p, x ∈ v)
  | v, [], _, _ => by simp
  | [], b :: bs, _, _ => by simp [includes]; exact ⟨b, by simp⟩
  | a :: as, b :: bs, hv, hp => by
    have has : as.Pairwise (· < ·) := (List.pairwise_cons.mp hv).2
    have hbs : bs.Pairwise (· < ·) := (List.pairwise_cons.mp hp).2
    -- every element of `b :: bs` is at least `b`
    have hge : ∀ x ∈ b :: bs, b ≤ x := by
      intro x hx
      rcases List.mem_cons.mp hx with rfl | hx
      · exact le_rfl
      · exact (List.rel_of_pairwise_cons hp hx).le
    rw [includes]
    split_ifs with hba hab
    · -- `b` is below every element of `v`, so it is missing from `v`
      simp only [false_iff, not_forall]
      exact ⟨b, List.mem_cons_self, not_mem_of_lt_head hv hba⟩
    · -- `a` is below every element of `p`: drop it from `v`
      rw [includes_iff_subset has hp]
      refine forall₂_congr fun x hx => ?_
      have hax : a ≠ x := (lt_of_lt_of_le hab (hge x hx)).ne
      simp [hax.symm]
    · -- the heads are equal: both advance
      have hab' : a = b := le_antisymm (not_lt.mp hba) (not_lt.mp hab)
      subst hab'
      rw [includes_iff_subset has hbs]
      constructor
      · intro h x hx
        rcases List.mem_cons.mp hx with rfl | hx
        · exact List.mem_cons_self
        · exact List.mem_cons_of_mem _ (h x hx)
      · intro h x hx
        have hax : a ≠ x := (List.rel_of_pairwise_cons hp hx).ne
        simpa [hax.symm] using h x (List.mem_cons_of_mem _ hx)

/-! ### Serialising a finite set -/

/-- The elements of a finite set in increasing order, the way a program iterates an
ordered set. It is `Finset.sort` (`toSortedList_eq_sort`), computed by insertion sort,
which unlike merge sort evaluates by `decide`. -/
def toSortedList (s : Finset α) : List α :=
  Quot.liftOn s.val (List.insertionSort (· ≤ ·)) fun _ _ h =>
    ((List.perm_insertionSort _ _).trans (h.trans (List.perm_insertionSort _ _).symm)).eq_of_pairwise'
      (List.pairwise_insertionSort _ _) (List.pairwise_insertionSort _ _)

theorem toSortedList_eq_sort (s : Finset α) : toSortedList s = s.sort (· ≤ ·) := by
  obtain ⟨⟨l⟩, _⟩ := s
  exact (List.mergeSort_eq_insertionSort (· ≤ ·) l).symm

@[simp] theorem mem_toSortedList {s : Finset α} {a : α} : a ∈ toSortedList s ↔ a ∈ s := by
  rw [toSortedList_eq_sort, Finset.mem_sort]

/-- The serialisation of a finite set is strictly sorted. -/
theorem pairwise_toSortedList (s : Finset α) : (toSortedList s).Pairwise (· < ·) := by
  rw [toSortedList_eq_sort]
  exact (Finset.sortedLT_sort s).pairwise

/-- Inclusion of serialisations is inclusion of the sets. -/
theorem toSortedList_subset_iff {s t : Finset α} : toSortedList s ⊆ toSortedList t ↔ s ⊆ t :=
  ⟨fun h _ hx => mem_toSortedList.mp (h (mem_toSortedList.mpr hx)),
    fun h _ hx => mem_toSortedList.mpr (h (mem_toSortedList.mp hx))⟩

end SortedList

end HcnetCore
