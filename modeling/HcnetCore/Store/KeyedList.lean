import Mathlib.Algebra.BigOperators.Group.List.Basic
import Mathlib.Data.List.Nodup
import Mathlib.Tactic.Abel

/-!
# A store as a list with distinct keys

A key-value store (a ledger, a table) modelled as the list of its entries, where
each entry carries its own key and no two entries share one. The three operations a
transaction performs on it are

* `find k l` — load the entry with key `k`;
* `replace a l` — write `a` back over the entry with `a`'s key;
* `erase k l` — delete the entry with key `k`;

and creating an entry is `a :: l` for a fresh key. The lemmas are what an invariant
that sums a quantity over all entries needs: writing an entry back keeps the keys
(`map_key_replace`), and the sum after a write or a delete differs from the sum
before by the entries that changed (`sum_replace`, `sum_erase`).
-/

namespace HcnetCore

namespace KeyedList

variable {α K : Type*} [DecidableEq K] (key : α → K)

/-- The entry with key `k`, if there is one. -/
def find (k : K) (l : List α) : Option α := l.find? fun b => key b = k

/-- `a` written over the entry with `a`'s key. -/
def replace (a : α) (l : List α) : List α := l.map fun b => if key b = key a then a else b

/-- The entries without the one with key `k`. -/
def erase (k : K) (l : List α) : List α := l.filter fun b => key b ≠ k

variable {key}

/-! ### Finding -/

theorem mem_of_find_eq_some {k : K} {l : List α} {a : α} (h : find key k l = some a) :
    a ∈ l ∧ key a = k := by
  refine ⟨List.mem_of_find?_eq_some h, ?_⟩
  simpa using List.find?_some h

theorem find_eq_some_of_mem {l : List α} (hl : (l.map key).Nodup) {a : α} (ha : a ∈ l) :
    find key (key a) l = some a := by
  induction l with
  | nil => cases ha
  | cons b l ih =>
    rw [List.map_cons, List.nodup_cons] at hl
    simp only [find, List.find?_cons]
    rcases List.mem_cons.mp ha with rfl | ha
    · simp
    · -- `b` has another key than every entry of `l`
      have hne : key b ≠ key a := fun h => hl.1 (h ▸ List.mem_map_of_mem ha)
      simpa [find, hne] using ih hl.2 ha

theorem find_eq_none_iff {k : K} {l : List α} : find key k l = none ↔ k ∉ l.map key := by
  simp [find, List.find?_eq_none]

/-! ### Writing back -/

@[simp] theorem map_key_replace (a : α) (l : List α) : (replace key a l).map key = l.map key := by
  simp only [replace, List.map_map]
  congr 1
  funext b
  by_cases h : key b = key a <;> simp [h]

theorem mem_replace {a b : α} {l : List α} :
    b ∈ replace key a l ↔ (b = a ∧ ∃ c ∈ l, key c = key a) ∨ (b ∈ l ∧ key b ≠ key a) := by
  simp only [replace, List.mem_map]
  constructor
  · rintro ⟨c, hc, rfl⟩
    by_cases h : key c = key a
    · exact .inl ⟨by simp [h], c, hc, h⟩
    · exact .inr ⟨by simpa [h] using hc, by simp [h]⟩
  · rintro (⟨rfl, c, hc, h⟩ | ⟨hb, h⟩)
    · exact ⟨c, hc, by simp [h]⟩
    · exact ⟨b, hb, by simp [h]⟩

/-- A write leaves the entries of the other keys where they were. -/
theorem find_replace_ne {a : α} {k : K} (l : List α) (hk : k ≠ key a) :
    find key k (replace key a l) = find key k l := by
  induction l with
  | nil => rfl
  | cons b l ih =>
    simp only [find, replace, List.map_cons, List.find?_cons] at ih ⊢
    by_cases h : key b = key a
    · -- the written entry takes `b`'s place, and neither has key `k`
      simp [h, hk.symm, ih]
    · simp [h, ih]

/-- Writing back the entry `b` as `a`: the sum gains `f a` and loses `f b`. -/
theorem sum_replace {M : Type*} [AddCommMonoid M] (f : α → M) {l : List α}
    (hl : (l.map key).Nodup) {a b : α} (hb : b ∈ l) (hk : key b = key a) :
    ((replace key a l).map f).sum + f b = (l.map f).sum + f a := by
  induction l with
  | nil => cases hb
  | cons c l ih =>
    rw [List.map_cons, List.nodup_cons] at hl
    simp only [replace, List.map_cons, List.sum_cons] at ih ⊢
    rcases List.mem_cons.mp hb with rfl | hb
    · -- the written entry is the head; the tail has other keys
      have htail : List.map (fun c => if key c = key a then a else c) l = l := by
        refine (List.map_congr_left fun c hc => ?_).trans (List.map_id l)
        have : key c ≠ key b := fun h => hl.1 (h ▸ List.mem_map_of_mem hc)
        simp [← hk, this]
      simp only [hk, if_true, htail]
      abel
    · have hne : key c ≠ key a := fun h => hl.1 (by rw [h, ← hk]; exact List.mem_map_of_mem hb)
      rw [if_neg hne, add_assoc, ih hl.2 hb]
      abel

/-- Deleting the entry `b`: the sum loses `f b`. -/
theorem sum_erase {M : Type*} [AddCommMonoid M] (f : α → M) {l : List α}
    (hl : (l.map key).Nodup) {b : α} (hb : b ∈ l) :
    ((erase key (key b) l).map f).sum + f b = (l.map f).sum := by
  induction l with
  | nil => cases hb
  | cons c l ih =>
    rw [List.map_cons, List.nodup_cons] at hl
    rcases List.mem_cons.mp hb with rfl | hb
    · -- the deleted entry is the head; the tail keeps every entry
      have htail : erase key (key b) l = l := by
        refine List.filter_eq_self.mpr (fun c hc => ?_)
        have : key c ≠ key b := fun h => hl.1 (h ▸ List.mem_map_of_mem hc)
        simpa using this
      simp only [erase, List.filter_cons, ne_eq, not_true_eq_false, decide_false,
        Bool.false_eq_true, if_false] at htail ⊢
      rw [htail, List.map_cons, List.sum_cons, add_comm]
    · have hne : key c ≠ key b := fun h => hl.1 (h ▸ List.mem_map_of_mem hb)
      have ih' := ih hl.2 hb
      simp only [erase, List.filter_cons, ne_eq, hne, not_false_eq_true, decide_true,
        if_true, List.map_cons, List.sum_cons] at ih' ⊢
      rw [add_assoc, ih']

/-- Deleting the entry with key `k` after writing over it: the write is lost. -/
theorem erase_replace_self {a : α} {k : K} (l : List α) (hk : key a = k) :
    erase key k (replace key a l) = erase key k l := by
  induction l with
  | nil => rfl
  | cons b l ih =>
    by_cases hb : key b = k
    · simp_all [erase, replace]
    · simp_all [erase, replace]

theorem nodup_erase {k : K} {l : List α} (hl : (l.map key).Nodup) :
    ((erase key k l).map key).Nodup :=
  hl.sublist (List.filter_sublist.map key)

theorem mem_erase {k : K} {l : List α} {b : α} : b ∈ erase key k l ↔ b ∈ l ∧ key b ≠ k := by
  simp [erase]

end KeyedList

end HcnetCore
