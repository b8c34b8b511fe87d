import Mathlib.Data.List.Sort

/-!
# Three-way comparisons: pairs, lists and sorting

A three-way comparison `cmp : α → α → ℤ` answers below zero, zero or above zero as its
first argument is below, equal to or above the second. When it orders linearly, the
comparison of pairs first by one component and then by the other, and the lexicographic
comparison of lists, order linearly as well, and sorting by it has one answer for all the
orders of a list.

The laws are stated at one left argument (`LawsAt cmp a`), and each construction passes
them on argument by argument. A comparison defined by recursion over a tree then gets its
laws by induction on the tree: the laws at the subtrees of `a` give the laws at `a`.

* `LawsAt` — the sign flips with the arguments, zero only between equal arguments, and
  transitivity;
* `lawsAt_prod`, `lawsAt_lex`, `LawsAt.comap` — pairs, lists, and a comparison through an
  injective key;
* `sortBy` — insertion sort by "not above": `pairwise_sortBy` (the result is sorted),
  `sortBy_eq_of_perm` (permuted lists sort alike), `sortBy_sortBy` (sorting twice
  changes nothing).
-/

namespace HcnetCore

namespace Cmp

variable {α β γ : Type*}

/-- The laws of a linear order for `cmp`, at the left argument `a`. -/
structure LawsAt (cmp : α → α → ℤ) (a : α) : Prop where
  swap : ∀ b, cmp b a = -cmp a b
  eq_of_eq_zero : ∀ {b}, cmp a b = 0 → a = b
  lt_of_lt_of_le : ∀ {b c}, cmp a b < 0 → cmp b c ≤ 0 → cmp a c < 0

namespace LawsAt

variable {cmp : α → α → ℤ} {a b c : α}

theorem self (h : LawsAt cmp a) : cmp a a = 0 := by
  have := h.swap a
  omega

theorem le_trans (h : LawsAt cmp a) (hab : cmp a b ≤ 0) (hbc : cmp b c ≤ 0) : cmp a c ≤ 0 := by
  rcases lt_or_eq_of_le hab with hlt | heq
  · exact (h.lt_of_lt_of_le hlt hbc).le
  · rwa [h.eq_of_eq_zero heq]

/-- **Comparing through an injective key.** -/
theorem comap {cmp : β → β → ℤ} {key : α → β} (hkey : ∀ b, key a = key b → a = b)
    (h : LawsAt cmp (key a)) : LawsAt (fun x y => cmp (key x) (key y)) a where
  swap b := h.swap (key b)
  eq_of_eq_zero hab := hkey _ (h.eq_of_eq_zero hab)
  lt_of_lt_of_le hab hbc := h.lt_of_lt_of_le hab hbc

end LawsAt

/-! ### Pairs -/

/-- `x`, or `y` where `x` is a tie. -/
def andThen (x y : ℤ) : ℤ := if x ≠ 0 then x else y

theorem andThen_neg (x y : ℤ) : andThen (-x) (-y) = -andThen x y := by
  unfold andThen
  split_ifs <;> omega

theorem andThen_lt_zero {x y : ℤ} : andThen x y < 0 ↔ x < 0 ∨ x = 0 ∧ y < 0 := by
  unfold andThen
  split_ifs <;> omega

theorem andThen_nonpos {x y : ℤ} : andThen x y ≤ 0 ↔ x < 0 ∨ x = 0 ∧ y ≤ 0 := by
  unfold andThen
  split_ifs <;> omega

theorem andThen_eq_zero {x y : ℤ} : andThen x y = 0 ↔ x = 0 ∧ y = 0 := by
  unfold andThen
  split_ifs <;> omega

/-- Pairs compared by their first components, ties broken by the second. -/
def prod (c₁ : β → β → ℤ) (c₂ : γ → γ → ℤ) (x y : β × γ) : ℤ := andThen (c₁ x.1 y.1) (c₂ x.2 y.2)

/-- **The comparison of pairs** has the laws where both components have them. -/
theorem lawsAt_prod {c₁ : β → β → ℤ} {c₂ : γ → γ → ℤ} {x : β × γ}
    (h₁ : LawsAt c₁ x.1) (h₂ : LawsAt c₂ x.2) : LawsAt (prod c₁ c₂) x where
  swap y := by rw [prod, prod, h₁.swap, h₂.swap, andThen_neg]
  eq_of_eq_zero {y} hxy := by
    obtain ⟨e₁, e₂⟩ := andThen_eq_zero.mp hxy
    exact Prod.ext (h₁.eq_of_eq_zero e₁) (h₂.eq_of_eq_zero e₂)
  lt_of_lt_of_le {y z} hxy hyz := by
    simp only [prod, andThen_lt_zero, andThen_nonpos] at hxy hyz ⊢
    rcases hxy with hxy | ⟨hxy, hxy₂⟩
    · -- the first components already decide `x < y`, and `y ≤ z` there
      have hyz₁ : c₁ y.1 z.1 ≤ 0 := by omega
      exact .inl (h₁.lt_of_lt_of_le hxy hyz₁)
    · -- `x` and `y` tie on the first component: `x` compares to `z` as `y` does
      have hxy₁ := h₁.eq_of_eq_zero hxy
      rw [hxy₁]
      rcases hyz with hyz | ⟨hyz, hyz₂⟩
      · exact .inl hyz
      · exact .inr ⟨hyz, h₂.lt_of_lt_of_le hxy₂ hyz₂⟩

/-! ### Lists -/

/-- The lexicographic comparison of lists: the first non-zero comparison of elements at
the same position, else the shorter list first. -/
def lex (cmp : α → α → ℤ) : List α → List α → ℤ
  | a :: as, b :: bs => andThen (cmp a b) (lex cmp as bs)
  | [], _ :: _ => -1
  | _ :: _, [] => 1
  | [], [] => 0

variable {cmp : α → α → ℤ}

@[simp] theorem lex_nil_nil : lex cmp [] [] = 0 := rfl

@[simp] theorem lex_nil_cons (b : α) (bs : List α) : lex cmp [] (b :: bs) = -1 := rfl

@[simp] theorem lex_cons_nil (a : α) (as : List α) : lex cmp (a :: as) [] = 1 := rfl

@[simp] theorem lex_cons_cons (a b : α) (as bs : List α) :
    lex cmp (a :: as) (b :: bs) = andThen (cmp a b) (lex cmp as bs) := rfl

theorem lex_swap : ∀ {l : List α}, (∀ a ∈ l, LawsAt cmp a) →
    ∀ m, lex cmp m l = -lex cmp l m
  | [], _, [] => rfl
  | [], _, _ :: _ => rfl
  | _ :: _, _, [] => rfl
  | a :: as, h, b :: bs => by
    rw [lex_cons_cons, lex_cons_cons, (h a (by simp)).swap,
      lex_swap (fun x hx => h x (by simp [hx])) bs, andThen_neg]

theorem eq_of_lex_eq_zero : ∀ {l m : List α}, (∀ a ∈ l, LawsAt cmp a) → lex cmp l m = 0 → l = m
  | [], [], _, _ => rfl
  | a :: as, b :: bs, h, hlm => by
    obtain ⟨hab, has⟩ := andThen_eq_zero.mp hlm
    rw [(h a (by simp)).eq_of_eq_zero hab,
      eq_of_lex_eq_zero (fun x hx => h x (by simp [hx])) has]

theorem lex_lt_of_lt_of_le : ∀ {l m n : List α}, (∀ a ∈ l, LawsAt cmp a) →
    lex cmp l m < 0 → lex cmp m n ≤ 0 → lex cmp l n < 0
  | [], _ :: _, _ :: _, _, _, _ => by simp
  | [], _ :: _, [], _, _, hmn => by simp at hmn
  | _ :: _, [], _, _, hlm, _ => by simp at hlm
  | [], [], _, _, hlm, _ => by simp at hlm
  | _ :: _, _ :: _, [], _, _, hmn => by simp at hmn
  | a :: as, b :: bs, c :: cs, h, hlm, hmn => by
    have ha := h a (by simp)
    simp only [lex_cons_cons, andThen_lt_zero, andThen_nonpos] at hlm hmn ⊢
    rcases hlm with hab | ⟨hab, has⟩
    · -- the heads decide `l < m`, and `m ≤ n` at the heads
      have hbc : cmp b c ≤ 0 := by omega
      exact .inl (ha.lt_of_lt_of_le hab hbc)
    · -- equal heads: `l` compares to `n` as `m` does, down to the tails
      rw [ha.eq_of_eq_zero hab]
      rcases hmn with hbc | ⟨hbc, hbs⟩
      · exact .inl hbc
      · exact .inr ⟨hbc, lex_lt_of_lt_of_le (fun x hx => h x (by simp [hx])) has hbs⟩

/-- **The lexicographic comparison** has the laws at a list whose elements have them. -/
theorem lawsAt_lex {l : List α} (h : ∀ a ∈ l, LawsAt cmp a) : LawsAt (lex cmp) l where
  swap := lex_swap h
  eq_of_eq_zero := eq_of_lex_eq_zero h
  lt_of_lt_of_le := lex_lt_of_lt_of_le h

/-! ### Sorting -/

/-- Insertion sort by "not above". -/
def sortBy (cmp : α → α → ℤ) (l : List α) : List α :=
  l.insertionSort fun a b => !decide (cmp b a < 0)

theorem perm_sortBy (cmp : α → α → ℤ) (l : List α) : (sortBy cmp l).Perm l :=
  List.perm_insertionSort _ l

section Lawful

variable (hcmp : ∀ a, LawsAt cmp a)
include hcmp

/-- "Not above" is "at most". -/
theorem not_above_iff {a b : α} : (!decide (cmp b a < 0)) = true ↔ cmp a b ≤ 0 := by
  have := (hcmp a).swap b
  simp only [Bool.not_eq_true', decide_eq_false_iff_not]
  omega

/-- **Sorting sorts.** -/
theorem pairwise_sortBy (l : List α) : (sortBy cmp l).Pairwise fun a b => cmp a b ≤ 0 := by
  have : Std.Total fun a b : α => (!decide (cmp b a < 0)) = true :=
    ⟨fun a b => by
      rw [not_above_iff hcmp, not_above_iff hcmp]
      have := (hcmp a).swap b
      omega⟩
  have : IsTrans α fun a b : α => (!decide (cmp b a < 0)) = true :=
    ⟨fun a b c hab hbc => by
      rw [not_above_iff hcmp] at hab hbc ⊢
      exact (hcmp a).le_trans hab hbc⟩
  exact (List.pairwise_insertionSort _ l).imp fun h => (not_above_iff hcmp).mp h

/-- **Permuted lists sort alike**: the sorted permutation is unique. -/
theorem sortBy_eq_of_perm {l₁ l₂ : List α} (hp : l₁.Perm l₂) : sortBy cmp l₁ = sortBy cmp l₂ :=
  List.Perm.eq_of_pairwise
    (fun a b _ _ hab hba => (hcmp a).eq_of_eq_zero (by have := (hcmp a).swap b; omega))
    (pairwise_sortBy hcmp l₁) (pairwise_sortBy hcmp l₂)
    (((perm_sortBy cmp l₁).trans hp).trans (perm_sortBy cmp l₂).symm)

/-- **Sorting twice changes nothing.** -/
theorem sortBy_sortBy (l : List α) : sortBy cmp (sortBy cmp l) = sortBy cmp l :=
  List.Pairwise.insertionSort_eq <|
    (pairwise_sortBy hcmp l).imp fun h => (not_above_iff hcmp).mpr h

end Lawful

end Cmp

end HcnetCore
