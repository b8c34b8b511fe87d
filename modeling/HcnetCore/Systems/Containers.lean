import Mathlib.Data.List.Perm.Basic
import Mathlib.Data.List.Nodup
import Mathlib.Data.List.Sort
import Mathlib.Data.Finset.Insert

/-!
# Sets and multimaps as lists

A model of a program that keeps an unordered set or an unordered multimap keeps it as
the list of its elements in iteration order. The order is unspecified, so what is
proved of such a list holds up to permutation. The loops over such containers are
folds, and this module gives the rules for the three folds they compile to:

* a set built by `insert` (`emplace` into a set): `mem_foldl_insert`, `nodup_foldl_insert`;
* a multimap filled by `emplace`, which adds an entry: `foldl_append_singleton`;
* a multimap emptied by erasing one entry per step: `foldl_erase_perm` — erasing the
  members of `xs` one by one from a list that holds `xs` and `r` leaves `r`, up to
  permutation;

and `foldl_pair`, for a loop whose state is two independent parts. A loop that may fail
and appends a block per element returns the blocks in order (`foldlM_append_eq_some`);
the blocks make a list without duplicates when no two elements share a member
(`nodup_flatMap_of_unique`).

A `BitSet` is the finite set of its set bits, and a loop `for (j = 0; s.nextSet(j); ++j)`
visits them in ascending order: `ascending`, by insertion sort so that it evaluates by
`decide`.
-/

namespace HcnetCore

namespace Containers

variable {α β γ : Type*}

section Insert

variable [BEq α] [LawfulBEq α]

theorem mem_foldl_insert {x : α} : ∀ {xs s : List α},
    x ∈ xs.foldl (fun s a => s.insert a) s ↔ x ∈ s ∨ x ∈ xs
  | [], s => by simp
  | a :: xs, s => by
    rw [List.foldl_cons, mem_foldl_insert, List.mem_insert_iff, List.mem_cons]
    tauto

theorem nodup_foldl_insert : ∀ {xs s : List α}, s.Nodup →
    (xs.foldl (fun s a => s.insert a) s).Nodup
  | [], _, hs => hs
  | a :: _, _, hs => by
    rw [List.foldl_cons]
    exact nodup_foldl_insert (hs.insert (a := a))

end Insert

theorem foldl_append_singleton (f : α → β) : ∀ (xs : List α) (l : List β),
    xs.foldl (fun acc a => acc ++ [f a]) l = l ++ xs.map f
  | [], l => by simp
  | a :: xs, l => by
    rw [List.foldl_cons, foldl_append_singleton f xs, List.map_cons, List.append_assoc,
      List.singleton_append]

/-- **Erasing what is there.** Erasing the members of `xs` one at a time from a list that
is `xs` and `r` up to permutation leaves `r`, up to permutation. -/
theorem foldl_erase_perm [BEq α] [LawfulBEq α] : ∀ {xs l r : List α}, l.Perm (xs ++ r) →
    (xs.foldl List.erase l).Perm r
  | [], _, _, h => h
  | x :: xs, l, r, h => by
    -- `x` is in `l`, and erasing it from both sides keeps the permutation
    have hx : (l.erase x).Perm (xs ++ r) := by
      simpa using h.erase x
    rw [List.foldl_cons]
    exact foldl_erase_perm hx

/-- A loop whose state is a pair of independent parts is the pair of two loops. -/
theorem foldl_pair (f : β → α → β) (g : γ → α → γ) : ∀ (l : List α) (b : β) (c : γ),
    l.foldl (fun p a => (f p.1 a, g p.2 a)) (b, c) = (l.foldl f b, l.foldl g c)
  | [], _, _ => rfl
  | a :: l, b, c => foldl_pair f g l (f b a) (g c a)

/-- **A loop that appends a block per element.** A loop that may fail, whose every step
returns with the block of its element appended, returns all the blocks in order. -/
theorem foldlM_append_eq_some {f : List β → α → Option (List β)} {blk : α → List β} :
    ∀ {l : List α}, (∀ a ∈ l, ∀ acc, f acc a = some (acc ++ blk a)) →
      ∀ acc, l.foldlM f acc = some (acc ++ l.flatMap blk)
  | [], _, acc => by simp
  | a :: l, h, acc => by
    rw [List.foldlM_cons, h a (List.mem_cons_self ..) acc, Option.bind_eq_bind,
      Option.bind_some, foldlM_append_eq_some (fun x hx => h x (List.mem_cons_of_mem a hx)),
      List.flatMap_cons, List.append_assoc]

/-- The blocks of distinct elements, none of whose members is in the block of another
element, make a list without duplicates. -/
theorem nodup_flatMap_of_unique {l : List α} {f : α → List β} (hl : l.Nodup)
    (hf : ∀ x ∈ l, (f x).Nodup) (huniq : ∀ x ∈ l, ∀ y ∈ l, ∀ b ∈ f x, b ∈ f y → x = y) :
    (l.flatMap f).Nodup :=
  List.nodup_flatMap.2 ⟨hf, hl.imp_of_mem fun hx hy hxy b hbx hby =>
    hxy (huniq _ hx _ hy b hbx hby)⟩

/-- The members of a finite set of naturals in ascending order: the order in which
`for (j = 0; s.nextSet(j); ++j)` visits the bits of a `BitSet`. -/
def ascending (s : Finset ℕ) : List ℕ :=
  Quot.liftOn s.val (List.insertionSort (· ≤ ·)) fun _ _ h =>
    List.Perm.eq_of_sortedLE List.sortedLE_insertionSort List.sortedLE_insertionSort
      ((List.perm_insertionSort _ _).trans (h.trans (List.perm_insertionSort _ _).symm))

@[simp] theorem mem_ascending {s : Finset ℕ} {x : ℕ} : x ∈ ascending s ↔ x ∈ s := by
  obtain ⟨m, _⟩ := s
  induction m using Quot.inductionOn with
  | h l => exact (List.perm_insertionSort _ l).mem_iff

theorem nodup_ascending (s : Finset ℕ) : (ascending s).Nodup := by
  obtain ⟨m, hm⟩ := s
  induction m using Quot.inductionOn with
  | h l => exact (List.perm_insertionSort _ l).nodup_iff.2 hm

example : ascending {3, 1, 2} = [1, 2, 3] := by decide

end Containers

end HcnetCore
