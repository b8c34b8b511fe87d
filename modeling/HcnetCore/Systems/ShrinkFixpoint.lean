import Mathlib.Data.List.Basic

/-!
# Shrinking a list to its largest self-supporting part

`Shrink.iterate keep fuel l` repeats one round, `l ↦ l.filter (keep l)`, until a round
removes nothing, for at most `fuel` rounds. `keep l x` says whether `x` is supported by
the current candidates `l`. When `keep` is monotone in the candidates, this computes a
greatest fixpoint of a finite, shrinking operator:

* `iterate_sublist` — the result is a sublist of the start;
* `iterate_stable` — with more rounds than elements, the last round removes nothing, so
  every survivor is supported by the survivors;
* `iterate_fuel` — more fuel than that changes nothing: the loop has stopped;
* `subset_iterate` — every part of the start whose elements it supports itself
  survives every round.
-/

namespace HcnetCore

namespace Shrink

variable {α : Type*}

/-- Filter the candidates by `keep` until a round removes nobody, for at most `fuel`
rounds. -/
def iterate (keep : List α → α → Bool) : ℕ → List α → List α
  | 0, l => l
  | fuel + 1, l =>
    let l' := l.filter (keep l)
    if l'.length = l.length then l' else iterate keep fuel l'

variable {keep : List α → α → Bool}

theorem iterate_succ (fuel : ℕ) (l : List α) :
    iterate keep (fuel + 1) l =
      if (l.filter (keep l)).length = l.length then l.filter (keep l)
      else iterate keep fuel (l.filter (keep l)) := rfl

/-- A round that removes nobody leaves the candidates as they are. -/
theorem filter_eq_self_of_length {l : List α} {p : α → Bool}
    (h : (l.filter p).length = l.length) : l.filter p = l :=
  List.filter_sublist.eq_of_length h

/-- A round that removes somebody shortens the candidates. -/
theorem length_filter_lt {l : List α} {p : α → Bool} (h : (l.filter p).length ≠ l.length) :
    (l.filter p).length < l.length :=
  Nat.lt_of_le_of_ne (List.length_filter_le p l) h

theorem iterate_sublist : ∀ (fuel : ℕ) (l : List α), (iterate keep fuel l).Sublist l
  | 0, l => List.Sublist.refl l
  | fuel + 1, l => by
    rw [iterate_succ]
    split
    · exact List.filter_sublist
    · exact (iterate_sublist fuel _).trans List.filter_sublist

/-- **The fuel suffices.** With more rounds than candidates, the iteration ends on a
round that removes nobody: every survivor is supported by the survivors. -/
theorem iterate_stable : ∀ (fuel : ℕ) (l : List α), l.length < fuel →
    ∀ x ∈ iterate keep fuel l, keep (iterate keep fuel l) x = true
  | 0, _, hfuel => absurd hfuel (Nat.not_lt_zero _)
  | fuel + 1, l, hfuel => by
    rw [iterate_succ]
    split
    · next hlen =>
      -- the round kept everyone, so the survivors are the candidates it filtered
      have heq := filter_eq_self_of_length hlen
      intro x hx
      rw [heq]
      exact (List.mem_filter.mp hx).2
    · next hlen =>
      exact iterate_stable fuel _ (by have := length_filter_lt hlen; omega)

/-- **More fuel changes nothing** once there are more rounds than candidates. -/
theorem iterate_fuel : ∀ (fuel fuel' : ℕ) (l : List α), l.length < fuel → fuel ≤ fuel' →
    iterate keep fuel' l = iterate keep fuel l
  | 0, _, _, hfuel, _ => absurd hfuel (Nat.not_lt_zero _)
  | _ + 1, 0, _, _, hle => absurd hle (Nat.not_succ_le_zero _)
  | fuel + 1, fuel' + 1, l, hfuel, hle => by
    rw [iterate_succ, iterate_succ]
    split
    · rfl
    · next hlen =>
      exact iterate_fuel fuel fuel' _ (by have := length_filter_lt hlen; omega) (by omega)

/-- **Every self-supporting part survives.** If `keep` is monotone in the candidates,
a part `Q` of the start whose every element is supported by `Q` stays among the
candidates through every round. -/
theorem subset_iterate
    (hmono : ∀ {l l' : List α} {x : α}, l ⊆ l' → keep l x = true → keep l' x = true)
    {Q : List α} (hQ : ∀ x ∈ Q, keep Q x = true) :
    ∀ (fuel : ℕ) (l : List α), Q ⊆ l → Q ⊆ iterate keep fuel l
  | 0, _, hsub => hsub
  | fuel + 1, l, hsub => by
    -- one round keeps `Q`: each of its elements is supported by `Q`, hence by `l`
    have hround : Q ⊆ l.filter (keep l) := fun x hx =>
      List.mem_filter.mpr ⟨hsub hx, hmono hsub (hQ x hx)⟩
    rw [iterate_succ]
    split
    · exact hround
    · exact subset_iterate hmono hQ fuel _ hround

end Shrink

end HcnetCore
