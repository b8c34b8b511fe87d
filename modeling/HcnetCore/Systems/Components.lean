import Mathlib.Logic.Relation

/-!
# Strongly connected components of a relation

Two elements are strongly connected under a relation `r` when each reaches the other by
zero or more `r`-steps. This is an equivalence relation (`StronglyConnected.refl`,
`.symm`, `.trans`), and its classes are the strongly connected components of the graph
`r` describes; `StronglyConnected.congr_left` says that strongly connected elements have
the same component.

Graph algorithms are proved by closure arguments: a set that every edge out of it
leaves only into the set holds everything reachable from it (`reflTransGen_closed`).
Two descriptions of one graph are related by simulation: a relation between their
nodes that matches every step of the one by a step of the other matches every run
(`reflTransGen_simulation`).
-/

namespace HcnetCore

variable {α : Type*} {r : α → α → Prop}

/-- **Closed predicates.** A predicate that every `r`-step keeps holds at everything
reachable from where it holds. -/
theorem reflTransGen_closed {P : α → Prop} (hP : ∀ x y, P x → r x y → P y) {x y : α}
    (h : Relation.ReflTransGen r x y) (hx : P x) : P y := by
  induction h with
  | refl => exact hx
  | tail _ hbc ih => exact hP _ _ ih hbc

/-- **Simulation.** If every `r`-step from an element related by `R` to `b` is matched by an
`s`-step from `b` to an element related to its target, then so is every run of
`r`-steps. -/
theorem reflTransGen_simulation {β : Type*} {s : β → β → Prop} {R : α → β → Prop}
    (hsim : ∀ a a' b, R a b → r a a' → ∃ b', R a' b' ∧ s b b') {a a' : α}
    (h : Relation.ReflTransGen r a a') {b : β} (hab : R a b) :
    ∃ b', R a' b' ∧ Relation.ReflTransGen s b b' := by
  induction h with
  | refl => exact ⟨b, hab, .refl⟩
  | tail _ hcd ih =>
    obtain ⟨b₁, hR, hs⟩ := ih
    obtain ⟨b₂, hR', hs'⟩ := hsim _ _ b₁ hR hcd
    exact ⟨b₂, hR', hs.tail hs'⟩

variable (r) in
/-- `x` and `y` are strongly connected under `r`: each reaches the other. -/
def StronglyConnected (x y : α) : Prop :=
  Relation.ReflTransGen r x y ∧ Relation.ReflTransGen r y x

namespace StronglyConnected

variable {x y z : α}

theorem refl (x : α) : StronglyConnected r x x :=
  ⟨Relation.ReflTransGen.refl, Relation.ReflTransGen.refl⟩

theorem symm (h : StronglyConnected r x y) : StronglyConnected r y x := ⟨h.2, h.1⟩

theorem trans (h : StronglyConnected r x y) (h' : StronglyConnected r y z) :
    StronglyConnected r x z :=
  ⟨h.1.trans h'.1, h'.2.trans h.2⟩

/-- Strongly connected elements have the same component. -/
theorem congr_left (h : StronglyConnected r x y) :
    StronglyConnected r x z ↔ StronglyConnected r y z :=
  ⟨h.symm.trans, h.trans⟩

end StronglyConnected

end HcnetCore
