import Mathlib.Logic.Basic

/-!
# Specifications of computations that may throw

The entry points of the modelled components are functions into `Except ε α`: they
either return a value or end in an exception. Most properties proved about them
have the same shape — *if the call throws, the exception is one of the allowed
ones; if it returns, the result satisfies a postcondition* — and most proofs walk
through a `do` block one bind at a time.

`Except.Spec allowed post res` is that shape, and this module gives its rules:

* `Except.Spec.pure` / `Except.Spec.throw` for the leaves of a `do` block;
* `Except.Spec.bind` — the sequencing rule: a specification of the first
  computation whose postcondition establishes the precondition of the rest;
* `Except.Spec.ite` — a conditional whose two branches meet the specification, and
  `Except.Spec.ite_bind` for one whose branches continue in a common join point;
* `Except.Spec.mono` — weakening of the postcondition and of the allowed errors;
* `Except.Spec.ok_iff` / `Except.Spec.not_error` — reading a specification back as
  statements about `= .ok a` and `≠ .error e`.

For proofs that run a computation forward instead, `Except.ok_bind`, `Except.error_bind`
and `Except.pure_eq_ok` evaluate a `do` block one bind at a time, and
`Except.bind_eq_ok` is the inversion rule of a bind that returned (`Except.ite_bind_eq_ok`
of one in both branches of an `if`, `Except.guard_eq_ok` of a guard that throws), and
`Except.foldlM_eq_ok` runs a loop whose every step returns.
-/

namespace Except

universe u v

variable {ε : Type u} {α β : Type v}

@[simp] theorem ok_bind {a : α} {f : α → Except ε β} : (Except.ok a >>= f) = f a := rfl

@[simp] theorem error_bind {e : ε} {f : α → Except ε β} :
    (Except.error e >>= f) = Except.error e := rfl

@[simp] theorem pure_eq_ok {a : α} : (pure a : Except ε α) = .ok a := rfl

/-- **Inversion of a bind that returned**: its first computation returned too. -/
theorem bind_eq_ok {x : Except ε α} {f : α → Except ε β} {b : β} :
    (x >>= f) = .ok b ↔ ∃ a, x = .ok a ∧ f a = .ok b := by
  cases x with
  | error e => simp
  | ok a => simp

/-- Inversion of a guard `if c then throw e` that returned: the condition failed, and
the rest of the block (the join point the `do` elaborator leaves) returned. -/
theorem guard_eq_ok {c : Prop} [Decidable c] {e : ε} {f : PUnit → Except ε β} {b : β}
    (h : (if c then (throw e : Except ε PUnit) >>= f else f ⟨⟩) = .ok b) :
    ¬c ∧ f ⟨⟩ = .ok b := by
  by_cases hc : c
  · rw [if_pos hc] at h
    cases h
  · rw [if_neg hc] at h
    exact ⟨hc, h⟩

/-- Inversion of a bind in both branches of an `if`, as the `do` elaborator leaves a
block whose branches continue in a common join point. -/
theorem ite_bind_eq_ok {c : Prop} [Decidable c] {x y : Except ε α} {f : α → Except ε β} {b : β}
    (h : (if c then x >>= f else y >>= f) = .ok b) :
    ∃ a, (if c then x else y) = .ok a ∧ f a = .ok b := by
  by_cases hc : c
  · rw [if_pos hc] at h ⊢
    exact bind_eq_ok.mp h
  · rw [if_neg hc] at h ⊢
    exact bind_eq_ok.mp h

/-- **A loop whose every step returns** returns the pure loop: `foldlM f` over `l` is
`foldl g`, where `f` returns what `g` computes at each member of `l`. -/
theorem foldlM_eq_ok {f : β → α → Except ε β} {g : β → α → β} :
    ∀ {l : List α}, (∀ a ∈ l, ∀ b, f b a = .ok (g b a)) → ∀ b, l.foldlM f b = .ok (l.foldl g b)
  | [], _, _ => rfl
  | a :: l, h, b => by
    rw [List.foldlM_cons, h a (List.mem_cons_self ..) b, ok_bind, List.foldl_cons,
      foldlM_eq_ok (fun x hx => h x (List.mem_cons_of_mem a hx))]

/-- The specification of a computation that may throw: an exception it ends in is
`allowed`, a value it returns satisfies `post`. -/
def Spec (allowed : ε → Prop) (post : α → Prop) : Except ε α → Prop
  | .ok a => post a
  | .error e => allowed e

namespace Spec

variable {allowed : ε → Prop} {post : α → Prop}

@[simp] theorem ok_iff {a : α} : Spec allowed post (.ok a) ↔ post a := Iff.rfl

@[simp] theorem error_iff {e : ε} : Spec allowed post (.error e : Except ε α) ↔ allowed e :=
  Iff.rfl

theorem pure {a : α} (h : post a) : Spec allowed post (Pure.pure a) := h

theorem throw {e : ε} (h : allowed e) : Spec allowed post (MonadExcept.throw e : Except ε α) :=
  h

/-- **The sequencing rule.** -/
theorem bind {post' : β → Prop} {x : Except ε α} {f : α → Except ε β}
    (hx : Spec allowed post x) (hf : ∀ a, post a → Spec allowed post' (f a)) :
    Spec allowed post' (x >>= f) := by
  cases x with
  | error e => exact hx
  | ok a => exact hf a hx

theorem ite {c : Prop} [Decidable c] {x y : Except ε α}
    (hx : c → Spec allowed post x) (hy : ¬ c → Spec allowed post y) :
    Spec allowed post (if c then x else y) := by
  by_cases h : c
  · rw [if_pos h]; exact hx h
  · rw [if_neg h]; exact hy h

/-- A conditional whose two branches continue in the same computation `k`: the shape a
`do` block with an `if` in the middle compiles to (`k` is its join point). -/
theorem ite_bind {post' : β → Prop} {c : Prop} [Decidable c] {x y : Except ε α}
    {k : α → Except ε β} (hx : c → Spec allowed post x) (hy : ¬ c → Spec allowed post y)
    (hk : ∀ a, post a → Spec allowed post' (k a)) :
    Spec allowed post' (if c then x >>= k else y >>= k) :=
  ite (fun h => bind (hx h) hk) (fun h => bind (hy h) hk)

theorem mono {allowed' : ε → Prop} {post' : α → Prop} {x : Except ε α}
    (hx : Spec allowed post x) (ha : ∀ e, allowed e → allowed' e) (hp : ∀ a, post a → post' a) :
    Spec allowed' post' x := by
  cases x with
  | error e => exact ha e hx
  | ok a => exact hp a hx

/-- A returned value satisfies the postcondition. -/
theorem post_of_eq_ok {x : Except ε α} {a : α} (hx : Spec allowed post x) (h : x = .ok a) :
    post a := by
  subst h; exact hx

/-- A computation that meets a specification does not end in a forbidden error. -/
theorem not_error {x : Except ε α} {e : ε} (hx : Spec allowed post x) (he : ¬ allowed e) :
    x ≠ .error e := by
  rintro rfl; exact he hx

end Spec

end Except
