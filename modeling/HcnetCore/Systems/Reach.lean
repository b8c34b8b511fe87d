import Mathlib.Logic.Relation

/-!
# Labelled transition systems and their runs

The stateful components of this development are all modelled the same way: an
initial state and a labelled step relation `step s a s'`, where the label `a` names
the entry point that was called. They are a slot's nomination state
(`Scp.NominationProtocol.slotSystem`: `processEnvelope`, `nominate`,
`stopNomination`), a liquidity pool (`LiquidityPool.poolSystem`: deposits,
withdrawals, redemptions and trades), the transaction queue under `tryAdd`
(`Herder.queueSystem`), and the two peers of a flow-controlled connection
(`FlowControl.flowControl`: sends, reads, and the delivery of `SEND_MORE`).

This module fixes the vocabulary once:

* `System.Reachable` — the states a run from the initial state can reach;
* `System.Reachable.induction` — the invariant rule: an invariant that holds
  initially and is preserved by every step from a reachable state holds in every
  reachable state;
* `System.Follows` — two states of one run, the second one at or after the first;
* `System.Follows.of_step` — a reflexive and transitive relation that every single
  step respects holds between any earlier and any later state of a run. This is the
  form in which "only grows" and "only moves forward" statements are proved.
-/

namespace HcnetCore

/-- A labelled transition system: an initial state and a step relation. -/
structure System (σ α : Type*) where
  /-- The state every run starts from. -/
  init : σ
  /-- `step s a s'`: calling entry point `a` in state `s` can end in state `s'`. -/
  step : σ → α → σ → Prop

namespace System

variable {σ α : Type*} (sys : System σ α)

/-- One step of the system, under any label. -/
def Next (s s' : σ) : Prop := ∃ a, sys.step s a s'

/-- The states that some finite run from the initial state ends in. -/
def Reachable (s : σ) : Prop := Relation.ReflTransGen sys.Next sys.init s

/-- `t` is reached from `s` by zero or more steps. -/
def Follows (s t : σ) : Prop := Relation.ReflTransGen sys.Next s t

variable {sys}

theorem Reachable.init : sys.Reachable sys.init := Relation.ReflTransGen.refl

theorem Reachable.step {s s' : σ} {a : α} (h : sys.Reachable s) (hs : sys.step s a s') :
    sys.Reachable s' :=
  Relation.ReflTransGen.tail h ⟨a, hs⟩

/-- A state that follows a reachable state is reachable. -/
theorem Reachable.follows {s t : σ} (h : sys.Reachable s) (hst : sys.Follows s t) :
    sys.Reachable t :=
  Relation.ReflTransGen.trans h hst

/-- **The invariant rule.** A predicate that holds initially and is preserved by
every step taken from a reachable state holds in every reachable state. The step
obligation may use that the pre-state is reachable, so invariants already proved
can be assumed there. -/
theorem Reachable.induction {P : σ → Prop} (h0 : P sys.init)
    (hstep : ∀ s a s', sys.Reachable s → P s → sys.step s a s' → P s')
    {s : σ} (h : sys.Reachable s) : P s := by
  induction h with
  | refl => exact h0
  | tail hr hn ih =>
    obtain ⟨a, ha⟩ := hn
    exact hstep _ a _ hr ih ha

/-- **Monotonicity along runs.** A reflexive and transitive relation that relates
the two ends of every step from a reachable state relates any reachable state to
every state that follows it. -/
theorem Follows.of_step {R : σ → σ → Prop} (hrefl : ∀ s, R s s)
    (htrans : ∀ s t u, R s t → R t u → R s u)
    (hstep : ∀ s a s', sys.Reachable s → sys.step s a s' → R s s')
    {s t : σ} (hs : sys.Reachable s) (hst : sys.Follows s t) : R s t := by
  induction hst with
  | refl => exact hrefl s
  | tail hsu hn ih =>
    obtain ⟨a, ha⟩ := hn
    exact htrans _ _ _ ih (hstep _ a _ (hs.follows hsu) ha)

/-- A single step is a run of length one. -/
theorem Follows.single {s s' : σ} {a : α} (hs : sys.step s a s') : sys.Follows s s' :=
  Relation.ReflTransGen.single ⟨a, hs⟩

end System

end HcnetCore
