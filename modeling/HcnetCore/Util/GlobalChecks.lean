import Mathlib.Logic.Basic

/-!
# Assertions that stop the node (`util/GlobalChecks.h`)

`releaseAssert(e)` prints `e` and aborts the process when `e` is false, in every
build. A modelled call therefore ends in one of three ways: it returns, it throws an
exception, or it aborts. `Failure` keeps the last two apart, because an abort
crashes the node while an exception is seen by the caller.
-/

namespace HcnetCore

/-- How a call ends when it does not return. -/
inductive Failure
  /-- A `releaseAssert` failed: the process prints the assertion and aborts. -/
  | abort (assertion : String)
  /-- An exception left the call with this message. -/
  | exception (what : String)
deriving DecidableEq, Repr

/-- `releaseAssert(e)`, where `assertion` is the text of `e`. -/
def releaseAssert (c : Prop) [Decidable c] (assertion : String) : Except Failure Unit :=
  if c then pure () else throw (.abort assertion)

@[simp] theorem releaseAssert_bind {β : Type} {c : Prop} [Decidable c] {s : String}
    {f : Unit → Except Failure β} :
    releaseAssert c s >>= f = if c then f () else .error (.abort s) := by
  unfold releaseAssert
  split <;> rfl

end HcnetCore
