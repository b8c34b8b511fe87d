import Mathlib.Tactic.Linarith
import Mathlib.Tactic.NormNum
import Mathlib.Tactic.Positivity
import Mathlib.Data.Rat.Floor
import HcnetCore.Arith.Division
import HcnetCore.Arith.NewtonSqrt
import HcnetCore.Systems.ExceptSpec

/-!
# Checked wide arithmetic (`util/numeric.cpp`, `util/types.cpp`)

The ledger's amounts are `int64_t`; products of two amounts are formed in
`uint128_t` and divided back down, with every overflow reported to the caller as a
`false` result and every broken precondition as an exception (`releaseAssertOrThrow`).
This module models those helpers over `ℤ` and `ℕ`:

* `int64_t` values are integers, `uint64_t` and `uint128_t` values naturals. The
  casts the code makes between them are `Int.toNat` after an assertion that the value
  is non-negative, so they lose nothing; the 128-bit products and sums never wrap for
  64-bit operands, so exact arithmetic computes what the code computes;
* a helper that returns `bool` and writes its result through a reference returns
  `Option`: `some r` for `true` with result `r`, `none` for `false`;
* an exception is an `Except String` error carrying the message the code throws.

The loop of `bigSquareRootCeil` runs on fuel; `bigSquareRoot_eq` proves that the fuel
it is given suffices, that the loop never reports an overflow on 64-bit operands and
that the result is `Nat.sqrt (a * b)`.
-/

namespace HcnetCore

namespace Numeric

open Arith

/-- `INT64_MAX`. -/
def INT64_MAX : ℤ := 9223372036854775807

/-- `INT32_MAX`. -/
def INT32_MAX : ℤ := 2147483647

/-- `UINT64_MAX`. -/
def UINT64_MAX : ℕ := 18446744073709551615

/-- `UINT32_MAX`. -/
def UINT32_MAX : ℕ := 4294967295

/-- `uint128_max()`. -/
def UINT128_MAX : ℕ := 2 ^ 128 - 1

/-- The rounding direction of a division. -/
inductive Rounding
  | ROUND_DOWN
  | ROUND_UP
deriving DecidableEq, Repr

/-- The quotient a division rounds to: the specification of the helpers below. -/
def Rounding.div : Rounding → ℕ → ℕ → ℕ
  | .ROUND_DOWN, n, d => n / d
  | .ROUND_UP, n, d => ceilDiv n d

/-- `releaseAssertOrThrow(e)`: throws a `runtime_error` with the text of `e`. -/
def releaseAssertOrThrow (c : Prop) [Decidable c] (text : String) : Except String Unit :=
  if c then pure () else throw text

/-- `bigDivideUnsigned(result, A, B, C, rounding)`: `A * B / C` in 128 bits. -/
def bigDivideUnsigned (A B C : ℕ) (rounding : Rounding) : Except String (Option ℕ) := do
  releaseAssertOrThrow (C > 0) "C > 0"
  let x := if rounding = .ROUND_DOWN then A * B / C else (A * B + C - 1) / C
  pure (if x ≤ UINT64_MAX then some x else none)

/-- `bigDivide(result, A, B, C, rounding)`: `A * B / C` for non-negative `int64_t`s,
`false` when the quotient does not fit in `int64_t`. -/
def bigDivide (A B C : ℤ) (rounding : Rounding) : Except String (Option ℤ) := do
  releaseAssertOrThrow (A ≥ 0 ∧ B ≥ 0 ∧ C > 0) "(A >= 0) && (B >= 0) && (C > 0)"
  let r2 ← bigDivideUnsigned A.toNat B.toNat C.toNat rounding
  pure <| match r2 with
    | some r2 => if (r2 : ℤ) ≤ INT64_MAX then some (r2 : ℤ) else none
    | none => none

/-- `bigDivideOrThrow(A, B, C, rounding)`. -/
def bigDivideOrThrow (A B C : ℤ) (rounding : Rounding) : Except String ℤ := do
  match ← bigDivide A B C rounding with
  | some res => pure res
  | none => throw "overflow while performing bigDivide"

/-- `bigDivideUnsigned128(result, a, B, rounding)`: a 128-bit numerator divided by a
64-bit denominator. Rounding up first checks that `a + B - 1` does not wrap. -/
def bigDivideUnsigned128 (a B : ℕ) (rounding : Rounding) : Except String (Option ℕ) := do
  releaseAssertOrThrow (B ≠ 0) "B != 0"
  if rounding = .ROUND_UP ∧ a > UINT128_MAX - (B - 1) then
    pure none
  else
    let x := if rounding = .ROUND_DOWN then a / B else (a + B - 1) / B
    pure (if x ≤ UINT64_MAX then some x else none)

/-- `bigDivide128(result, a, B, rounding)`: `bigDivideUnsigned128` for a positive
`int64_t` denominator, failing when the quotient does not fit an `int64_t`. -/
def bigDivide128 (a : ℕ) (B : ℤ) (rounding : Rounding) : Except String (Option ℤ) := do
  releaseAssertOrThrow (B > 0) "B > 0"
  let r2 ← bigDivideUnsigned128 a B.toNat rounding
  pure (match r2 with
    | some r2 => if (r2 : ℤ) ≤ INT64_MAX then some (r2 : ℤ) else none
    | none => none)

/-- `bigDivideOrThrow128(a, B, rounding)`. -/
def bigDivideOrThrow128 (a : ℕ) (B : ℤ) (rounding : Rounding) : Except String ℤ := do
  match ← bigDivide128 a B rounding with
  | some res => pure res
  | none => throw "overflow while performing bigDivide"

/-- `bigMultiplyUnsigned(a, b)`: the 128-bit product of two 64-bit words. -/
def bigMultiplyUnsigned (a b : ℕ) : ℕ := a * b

/-- `bigMultiply(a, b)` for non-negative `int64_t`s. -/
def bigMultiply (a b : ℤ) : Except String ℕ := do
  releaseAssertOrThrow (a ≥ 0 ∧ b ≥ 0) "(a >= 0) && (b >= 0)"
  pure (bigMultiplyUnsigned a.toNat b.toNat)

/-- `uint128_bits(x)`: the bit length of a 128-bit word. -/
def uint128_bits (x : ℕ) : ℕ := bitLength 128 x

/-- The loop of `bigSquareRootCeil`: `while (x != prev)` one step of the integer
Babylonian iteration on `R`, with `prev` the previous estimate. It runs on `fuel`;
running out of it is the model's own error, which `bigSquareRoot_eq` shows is never
reached. -/
def bigSquareRootCeilLoop (R : ℕ) : ℕ → ℕ → ℕ → Except String ℕ
  | 0, _, _ => throw "bigSquareRoot loop out of fuel"
  | fuel + 1, x, prev =>
    if x = prev then pure x
    else do
      match ← bigDivideUnsigned128 R x .ROUND_UP with
      | none => throw "Overflow during bigSquareRoot"
      | some y =>
        -- the code adds in 128 bits when `x + y + 1` would wrap 64 bits
        let x' := if UINT64_MAX - x ≤ y then (1 + x + y) / 2 else (x + y + 1) / 2
        bigSquareRootCeilLoop R fuel x' x

/-- `bigSquareRootCeil(a, b)`: `⌈√(a b)⌉`, by the iteration started at a power of two
above the root. The loop is given one more round than its starting estimate. -/
def bigSquareRootCeil (a b : ℕ) : Except String ℕ :=
  if a = 0 ∨ b = 0 then pure 0
  else
    let R := bigMultiplyUnsigned a b - 1
    let numBits := uint128_bits R / 2 + 1
    let x := if numBits ≥ 64 then UINT64_MAX else 2 ^ numBits
    bigSquareRootCeilLoop R (x + 1) x 0

/-- `bigSquareRoot(a, b)`: `⌊√(a b)⌋`, corrected down from the ceiling. -/
def bigSquareRoot (a b : ℕ) : Except String ℕ := do
  let sqrtCeil ← bigSquareRootCeil a b
  if bigMultiplyUnsigned sqrtCeil sqrtCeil ≤ bigMultiplyUnsigned a b then pure sqrtCeil
  else pure (sqrtCeil - 1)

/-- `hugeDivide(result, a, B, C, rounding)`: `a * B / C` for a 32-bit `a` and 128-bit
`B`, `C`, computed as `a Q + a R / C` from `B = Q C + R` so that nothing wraps. -/
def hugeDivide (a : ℤ) (B C : ℕ) (rounding : Rounding) : Except String (Option ℤ) := do
  let i32_max : ℕ := INT32_MAX.toNat
  let i64_max : ℕ := INT64_MAX.toNat
  releaseAssertOrThrow (a ≥ 0) "a >= 0"
  releaseAssertOrThrow (C ≠ 0) "C != 0ul"
  releaseAssertOrThrow (C ≤ i32_max * i64_max) "C <= i32_max * i64_max"
  let Q := B / C
  let R := B % C
  if Q > i64_max then
    pure none
  else
    let A := a.toNat
    let res := if rounding = .ROUND_DOWN then A * Q + A * R / C else A * Q + (A * R + C - 1) / C
    pure (if res ≤ i64_max then some (res : ℤ) else none)

/-- `addBalance(balance, delta, maxBalance)` of `util/types.cpp`: `balance + delta`
when it stays within `[0, maxBalance]` (always when `delta = 0`), `false` otherwise. -/
def addBalance (balance delta : ℤ) (maxBalance : ℤ := INT64_MAX) : Except String (Option ℤ) := do
  releaseAssertOrThrow (balance ≥ 0) "balance >= 0"
  releaseAssertOrThrow (maxBalance ≥ 0) "maxBalance >= 0"
  pure <|
    if delta = 0 then some balance
    else if delta < -balance then none
    else if maxBalance - balance < delta then none
    else some (balance + delta)

/-! ### Specifications -/

@[simp] theorem INT64_MAX_toNat : INT64_MAX.toNat = 9223372036854775807 := rfl

@[simp] theorem INT32_MAX_toNat : INT32_MAX.toNat = 2147483647 := rfl

theorem INT64_MAX_le_UINT64_MAX : INT64_MAX ≤ (UINT64_MAX : ℤ) := by decide

@[simp] theorem releaseAssertOrThrow_bind {c : Prop} [Decidable c] {text : String} {α : Type}
    {k : Unit → Except String α} :
    (releaseAssertOrThrow c text >>= k) = if c then k () else .error text := by
  unfold releaseAssertOrThrow
  split <;> rfl

theorem Rounding.div_down (n d : ℕ) : Rounding.ROUND_DOWN.div n d = n / d := rfl

theorem Rounding.div_up (n d : ℕ) : Rounding.ROUND_UP.div n d = ceilDiv n d := rfl

/-- The two formulas of the helpers are the rounded quotient. -/
theorem Rounding.div_eq (r : Rounding) (n d : ℕ) :
    (if r = .ROUND_DOWN then n / d else (n + d - 1) / d) = r.div n d := by
  cases r <;> rfl

/-- A quotient rounded down is below the exact value, one rounded up above it. -/
theorem Rounding.div_mul_le (n d : ℕ) : Rounding.ROUND_DOWN.div n d * d ≤ n :=
  Nat.div_mul_le_self n d

theorem Rounding.le_div_mul {n d : ℕ} (hd : 0 < d) : n ≤ Rounding.ROUND_UP.div n d * d := by
  rw [Nat.mul_comm]
  exact le_mul_ceilDiv hd

theorem bigDivideUnsigned_eq {A B C : ℕ} (hC : 0 < C) (r : Rounding) :
    bigDivideUnsigned A B C r =
      .ok (if r.div (A * B) C ≤ UINT64_MAX then some (r.div (A * B) C) else none) := by
  simp only [bigDivideUnsigned, releaseAssertOrThrow_bind, if_pos hC, Rounding.div_eq]
  rfl

/-- **`bigDivide` is the rounded quotient when that fits in `int64_t`.** -/
theorem bigDivide_eq {A B C : ℤ} (hA : 0 ≤ A) (hB : 0 ≤ B) (hC : 0 < C) (r : Rounding) :
    bigDivide A B C r =
      .ok (if (r.div (A.toNat * B.toNat) C.toNat : ℤ) ≤ INT64_MAX
        then some (r.div (A.toNat * B.toNat) C.toNat : ℤ) else none) := by
  have hC' : 0 < C.toNat := by omega
  simp only [bigDivide, releaseAssertOrThrow_bind, if_pos (And.intro hA (And.intro hB hC)),
    bigDivideUnsigned_eq hC', Except.ok_bind, Except.pure_eq_ok]
  by_cases hx : r.div (A.toNat * B.toNat) C.toNat ≤ UINT64_MAX
  · simp only [if_pos hx]
  · -- a quotient beyond `UINT64_MAX` is beyond `INT64_MAX` too
    have hx' : ¬ ((r.div (A.toNat * B.toNat) C.toNat : ℕ) : ℤ) ≤ INT64_MAX := by
      have := INT64_MAX_le_UINT64_MAX
      omega
    simp only [if_neg hx, if_neg hx']

/-- **What a successful `bigDivide` returns**: its preconditions held, and the result
is the rounded quotient, within `int64_t`. -/
theorem bigDivide_spec {A B C r : ℤ} {rd : Rounding} (h : bigDivide A B C rd = .ok (some r)) :
    0 ≤ A ∧ 0 ≤ B ∧ 0 < C ∧ r = (rd.div (A.toNat * B.toNat) C.toNat : ℕ) ∧ r ≤ INT64_MAX := by
  by_cases hpre : A ≥ 0 ∧ B ≥ 0 ∧ C > 0
  · obtain ⟨hA, hB, hC⟩ := hpre
    rw [bigDivide_eq hA hB hC] at h
    split_ifs at h with hfit
    · cases h
      exact ⟨hA, hB, hC, rfl, hfit⟩
    · cases h
  · simp only [bigDivide, releaseAssertOrThrow_bind, if_neg hpre] at h
    cases h

/-- The exact product, read back from the natural numbers `bigDivide` works on. -/
theorem toNat_mul_cast {A B : ℤ} (hA : 0 ≤ A) (hB : 0 ≤ B) :
    ((A.toNat * B.toNat : ℕ) : ℤ) = A * B := by
  push_cast
  rw [Int.toNat_of_nonneg hA, Int.toNat_of_nonneg hB]

/-- A successful rounded-down `bigDivide` is the exact quotient rounded down: at most
it, and less than one below it. -/
theorem bigDivide_down_spec {A B C r : ℤ} (h : bigDivide A B C .ROUND_DOWN = .ok (some r)) :
    0 ≤ r ∧ r * C ≤ A * B ∧ A * B < (r + 1) * C ∧ r ≤ INT64_MAX := by
  obtain ⟨hA, hB, hC, rfl, hfit⟩ := bigDivide_spec h
  have hle : ((Rounding.ROUND_DOWN.div (A.toNat * B.toNat) C.toNat * C.toNat : ℕ) : ℤ) ≤
      ((A.toNat * B.toNat : ℕ) : ℤ) := by
    exact_mod_cast Rounding.div_mul_le (A.toNat * B.toNat) C.toNat
  have hlt : ((A.toNat * B.toNat : ℕ) : ℤ) <
      ((Rounding.ROUND_DOWN.div (A.toNat * B.toNat) C.toNat * C.toNat + C.toNat : ℕ) : ℤ) := by
    exact_mod_cast Nat.lt_div_mul_add (a := A.toNat * B.toNat) (b := C.toNat) (by omega)
  rw [toNat_mul_cast hA hB, Nat.cast_mul, Int.toNat_of_nonneg hC.le] at hle
  rw [toNat_mul_cast hA hB, Nat.cast_add, Nat.cast_mul, Int.toNat_of_nonneg hC.le] at hlt
  exact ⟨by positivity, hle, by linarith, hfit⟩

/-- A successful rounded-up `bigDivide` is at least the exact quotient. -/
theorem bigDivide_up_spec {A B C r : ℤ} (h : bigDivide A B C .ROUND_UP = .ok (some r)) :
    0 ≤ r ∧ A * B ≤ r * C ∧ r ≤ INT64_MAX := by
  obtain ⟨hA, hB, hC, rfl, hfit⟩ := bigDivide_spec h
  have hle : ((A.toNat * B.toNat : ℕ) : ℤ) ≤
      ((Rounding.ROUND_UP.div (A.toNat * B.toNat) C.toNat * C.toNat : ℕ) : ℤ) := by
    exact_mod_cast Rounding.le_div_mul (n := A.toNat * B.toNat) (d := C.toNat) (by omega)
  rw [toNat_mul_cast hA hB, Nat.cast_mul, Int.toNat_of_nonneg hC.le] at hle
  exact ⟨by positivity, hle, hfit⟩

/-- A rounded-down `bigDivide` that reports an overflow had a quotient beyond
`int64_t`: every `int64_t` value times `C` is at most `A B`. -/
theorem bigDivide_down_none_spec {A B C s : ℤ} (hA : 0 ≤ A) (hB : 0 ≤ B) (hC : 0 < C)
    (h : bigDivide A B C .ROUND_DOWN = .ok none) (hs : s ≤ INT64_MAX) : s * C ≤ A * B := by
  rw [bigDivide_eq hA hB hC] at h
  split_ifs at h with hfit
  · cases h
  -- `s ≤ INT64_MAX < q`, and `q C ≤ A B`
  have hq : ((Rounding.ROUND_DOWN.div (A.toNat * B.toNat) C.toNat * C.toNat : ℕ) : ℤ) ≤
      ((A.toNat * B.toNat : ℕ) : ℤ) := by
    exact_mod_cast Rounding.div_mul_le (A.toNat * B.toNat) C.toNat
  rw [toNat_mul_cast hA hB, Nat.cast_mul, Int.toNat_of_nonneg hC.le] at hq
  calc s * C ≤ (Rounding.ROUND_DOWN.div (A.toNat * B.toNat) C.toNat : ℕ) * C :=
        mul_le_mul_of_nonneg_right (by omega) hC.le
    _ ≤ A * B := hq

/-- A rounded-down `bigDivide` of `A B / C` with `A ≤ C` fits in `int64_t` when `B`
does. -/
theorem bigDivide_down_isSome {A B C : ℤ} (hA : 0 ≤ A) (hB : 0 ≤ B) (hBmax : B ≤ INT64_MAX)
    (hC : 0 < C) (hAC : A ≤ C) : ∃ q, bigDivide A B C .ROUND_DOWN = .ok (some q) := by
  have hle : Rounding.ROUND_DOWN.div (A.toNat * B.toNat) C.toNat ≤ B.toNat := by
    apply Nat.div_le_of_le_mul
    exact Nat.mul_le_mul_right _ (by omega)
  exact ⟨_, by rw [bigDivide_eq hA hB hC, if_pos (by omega)]⟩

/-- A rounded-up `bigDivide` of `A B / C` fits in `int64_t` when `A B ≤ C m` for an
`int64_t` value `m`. -/
theorem bigDivide_up_isSome {A B C m : ℤ} (hA : 0 ≤ A) (hB : 0 ≤ B) (hC : 0 < C)
    (hm : m ≤ INT64_MAX) (hle : A * B ≤ C * m) : ∃ r, bigDivide A B C .ROUND_UP = .ok (some r) := by
  have hm0 : 0 ≤ m := by
    by_contra hneg
    have : C * m < 0 := mul_neg_of_pos_of_neg hC (by omega)
    have : 0 ≤ A * B := mul_nonneg hA hB
    omega
  have hnat : A.toNat * B.toNat ≤ C.toNat * m.toNat := by
    have : ((A.toNat * B.toNat : ℕ) : ℤ) ≤ ((C.toNat * m.toNat : ℕ) : ℤ) := by
      rw [toNat_mul_cast hA hB, toNat_mul_cast hC.le hm0]
      exact hle
    exact_mod_cast this
  have hceil : Rounding.ROUND_UP.div (A.toNat * B.toNat) C.toNat ≤ m.toNat :=
    ceilDiv_le_of_le_mul (by omega) hnat
  exact ⟨_, by rw [bigDivide_eq hA hB hC, if_pos (by omega)]⟩

/-- `bigDivideOrThrow` returns what `bigDivide` returns, and throws only on a broken
precondition or an overflow. -/
theorem bigDivideOrThrow_eq_ok {A B C r : ℤ} {rd : Rounding} :
    bigDivideOrThrow A B C rd = .ok r ↔ bigDivide A B C rd = .ok (some r) := by
  unfold bigDivideOrThrow
  cases bigDivide A B C rd with
  | error e => simp [bind, Except.bind]
  | ok o => cases o <;> simp [bind, Except.bind, pure, Except.pure]

theorem bigMultiply_eq {a b : ℤ} (ha : 0 ≤ a) (hb : 0 ≤ b) :
    bigMultiply a b = .ok (a.toNat * b.toNat) := by
  simp only [bigMultiply, releaseAssertOrThrow_bind, if_pos (And.intro ha hb)]
  rfl

theorem bigMultiply_natCast (a b : ℕ) : bigMultiply (a : ℤ) (b : ℤ) = .ok (a * b) := by
  rw [bigMultiply_eq (Int.natCast_nonneg a) (Int.natCast_nonneg b), Int.toNat_natCast,
    Int.toNat_natCast]

/-- `bigMultiply` only returns the exact product. -/
theorem bigMultiply_spec {a b : ℤ} {n : ℕ} (h : bigMultiply a b = .ok n) :
    0 ≤ a ∧ 0 ≤ b ∧ (n : ℤ) = a * b := by
  unfold bigMultiply at h
  simp only [releaseAssertOrThrow_bind] at h
  split_ifs at h with hpre
  obtain ⟨ha, hb⟩ := hpre
  simp only [bigMultiplyUnsigned, Except.pure_eq_ok] at h
  cases h
  exact ⟨ha, hb, toNat_mul_cast ha hb⟩

/-- `bigMultiply` throws nothing but its assertion. -/
theorem bigMultiply_throws (a b : ℤ) :
    Except.Spec (· = "(a >= 0) && (b >= 0)") (fun _ => True) (bigMultiply a b) := by
  unfold bigMultiply
  simp only [releaseAssertOrThrow_bind]
  split_ifs <;> trivial

/-- **`hugeDivide` is the rounded quotient** when the quotient `B / C` and the result
fit in `int64_t`, by the quotient–remainder split of `Arith`. -/
theorem hugeDivide_eq {a : ℤ} {B C : ℕ} (ha : 0 ≤ a) (hC : 0 < C)
    (hCmax : C ≤ INT32_MAX.toNat * INT64_MAX.toNat) (r : Rounding) :
    hugeDivide a B C r =
      .ok (if B / C > INT64_MAX.toNat then none
        else if r.div (a.toNat * B) C ≤ INT64_MAX.toNat then some (r.div (a.toNat * B) C : ℤ)
        else none) := by
  simp only [hugeDivide, releaseAssertOrThrow_bind, if_pos ha, if_pos hC.ne', if_pos hCmax]
  by_cases hQ : B / C > INT64_MAX.toNat
  · simp only [if_pos hQ]
    rfl
  · -- the code's two formulas are the split forms of the rounded quotient
    have hsplit : (if r = .ROUND_DOWN then a.toNat * (B / C) + a.toNat * (B % C) / C
        else a.toNat * (B / C) + (a.toNat * (B % C) + C - 1) / C) = r.div (a.toNat * B) C := by
      cases r
      · exact mul_div_eq_split _ _ hC
      · exact ceilDiv_mul_eq_split _ _ hC
    simp only [if_neg hQ, hsplit]
    rfl

/-- A `hugeDivide` that does not throw had its three preconditions. -/
theorem hugeDivide_pre {a : ℤ} {B C : ℕ} {r : Rounding} {o : Option ℤ}
    (h : hugeDivide a B C r = .ok o) :
    0 ≤ a ∧ 0 < C ∧ C ≤ INT32_MAX.toNat * INT64_MAX.toNat := by
  simp only [hugeDivide, releaseAssertOrThrow_bind] at h
  by_cases h1 : a ≥ 0
  · by_cases h2 : C ≠ 0
    · by_cases h3 : C ≤ INT32_MAX.toNat * INT64_MAX.toNat
      · exact ⟨h1, Nat.pos_of_ne_zero h2, h3⟩
      · rw [if_pos h1, if_pos h2, if_neg h3] at h
        cases h
    · rw [if_pos h1, if_neg h2] at h
      cases h
  · rw [if_neg h1] at h
    cases h

/-- A successful `hugeDivide` is the rounded quotient. -/
theorem hugeDivide_spec {a : ℤ} {B C : ℕ} {r : Rounding} {res : ℤ}
    (h : hugeDivide a B C r = .ok (some res)) :
    0 ≤ a ∧ 0 < C ∧ res = (r.div (a.toNat * B) C : ℕ) := by
  obtain ⟨ha, hC, hCmax⟩ := hugeDivide_pre h
  rw [hugeDivide_eq ha hC hCmax] at h
  split_ifs at h <;> simp only [Except.ok.injEq, Option.some.injEq, reduceCtorEq] at h
  exact ⟨ha, hC, h.symm⟩

/-- A successful rounded-down `hugeDivide` is at most the exact quotient. -/
theorem hugeDivide_down_spec {a : ℤ} {B C : ℕ} {res : ℤ}
    (h : hugeDivide a B C .ROUND_DOWN = .ok (some res)) :
    0 ≤ res ∧ res * C ≤ a * B := by
  obtain ⟨ha, hC, rfl⟩ := hugeDivide_spec h
  have hle : ((Rounding.ROUND_DOWN.div (a.toNat * B) C * C : ℕ) : ℤ) ≤ ((a.toNat * B : ℕ) : ℤ) := by
    exact_mod_cast Rounding.div_mul_le (a.toNat * B) C
  push_cast at hle
  rw [Int.toNat_of_nonneg ha] at hle
  exact ⟨by positivity, hle⟩

/-- A successful rounded-up `hugeDivide` is at least the exact quotient. -/
theorem hugeDivide_up_spec {a : ℤ} {B C : ℕ} {res : ℤ}
    (h : hugeDivide a B C .ROUND_UP = .ok (some res)) :
    0 ≤ res ∧ a * B ≤ res * C := by
  obtain ⟨ha, hC, rfl⟩ := hugeDivide_spec h
  have hle : ((a.toNat * B : ℕ) : ℤ) ≤ ((Rounding.ROUND_UP.div (a.toNat * B) C * C : ℕ) : ℤ) := by
    exact_mod_cast Rounding.le_div_mul (n := a.toNat * B) hC
  push_cast at hle
  rw [Int.toNat_of_nonneg ha] at hle
  exact ⟨by positivity, hle⟩

/-! ### `bigSquareRoot` -/

/-- A successful `bigDivideUnsigned128` is the rounded quotient. -/
theorem bigDivideUnsigned128_spec {a B y : ℕ} {rd : Rounding}
    (h : bigDivideUnsigned128 a B rd = .ok (some y)) : y = rd.div a B := by
  simp only [bigDivideUnsigned128, releaseAssertOrThrow_bind, Rounding.div_eq] at h
  split_ifs at h <;> cases h
  rfl

/-- Rounding `R / x` up in 128 bits never overflows for a 64-bit `x` once `R` leaves
room for it, and gives `⌈R / x⌉`. -/
theorem bigDivideUnsigned128_up_eq {R x : ℕ} (hx : 0 < x) (hroom : R + x ≤ UINT128_MAX + 1)
    (hfit : ceilDiv R x ≤ UINT64_MAX) :
    bigDivideUnsigned128 R x .ROUND_UP = .ok (some (ceilDiv R x)) := by
  have hne : ¬ R > UINT128_MAX - (x - 1) := by omega
  simp only [bigDivideUnsigned128, releaseAssertOrThrow_bind, if_pos hx.ne', true_and, if_neg hne,
    Rounding.div_eq, Rounding.div_up, if_pos hfit, Except.pure_eq_ok]

/-- Both branches of the loop's update are the step of the iteration. -/
theorem loop_update_eq (R x y : ℕ) (hy : y = ceilDiv R x) :
    (if UINT64_MAX - x ≤ y then (1 + x + y) / 2 else (x + y + 1) / 2) = NewtonSqrt.step R x := by
  subst hy
  have h : 1 + x + ceilDiv R x = x + ceilDiv R x + 1 := by omega
  rw [NewtonSqrt.step, h, ite_self]

/-- **The loop of `bigSquareRootCeil` ends at a fixpoint of the iteration.** From an
estimate above the root that fits in 64 bits, with the fuel above the estimate, each
round decreases the estimate until it stops moving; no division overflows on the way. -/
theorem bigSquareRootCeilLoop_spec {R : ℕ} (hR : R + UINT64_MAX ≤ UINT128_MAX + 1) :
    ∀ fuel x prev, R + 1 ≤ x * x → x ≤ UINT64_MAX → (prev = 0 ∨ x = NewtonSqrt.step R prev) →
      0 < fuel → (x = prev ∨ x < fuel) →
      ∃ z, bigSquareRootCeilLoop R fuel x prev = .ok z ∧ R + 1 ≤ z * z ∧ NewtonSqrt.step R z = z
  | 0, _, _, _, _, _, hfuel, _ => absurd hfuel (lt_irrefl 0)
  | fuel + 1, x, prev, hsq, hx64, hprev, _, hmeasure => by
    have hpos : 0 < x := Nat.pos_of_ne_zero fun h => by simp [h] at hsq
    by_cases hstop : x = prev
    · -- the loop stops; `x` was computed as the step of `prev = x`
      subst hstop
      refine ⟨x, by simp [bigSquareRootCeilLoop], hsq, ?_⟩
      rcases hprev with h0 | hfix
      · exact absurd h0 hpos.ne'
      · exact hfix.symm
    · have hy := NewtonSqrt.ceilDiv_le hsq
      rw [bigSquareRootCeilLoop, if_neg hstop,
        bigDivideUnsigned128_up_eq hpos (by omega) (hy.trans hx64)]
      simp only [Except.ok_bind, loop_update_eq R x _ rfl]
      -- one round: the step stays above the root and does not increase
      have hle := NewtonSqrt.step_le hsq
      have hlt : x < fuel + 1 := by omega
      exact bigSquareRootCeilLoop_spec hR fuel (NewtonSqrt.step R x) x (NewtonSqrt.step_sq hsq)
        (hle.trans hx64) (Or.inr rfl) (by omega) (by omega)

/-- The starting estimate of `bigSquareRootCeil` is above the root: a power of two with
more than half the bits of `R`, or `UINT64_MAX` when that is too large. -/
theorem initial_estimate_sq {a b : ℕ} (ha : a ≤ UINT64_MAX) (hb : b ≤ UINT64_MAX)
    (hab : 0 < a * b) :
    let R := a * b - 1
    let numBits := uint128_bits R / 2 + 1
    R + 1 ≤ (if numBits ≥ 64 then UINT64_MAX else 2 ^ numBits) *
      (if numBits ≥ 64 then UINT64_MAX else 2 ^ numBits) := by
  intro R numBits
  split_ifs with h64
  · calc R + 1 = a * b := by omega
      _ ≤ UINT64_MAX * UINT64_MAX := Nat.mul_le_mul ha hb
  · -- `R < 2 ^ bits ≤ 2 ^ (2 numBits)`
    have hR : R < 2 ^ 128 := by
      have : a * b ≤ UINT64_MAX * UINT64_MAX := Nat.mul_le_mul ha hb
      simp only [UINT64_MAX] at this
      omega
    have hbits := lt_two_pow_bitLength hR
    have hpow : 2 ^ bitLength 128 R ≤ 2 ^ numBits * 2 ^ numBits := by
      rw [← Nat.pow_add]
      exact Nat.pow_le_pow_right (by norm_num) (by simp only [numBits, uint128_bits]; omega)
    omega

/-- **`bigSquareRootCeil` computes a fixpoint of the iteration above the root.** -/
theorem bigSquareRootCeil_spec {a b : ℕ} (ha : a ≤ UINT64_MAX) (hb : b ≤ UINT64_MAX)
    (hab : 0 < a * b) :
    ∃ z, bigSquareRootCeil a b = .ok z ∧ a * b ≤ z * z ∧ NewtonSqrt.step (a * b - 1) z = z := by
  have hne : ¬ (a = 0 ∨ b = 0) := by
    rintro (h | h) <;> simp [h] at hab
  have hprod : a * b ≤ UINT64_MAX * UINT64_MAX := Nat.mul_le_mul ha hb
  have hR : a * b - 1 + UINT64_MAX ≤ UINT128_MAX + 1 := by
    simp only [UINT64_MAX, UINT128_MAX] at hprod ⊢
    omega
  have hx0 := initial_estimate_sq ha hb hab
  simp only at hx0
  set x₀ := (if uint128_bits (a * b - 1) / 2 + 1 ≥ 64 then UINT64_MAX
    else 2 ^ (uint128_bits (a * b - 1) / 2 + 1)) with hx₀
  have hx64 : x₀ ≤ UINT64_MAX := by
    rw [hx₀]
    split_ifs with h
    · exact le_rfl
    · calc 2 ^ (uint128_bits (a * b - 1) / 2 + 1) ≤ 2 ^ 63 :=
            Nat.pow_le_pow_right (by norm_num) (by omega)
        _ ≤ UINT64_MAX := by decide
  obtain ⟨z, hz, hsq, hfix⟩ :=
    bigSquareRootCeilLoop_spec hR (x₀ + 1) x₀ 0 hx0 hx64 (Or.inl rfl) (by omega) (Or.inr (by omega))
  refine ⟨z, ?_, by omega, hfix⟩
  simp only [bigSquareRootCeil, if_neg hne, bigMultiplyUnsigned]
  exact hz

/-- **`bigSquareRoot` is the integer square root of the product** for any two 64-bit
operands: the loop terminates within its fuel, never reports an overflow, and the
correction of its ceiling is `Nat.sqrt`. -/
theorem bigSquareRoot_eq {a b : ℕ} (ha : a ≤ UINT64_MAX) (hb : b ≤ UINT64_MAX) :
    bigSquareRoot a b = .ok (Nat.sqrt (a * b)) := by
  rcases Nat.eq_zero_or_pos (a * b) with hab | hab
  · have hz : a = 0 ∨ b = 0 := Nat.mul_eq_zero.mp hab
    simp [bigSquareRoot, bigSquareRootCeil, hz, hab, bigMultiplyUnsigned]
  · obtain ⟨z, hz, hsq, hfix⟩ := bigSquareRootCeil_spec ha hb hab
    have hsqrt := NewtonSqrt.sqrt_eq_of_step_eq (R := a * b - 1) (by omega) hfix
    rw [Nat.sub_add_cancel hab] at hsqrt
    simp only [bigSquareRoot, hz, Except.ok_bind, bigMultiplyUnsigned]
    rw [← hsqrt]
    by_cases h : z * z ≤ a * b <;> simp [h]

/-- The loop only returns an estimate that the iteration leaves in place. -/
theorem bigSquareRootCeilLoop_fixpoint {R : ℕ} :
    ∀ {fuel x prev z : ℕ}, (prev = 0 ∨ x = NewtonSqrt.step R prev) →
      bigSquareRootCeilLoop R fuel x prev = .ok z → NewtonSqrt.step R z = z
  | 0, _, _, _, _, h => by simp [bigSquareRootCeilLoop] at h
  | fuel + 1, x, prev, z, hprev, h => by
    unfold bigSquareRootCeilLoop at h
    split_ifs at h with hstop
    · -- stopped: `x` is the step of `prev = x`, or both are `0`, a fixpoint too
      cases h
      subst hstop
      rcases hprev with rfl | hfix
      · simp [NewtonSqrt.step, ceilDiv]
      · exact hfix.symm
    · cases hd : bigDivideUnsigned128 R x .ROUND_UP with
      | error e => simp [hd] at h
      | ok o =>
        cases o with
        | none => simp [hd] at h
        | some y =>
          simp only [hd, Except.ok_bind,
            loop_update_eq R x y (bigDivideUnsigned128_spec hd)] at h
          exact bigSquareRootCeilLoop_fixpoint (Or.inr rfl) h

/-- Whatever `bigSquareRoot` returns, on any operands, squares to at most the product:
the loop only stops at a fixpoint, and one below a fixpoint squares to at most `R`. -/
theorem bigSquareRoot_mul_self_le {a b z : ℕ} (h : bigSquareRoot a b = .ok z) :
    z * z ≤ a * b := by
  cases hc : bigSquareRootCeil a b with
  | error e => simp [bigSquareRoot, hc] at h
  | ok c =>
    simp only [bigSquareRoot, hc, Except.ok_bind, Except.pure_eq_ok] at h
    split_ifs at h with hle
    · cases h
      exact hle
    · cases h
      simp only [bigMultiplyUnsigned] at hle
      -- the ceiling came from the loop on `R = a b - 1`, since `0 < a b`
      unfold bigSquareRootCeil at hc
      split_ifs at hc with hz
      · cases hc
        simp at hle
      · have hfix := bigSquareRootCeilLoop_fixpoint (Or.inl rfl) hc
        rcases Nat.eq_zero_or_pos c with hc0 | hcpos
        · simp [hc0]
        · have := NewtonSqrt.sq_pred_le_of_step_eq hcpos hfix
          simp only [bigMultiplyUnsigned] at this
          omega

/-- A fixpoint of the iteration above the root is the least number whose square reaches
`R + 1`: one below it squares to at most `R`. -/
theorem le_of_step_eq {R z y : ℕ} (hz : 0 < z) (hfix : NewtonSqrt.step R z = z)
    (hy : R + 1 ≤ y * y) : z ≤ y := by
  have hpred := NewtonSqrt.sq_pred_le_of_step_eq hz hfix
  by_contra hlt
  have hle : y * y ≤ (z - 1) * (z - 1) := Nat.mul_le_mul (by omega) (by omega)
  omega

/-- **`bigSquareRoot` is the integer square root of the 128-bit product.** For any two
64-bit operands `bigSquareRootCeil` returns, without throwing (its loop ends within its
fuel and no division overflows), the least `c` with `a b ≤ c²`, and `bigSquareRoot`
returns the `x` with `x² ≤ a b < (x + 1)²`. -/
theorem bigSquareRoot_isqrt (a b : ℕ) (ha : a < 2 ^ 64) (hb : b < 2 ^ 64) :
    (∃ c, bigSquareRootCeil a b = .ok c ∧ a * b ≤ c * c ∧ ∀ y, a * b ≤ y * y → c ≤ y) ∧
      ∃ x, bigSquareRoot a b = .ok x ∧ x * x ≤ a * b ∧ a * b < (x + 1) * (x + 1) := by
  have ha' : a ≤ UINT64_MAX := by
    simp only [UINT64_MAX]
    omega
  have hb' : b ≤ UINT64_MAX := by
    simp only [UINT64_MAX]
    omega
  refine ⟨?_, Nat.sqrt (a * b), bigSquareRoot_eq ha' hb', Nat.sqrt_le _, Nat.lt_succ_sqrt _⟩
  rcases Nat.eq_zero_or_pos (a * b) with hab | hab
  · -- a zero product: the ceiling is `0`, before any loop
    have hz : a = 0 ∨ b = 0 := Nat.mul_eq_zero.mp hab
    exact ⟨0, by simp [bigSquareRootCeil, hz], by simp [hab], fun y _ => Nat.zero_le y⟩
  · obtain ⟨z, hz, hsq, hfix⟩ := bigSquareRootCeil_spec ha' hb' hab
    have hzpos : 0 < z := Nat.pos_of_ne_zero fun h => by
      rw [h, Nat.zero_mul] at hsq
      omega
    exact ⟨z, hz, hsq, fun y hy => le_of_step_eq hzpos hfix (by omega)⟩

/-- Both operands at `UINT64_MAX`: the product fills 128 bits. -/
theorem bigSquareRoot_isqrt_max :
    UINT64_MAX < 2 ^ 64 ∧
      (∃ c, bigSquareRootCeil UINT64_MAX UINT64_MAX = .ok c ∧ UINT64_MAX * UINT64_MAX ≤ c * c ∧
          ∀ y, UINT64_MAX * UINT64_MAX ≤ y * y → c ≤ y) ∧
        ∃ x, bigSquareRoot UINT64_MAX UINT64_MAX = .ok x ∧ x * x ≤ UINT64_MAX * UINT64_MAX ∧
          UINT64_MAX * UINT64_MAX < (x + 1) * (x + 1) :=
  ⟨by decide, bigSquareRoot_isqrt _ _ (by decide) (by decide)⟩

/-! ### `addBalance` -/

/-- **`addBalance` returns the sum**, never below zero. -/
theorem addBalance_spec {balance delta maxBalance r : ℤ}
    (h : addBalance balance delta maxBalance = .ok (some r)) :
    r = balance + delta ∧ 0 ≤ r ∧ (delta ≠ 0 → r ≤ maxBalance) := by
  unfold addBalance at h
  simp only [releaseAssertOrThrow_bind] at h
  split_ifs at h with h1 h2 h3 h4 h5 <;> simp only [Except.pure_eq_ok, Except.ok.injEq,
    Option.some.injEq, reduceCtorEq] at h <;> subst h <;> omega

/-- `addBalance` succeeds when the sum stays within `[0, maxBalance]`. -/
theorem addBalance_eq {balance delta maxBalance : ℤ} (hb : 0 ≤ balance) (hmax : 0 ≤ maxBalance)
    (hlo : 0 ≤ balance + delta) (hhi : balance + delta ≤ maxBalance) :
    addBalance balance delta maxBalance = .ok (some (balance + delta)) := by
  simp only [addBalance, releaseAssertOrThrow_bind, if_pos hb, if_pos hmax]
  split_ifs <;> first | (simp_all; done) | omega

/-- `bigDivideOrThrow` returns the rounded quotient when it fits in `int64_t`. -/
theorem bigDivideOrThrow_eq {A B C : ℤ} (hA : 0 ≤ A) (hB : 0 ≤ B) (hC : 0 < C) {rd : Rounding}
    (hfit : (rd.div (A.toNat * B.toNat) C.toNat : ℤ) ≤ INT64_MAX) :
    bigDivideOrThrow A B C rd = .ok (rd.div (A.toNat * B.toNat) C.toNat : ℕ) :=
  bigDivideOrThrow_eq_ok.mpr (by rw [bigDivide_eq hA hB hC, if_pos hfit])

/-- `bigDivideOrThrow128` rounding down returns the quotient when it fits in `int64_t`. -/
theorem bigDivideOrThrow128_down_eq {a : ℕ} {B : ℤ} (hB : 0 < B)
    (hfit : ((a / B.toNat : ℕ) : ℤ) ≤ INT64_MAX) :
    bigDivideOrThrow128 a B .ROUND_DOWN = .ok (a / B.toNat : ℕ) := by
  have hB' : B.toNat ≠ 0 := by omega
  have hu : a / B.toNat ≤ UINT64_MAX := by
    have := INT64_MAX_le_UINT64_MAX
    omega
  have hnotup : ¬ (Rounding.ROUND_DOWN = Rounding.ROUND_UP ∧ a > UINT128_MAX - (B.toNat - 1)) :=
    fun h => nomatch h.1
  simp only [bigDivideOrThrow128, bigDivide128, releaseAssertOrThrow_bind, if_pos hB,
    bigDivideUnsigned128, if_pos hB', if_neg hnotup, if_true, if_pos hu, Except.ok_bind,
    Except.pure_eq_ok, if_pos hfit]

/-! ### The division family and exact rational arithmetic -/

/-- The exact quotient `x`, rounded the way `r` says: the rational specification of the
division helpers. -/
def Rounding.exact : Rounding → ℚ → ℤ
  | .ROUND_DOWN, x => ⌊x⌋
  | .ROUND_UP, x => ⌈x⌉

/-- The quotients the helpers compute on naturals are the rational quotient rounded. -/
theorem Rounding.natCast_div (r : Rounding) (n : ℕ) {d : ℕ} (hd : 0 < d) :
    ((r.div n d : ℕ) : ℤ) = r.exact ((n : ℚ) / d) := by
  cases r with
  | ROUND_DOWN =>
    rw [Rounding.exact, Rat.floor_natCast_div_natCast, Rounding.div_down, Int.natCast_div]
  | ROUND_UP =>
    -- `⌈n / d⌉` is the `c` with `c - 1 < n / d ≤ c`, which `ceilDiv` meets
    rw [Rounding.exact, Rounding.div_up, eq_comm, Int.ceil_eq_iff]
    have hdq : (0 : ℚ) < d := by exact_mod_cast hd
    have hlt : ((d * ceilDiv n d : ℕ) : ℚ) < n + d := by exact_mod_cast mul_ceilDiv_lt hd
    have hle : (n : ℚ) ≤ ((d * ceilDiv n d : ℕ) : ℚ) := by exact_mod_cast le_mul_ceilDiv hd
    push_cast at hlt hle ⊢
    constructor
    · rw [lt_div_iff₀ hdq]
      linarith
    · rw [div_le_iff₀ hdq]
      linarith

/-- A quotient rounded either way is at least the quotient rounded down. -/
theorem Rounding.div_le_div (r : Rounding) (n : ℕ) {d : ℕ} (hd : 0 < d) : n / d ≤ r.div n d := by
  cases r with
  | ROUND_DOWN => exact le_rfl
  | ROUND_UP => exact Nat.div_le_div_right (by omega)

/-- `bigDivideUnsigned128` for a non-zero denominator: the early `false` of rounding up
when `a + B - 1` would wrap, then the rounded quotient when it fits in 64 bits. -/
theorem bigDivideUnsigned128_eq {a B : ℕ} (hB : 0 < B) (r : Rounding) :
    bigDivideUnsigned128 a B r =
      .ok (if r = .ROUND_UP ∧ a > UINT128_MAX - (B - 1) then none
        else if r.div a B ≤ UINT64_MAX then some (r.div a B) else none) := by
  simp only [bigDivideUnsigned128, releaseAssertOrThrow_bind, if_pos hB.ne', Rounding.div_eq]
  split_ifs <;> rfl

/-- Rounding up a numerator so close to `2 ^ 128` that `a + B - 1` wraps gives a quotient
beyond `int64_t` for an `int64_t` denominator, as the comment of `bigDivideUnsigned128`
argues. -/
theorem int64_lt_ceilDiv_of_wrap {a B : ℕ} (hB : 0 < B) (hBmax : B ≤ INT64_MAX.toNat)
    (hwrap : a > UINT128_MAX - (B - 1)) : INT64_MAX.toNat < ceilDiv a B := by
  by_contra hfit
  have hceil : a ≤ B * ceilDiv a B := le_mul_ceilDiv hB
  have hprod : B * ceilDiv a B ≤ INT64_MAX.toNat * INT64_MAX.toNat :=
    Nat.mul_le_mul hBmax (Nat.le_of_not_lt hfit)
  simp only [INT64_MAX_toNat, UINT128_MAX] at hprod hwrap hBmax
  omega

/-- **`bigDivide128` is the rounded quotient when that fits in `int64_t`**, for any
numerator and an `int64_t` denominator. -/
theorem bigDivide128_eq {a : ℕ} {B : ℤ} (hB : 0 < B) (hBmax : B ≤ INT64_MAX) (r : Rounding) :
    bigDivide128 a B r =
      .ok (if (r.div a B.toNat : ℤ) ≤ INT64_MAX then some (r.div a B.toNat : ℤ) else none) := by
  have hB' : 0 < B.toNat := by omega
  have hBmax' : B.toNat ≤ INT64_MAX.toNat := by
    rw [INT64_MAX_toNat]
    simp only [INT64_MAX] at hBmax
    omega
  simp only [bigDivide128, releaseAssertOrThrow_bind, if_pos hB, bigDivideUnsigned128_eq hB',
    Except.ok_bind, Except.pure_eq_ok]
  by_cases hwrap : r = .ROUND_UP ∧ a > UINT128_MAX - (B.toNat - 1)
  · -- the early `false`: the quotient is beyond `int64_t` anyway
    obtain ⟨rfl, hwrap'⟩ := hwrap
    have hbig := int64_lt_ceilDiv_of_wrap hB' hBmax' hwrap'
    have hnot : ¬ ((Rounding.ROUND_UP.div a B.toNat : ℕ) : ℤ) ≤ INT64_MAX := by
      rw [Rounding.div_up]
      simp only [INT64_MAX_toNat] at hbig
      simp only [INT64_MAX]
      omega
    simp only [true_and, if_pos hwrap', if_neg hnot]
  · by_cases hx : r.div a B.toNat ≤ UINT64_MAX
    · simp only [if_neg hwrap, if_pos hx]
    · have hx' : ¬ ((r.div a B.toNat : ℕ) : ℤ) ≤ INT64_MAX := by
        have := INT64_MAX_le_UINT64_MAX
        omega
      simp only [if_neg hwrap, if_neg hx, if_neg hx']

/-- The values `hugeDivide` forms in 128 bits: `A Q`, `A R + C - 1` and their sums all
stay below `2 ^ 128` once the early exit on `Q` is passed. -/
theorem hugeDivide_no_overflow {a : ℤ} {B C : ℕ} (ha : a ≤ INT32_MAX) (hC : 0 < C)
    (hCmax : C ≤ INT32_MAX.toNat * INT64_MAX.toNat) (hQ : B / C ≤ INT64_MAX.toNat) :
    a.toNat * (B / C) + (a.toNat * (B % C) + C - 1) ≤ UINT128_MAX := by
  have ha' : a.toNat ≤ INT32_MAX.toNat := by
    have : a ≤ 2147483647 := ha
    rw [INT32_MAX_toNat]
    omega
  have hAQ : a.toNat * (B / C) ≤ INT32_MAX.toNat * INT64_MAX.toNat := Nat.mul_le_mul ha' hQ
  -- `R < C`, so `A R < A C`
  have hR : B % C ≤ INT32_MAX.toNat * INT64_MAX.toNat := (Nat.mod_lt _ hC).le.trans hCmax
  have hAR := Nat.mul_le_mul ha' hR
  simp only [INT64_MAX_toNat, INT32_MAX_toNat, UINT128_MAX] at hAQ hAR hCmax ⊢
  omega

/-- **`hugeDivide` is the rounded quotient when that fits in `int64_t`**, except after
its early exit: with `a = 0` a quotient `B / C` beyond `int64_t` is reported as an
overflow although `0 * B / C = 0` fits. For `1 ≤ a` that exit loses nothing, since then
`a B / C ≥ B / C`. -/
theorem hugeDivide_eq_div {a : ℤ} {B C : ℕ} (ha : 0 ≤ a) (hC : 0 < C)
    (hCmax : C ≤ INT32_MAX.toNat * INT64_MAX.toNat) (r : Rounding) :
    hugeDivide a B C r =
      .ok (if (a = 0 ∧ INT64_MAX.toNat < B / C) ∨ INT64_MAX < (r.div (a.toNat * B) C : ℤ) then none
        else some (r.div (a.toNat * B) C : ℤ)) := by
  rw [hugeDivide_eq ha hC hCmax]
  by_cases hQ : B / C > INT64_MAX.toNat
  · -- the early exit: either `a = 0`, or the quotient is past `B / C` already
    have hcond : (a = 0 ∧ INT64_MAX.toNat < B / C) ∨ INT64_MAX < (r.div (a.toNat * B) C : ℤ) := by
      rcases eq_or_lt_of_le ha with h0 | hpos
      · exact Or.inl ⟨h0.symm, hQ⟩
      · have hAB : B / C ≤ a.toNat * B / C := Nat.div_le_div_right (Nat.le_mul_of_pos_left B (by omega))
        have hle := r.div_le_div (a.toNat * B) hC
        rw [INT64_MAX_toNat] at hQ
        refine Or.inr ?_
        simp only [INT64_MAX]
        omega
    rw [if_pos hQ, if_pos hcond]
  · have hnot : ¬ (a = 0 ∧ INT64_MAX.toNat < B / C) := fun h => hQ h.2
    by_cases hfit : r.div (a.toNat * B) C ≤ INT64_MAX.toNat
    · have hfit' : ¬ INT64_MAX < (r.div (a.toNat * B) C : ℤ) := by
        rw [INT64_MAX_toNat] at hfit
        simp only [INT64_MAX]
        omega
      rw [if_neg hQ, if_pos hfit, if_neg (not_or.mpr ⟨hnot, hfit'⟩)]
    · have hfit' : INT64_MAX < (r.div (a.toNat * B) C : ℤ) := by
        rw [INT64_MAX_toNat] at hfit
        simp only [INT64_MAX]
        omega
      rw [if_neg hQ, if_neg hfit, if_pos (Or.inr hfit')]

/-- **The division family agrees with exact rational arithmetic.** `bigDivide` on
non-negative operands, and `bigDivide128` with a positive `int64_t` denominator (a
numerator near `2 ^ 128` rounded up included), return the exact quotient rounded as asked,
exactly when that fits in `int64_t`. So does `hugeDivide` for `1 ≤ a ≤ INT32_MAX`; for
`a = 0` its early exit on `B / C` reports an overflow of the quotient `0`. Past that exit,
none of the 128-bit values `hugeDivide` forms wraps. -/
theorem division_family_exact (r : Rounding) :
    (∀ A B C : ℤ, 0 ≤ A → 0 ≤ B → 0 < C →
      bigDivide A B C r = .ok (if r.exact ((A * B : ℚ) / C) ≤ INT64_MAX
        then some (r.exact ((A * B : ℚ) / C)) else none)) ∧
    (∀ (a : ℕ) (B : ℤ), 0 < B → B ≤ INT64_MAX →
      bigDivide128 a B r = .ok (if r.exact ((a : ℚ) / B) ≤ INT64_MAX
        then some (r.exact ((a : ℚ) / B)) else none)) ∧
    (∀ (a : ℤ) (B C : ℕ), 0 ≤ a → a ≤ INT32_MAX → 0 < C →
      C ≤ INT32_MAX.toNat * INT64_MAX.toNat →
      hugeDivide a B C r =
        .ok (if (a = 0 ∧ INT64_MAX.toNat < B / C) ∨ INT64_MAX < r.exact ((a * B : ℚ) / C)
          then none else some (r.exact ((a * B : ℚ) / C))) ∧
      (B / C ≤ INT64_MAX.toNat →
        a.toNat * (B / C) + (a.toNat * (B % C) + C - 1) ≤ UINT128_MAX)) := by
  refine ⟨fun A B C hA hB hC => ?_, fun a B hB hBmax => ?_,
    fun a B C ha0 ha hC hCmax => ⟨?_, hugeDivide_no_overflow ha hC hCmax⟩⟩
  · have hq : ((r.div (A.toNat * B.toNat) C.toNat : ℕ) : ℤ) = r.exact ((A * B : ℚ) / C) := by
      rw [r.natCast_div _ (by omega), Nat.cast_mul, ← Int.cast_natCast A.toNat,
        ← Int.cast_natCast B.toNat, ← Int.cast_natCast C.toNat, Int.toNat_of_nonneg hA,
        Int.toNat_of_nonneg hB, Int.toNat_of_nonneg hC.le]
    rw [bigDivide_eq hA hB hC, hq]
  · have hq : ((r.div a B.toNat : ℕ) : ℤ) = r.exact ((a : ℚ) / B) := by
      rw [r.natCast_div _ (by omega), ← Int.cast_natCast B.toNat, Int.toNat_of_nonneg hB.le]
    rw [bigDivide128_eq hB hBmax, hq]
  · have hq : ((r.div (a.toNat * B) C : ℕ) : ℤ) = r.exact ((a * B : ℚ) / C) := by
      rw [r.natCast_div _ hC, Nat.cast_mul, ← Int.cast_natCast a.toNat, Int.toNat_of_nonneg ha0]
    rw [hugeDivide_eq_div ha0 hC hCmax, hq]

/-- At `a = 0`, `B = 2 ^ 127`, `C = 1`, `hugeDivide` reports an overflow through its early
exit on `B / C`, while the exact quotient `0` fits in `int64_t`. -/
theorem hugeDivide_zero_overflow :
    hugeDivide 0 (2 ^ 127) 1 .ROUND_DOWN = .ok none ∧
      Rounding.ROUND_DOWN.exact (((0 : ℤ) * (2 ^ 127 : ℕ) : ℚ) / (1 : ℕ)) = 0 ∧
      (0 : ℤ) ≤ INT64_MAX := by
  have h := ((division_family_exact .ROUND_DOWN).2.2 0 (2 ^ 127) 1 le_rfl (by decide) (by decide)
    (by decide)).1
  have hexit : INT64_MAX.toNat < 2 ^ 127 / 1 := by decide
  refine ⟨?_, by simp [Rounding.exact], by decide⟩
  rw [h, if_pos (Or.inl ⟨rfl, hexit⟩)]

end Numeric

end HcnetCore
