import Mathlib.Data.Int.Init
import Mathlib.Tactic.Ring

/-!
# Conversions between signed and unsigned 64-bit words

C++ code mixes `int64_t` and `uint64_t` freely: a signed value compared with an
unsigned one, or added to it, is first converted to `uint64_t` (the same bits read
modulo `2 ^ 64`), and an unsigned result returned as `int64_t` is read back in two's
complement. Lean's `Int64.toUInt64` and `UInt64.toInt64` are these conversions. This
module states what they compute on the values that stay in range, which is all a proof
about such code needs:

* `toNat_toUInt64_of_nonneg` — a non-negative `int64_t` keeps its value as `uint64_t`;
* `toInt_toInt64_of_lt` — a `uint64_t` below `2 ^ 63` keeps its value as `int64_t`;
* `toInt_maxValue_sub` — `INT64_MAX - r` does not overflow for `r ≥ 0`.
-/

namespace HcnetCore

namespace Arith

/-- A non-negative signed word has the same value unsigned. -/
theorem toNat_toUInt64_of_nonneg {x : Int64} (h : 0 ≤ x.toInt) :
    x.toUInt64.toNat = x.toInt.toNat := by
  rw [← UInt64.toNat_toBitVec, Int64.toBitVec_toUInt64, ← Int64.toInt_toBitVec] at *
  rw [BitVec.toInt_eq_toNat_cond] at h ⊢
  split_ifs at h ⊢ <;> omega

/-- An unsigned word below `2 ^ 63` has the same value signed. -/
theorem toInt_toInt64_of_lt {u : UInt64} (h : u.toNat < 2 ^ 63) :
    u.toInt64.toInt = u.toNat := by
  rw [← Int64.toInt_toBitVec, UInt64.toBitVec_toInt64, BitVec.toInt_eq_toNat_cond,
    UInt64.toNat_toBitVec, if_pos (by omega)]

/-- `INT64_MAX - r` stays in range when `r` is not negative. -/
theorem toInt_maxValue_sub {r : Int64} (h : 0 ≤ r.toInt) :
    (Int64.maxValue - r).toInt = 2 ^ 63 - 1 - r.toInt := by
  have := Int64.toInt_lt r
  rw [Int64.toInt_sub, Int64.toInt_maxValue]
  exact Int.bmod_eq_of_le (by omega) (by omega)

end Arith

end HcnetCore
