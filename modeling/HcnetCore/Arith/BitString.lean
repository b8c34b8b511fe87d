import Mathlib.Data.Nat.Bitwise
import Mathlib.Data.List.Basic

/-!
# Fixed-width bit strings

A codec that moves data between alphabets of different widths (bytes of eight bits,
base-32 digits of five) is described by the stream of bits both sides carry.
`bitsBE w x` is the low `w` bits of `x`, most significant first, and `bitStream w xs`
the stream of a sequence of `w`-bit values. The lemmas are what such a description
needs:

* `bitsBE_add`, `bitsBE_mul_add` — splitting a value into a high and a low part splits
  its bits;
* `bitsBE_mod_two_pow`, `bitsBE_zero` — only the low bits count, and zero is all `false`;
* `eq_of_bitsBE_eq` — values below `2 ^ w` are determined by their bits;
* `bitStream_inj`, `bitStream_append_inj` — a stream of values below `2 ^ w` determines
  the values, also when fewer than `w` further bits follow it.

The last section reads the masks and shifts of C code on `unsigned char` as arithmetic:
`~(0xff << k)` keeps the low `k` bits (`toNat_and_lowMask`).
-/

namespace HcnetCore

namespace Arith

/-- The low `w` bits of `x`, most significant first. -/
def bitsBE : ℕ → ℕ → List Bool
  | 0, _ => []
  | w + 1, x => x.testBit w :: bitsBE w x

/-- The bits of a sequence of `w`-bit values, one value after the other. -/
def bitStream (w : ℕ) (xs : List ℕ) : List Bool :=
  xs.flatMap (bitsBE w)

variable {w : ℕ}

@[simp] theorem bitsBE_zero_width (x : ℕ) : bitsBE 0 x = [] := rfl

theorem bitsBE_succ (w x : ℕ) : bitsBE (w + 1) x = x.testBit w :: bitsBE w x := rfl

@[simp] theorem length_bitsBE (w x : ℕ) : (bitsBE w x).length = w := by
  induction w with
  | zero => rfl
  | succ w ih => rw [bitsBE_succ, List.length_cons, ih]

/-- The bits of `x` split at `b`: the high `a` of them are the bits of `x / 2 ^ b`. -/
theorem bitsBE_add (a b x : ℕ) : bitsBE (a + b) x = bitsBE a (x / 2 ^ b) ++ bitsBE b x := by
  induction a with
  | zero => simp
  | succ a ih =>
    rw [Nat.add_right_comm, bitsBE_succ, ih, bitsBE_succ, Nat.testBit_div_two_pow,
      List.cons_append]

/-- Only the low bits of a value count. -/
theorem bitsBE_mod_two_pow (x : ℕ) {k : ℕ} (h : w ≤ k) : bitsBE w (x % 2 ^ k) = bitsBE w x := by
  induction w with
  | zero => rfl
  | succ w ih =>
    rw [bitsBE_succ, bitsBE_succ, ih (by omega), Nat.testBit_mod_two_pow,
      decide_eq_true (by omega), Bool.true_and]

@[simp] theorem bitsBE_zero (w : ℕ) : bitsBE w 0 = List.replicate w false := by
  induction w with
  | zero => rfl
  | succ w ih => rw [bitsBE_succ, ih, Nat.zero_testBit, List.replicate_succ]

/-- The bits of `x * 2 ^ b + y`, for `y` of `b` bits, are those of `x` then those of `y`. -/
theorem bitsBE_mul_add (a : ℕ) {b x y : ℕ} (hy : y < 2 ^ b) :
    bitsBE (a + b) (x * 2 ^ b + y) = bitsBE a x ++ bitsBE b y := by
  have hdiv : (x * 2 ^ b + y) / 2 ^ b = x := by
    rw [Nat.add_comm, Nat.add_mul_div_right _ _ (Nat.two_pow_pos b), Nat.div_eq_of_lt hy,
      Nat.zero_add]
  have hmod : (x * 2 ^ b + y) % 2 ^ b = y := by
    rw [Nat.add_comm, Nat.add_mul_mod_self_right, Nat.mod_eq_of_lt hy]
  rw [bitsBE_add, hdiv, ← bitsBE_mod_two_pow (x * 2 ^ b + y) (le_refl b), hmod]

theorem testBit_eq_of_bitsBE_eq {x y : ℕ} (h : bitsBE w x = bitsBE w y) {i : ℕ} (hi : i < w) :
    x.testBit i = y.testBit i := by
  induction w with
  | zero => omega
  | succ w ih =>
    rw [bitsBE_succ, bitsBE_succ, List.cons.injEq] at h
    rcases Nat.lt_succ_iff_lt_or_eq.mp hi with hi | rfl
    · exact ih h.2 hi
    · exact h.1

/-- A value below `2 ^ w` is determined by its `w` bits. -/
theorem eq_of_bitsBE_eq {x y : ℕ} (hx : x < 2 ^ w) (hy : y < 2 ^ w)
    (h : bitsBE w x = bitsBE w y) : x = y := by
  apply Nat.eq_of_testBit_eq
  intro i
  by_cases hi : i < w
  · exact testBit_eq_of_bitsBE_eq h hi
  · have hw : 2 ^ w ≤ 2 ^ i := Nat.pow_le_pow_right (by omega) (by omega)
    rw [Nat.testBit_lt_two_pow (by omega), Nat.testBit_lt_two_pow (by omega)]

section Stream

@[simp] theorem bitStream_nil (w : ℕ) : bitStream w [] = [] := rfl

@[simp] theorem bitStream_cons (w x : ℕ) (xs : List ℕ) :
    bitStream w (x :: xs) = bitsBE w x ++ bitStream w xs := rfl

@[simp] theorem bitStream_append (w : ℕ) (xs ys : List ℕ) :
    bitStream w (xs ++ ys) = bitStream w xs ++ bitStream w ys :=
  List.flatMap_append

@[simp] theorem length_bitStream (w : ℕ) (xs : List ℕ) :
    (bitStream w xs).length = w * xs.length := by
  induction xs with
  | nil => rfl
  | cons x xs ih => rw [bitStream_cons, List.length_append, ih, length_bitsBE,
      List.length_cons, Nat.mul_succ, Nat.add_comm]

/-- Streams of values below `2 ^ w`, for `0 < w`, are equal only for equal values. -/
theorem bitStream_inj (hw : 0 < w) {xs ys : List ℕ} (hx : ∀ x ∈ xs, x < 2 ^ w)
    (hy : ∀ y ∈ ys, y < 2 ^ w) (h : bitStream w xs = bitStream w ys) : xs = ys := by
  induction xs generalizing ys with
  | nil =>
    cases ys with
    | nil => rfl
    | cons y ys =>
      have := congrArg List.length h
      simp only [length_bitStream, List.length_cons, List.length_nil, Nat.mul_zero,
        Nat.mul_succ] at this
      omega
  | cons x xs ih =>
    cases ys with
    | nil =>
      have := congrArg List.length h
      simp only [length_bitStream, List.length_cons, List.length_nil, Nat.mul_zero,
        Nat.mul_succ] at this
      omega
    | cons y ys =>
      rw [bitStream_cons, bitStream_cons] at h
      obtain ⟨hxy, hrest⟩ := List.append_inj h (by simp)
      have hx' := hx x List.mem_cons_self
      have hy' := hy y List.mem_cons_self
      rw [eq_of_bitsBE_eq hx' hy' hxy,
        ih (fun z hz => hx z (List.mem_cons_of_mem x hz))
          (fun z hz => hy z (List.mem_cons_of_mem y hz)) hrest]

/-- Two streams of `w`-bit values, each followed by fewer than `w` more bits, agree
only when the values and the trailing bits agree. -/
theorem bitStream_append_inj (hw : 0 < w) {xs ys : List ℕ} {t t' : List Bool}
    (hx : ∀ x ∈ xs, x < 2 ^ w) (hy : ∀ y ∈ ys, y < 2 ^ w) (ht : t.length < w)
    (ht' : t'.length < w) (h : bitStream w xs ++ t = bitStream w ys ++ t') :
    xs = ys ∧ t = t' := by
  have hlen := congrArg List.length h
  rw [List.length_append, List.length_append, length_bitStream, length_bitStream] at hlen
  -- the lengths agree: `w * |xs| + |t| = w * |ys| + |t'|` with both remainders below `w`
  have hxy : xs.length = ys.length := by
    rcases lt_trichotomy xs.length ys.length with hlt | heq | hgt
    · have := Nat.mul_le_mul_left w (Nat.succ_le_of_lt hlt)
      rw [Nat.mul_succ] at this
      omega
    · exact heq
    · have := Nat.mul_le_mul_left w (Nat.succ_le_of_lt hgt)
      rw [Nat.mul_succ] at this
      omega
  obtain ⟨hs, htt⟩ := List.append_inj h (by rw [length_bitStream, length_bitStream, hxy])
  exact ⟨bitStream_inj hw hx hy hs, htt⟩

end Stream

section Byte

/-- `~(0xff << k)` on an `unsigned char` is the mask of its low `k` bits. -/
theorem toNat_lowMask {k : ℕ} (hk : k < 8) :
    (~~~((0xff : UInt8) <<< k.toUInt8)).toNat = 2 ^ k - 1 := by
  have hall : ∀ i : Fin 8, (~~~((0xff : UInt8) <<< i.val.toUInt8)).toNat = 2 ^ i.val - 1 := by
    decide
  exact hall ⟨k, hk⟩

theorem toNat_and_lowMask (x : UInt8) {k : ℕ} (hk : k < 8) :
    (x &&& ~~~((0xff : UInt8) <<< k.toUInt8)).toNat = x.toNat % 2 ^ k := by
  rw [UInt8.toNat_and, toNat_lowMask hk, Nat.and_two_pow_sub_one_eq_mod]

theorem toNat_toUInt8_of_lt {k : ℕ} (hk : k < 256) : k.toUInt8.toNat = k := by
  rw [show k.toUInt8 = UInt8.ofNat k from rfl, UInt8.toNat_ofNat']
  omega

theorem toNat_shiftLeft_of_lt (x : UInt8) {k : ℕ} (hk : k < 8) :
    (x <<< k.toUInt8).toNat = x.toNat * 2 ^ k % 256 := by
  rw [UInt8.toNat_shiftLeft, toNat_toUInt8_of_lt (by omega), Nat.mod_eq_of_lt hk,
    Nat.shiftLeft_eq]

theorem toNat_shiftRight_of_lt (x : UInt8) {k : ℕ} (hk : k < 8) :
    (x >>> k.toUInt8).toNat = x.toNat / 2 ^ k := by
  rw [UInt8.toNat_shiftRight, toNat_toUInt8_of_lt (by omega), Nat.mod_eq_of_lt hk,
    Nat.shiftRight_eq_div_pow]

/-- Or-ing a value into the free low bits of another adds it. -/
theorem mul_two_pow_or_eq_add (a : ℕ) {k b : ℕ} (hb : b < 2 ^ k) :
    a * 2 ^ k ||| b = a * 2 ^ k + b := by
  rw [Nat.mul_comm, Nat.two_pow_add_eq_or_of_lt hb]

end Byte

end Arith

end HcnetCore
