import Mathlib.Tactic.Ring
import HcnetCore.Arith.BitString
import HcnetCore.Util.Basen

/-!
# What `encode` and `decode` compute, and that one undoes the other

Both directions are described by the stream of bits they carry (`Arith.bitStream`).

* `encode_spec`: `encode t bytes` is the characters of groups of `group_length` bits
  that carry the bits of `bytes` and then fewer than `group_length` zero bits, followed
  by the fewest `'='` that bring the text to a whole number of bytes. The loop of
  `encode` is followed through its invariant `EncodeInv`, which each pass keeps
  (`encodeStep_inv`); `EncodeState.measure` falls at each pass, so the fuel of `encode`
  is enough (`encodeLoop_inv`).
* `decode_spec`, `decode_whole_bytes`: `decode t chars` is the whole bytes of the stream
  of the values of the characters `decode` knows, in order, with fewer than eight bits
  left over; any text is accepted.
* `decode_encode`: for an alphabet that `decode` reads back, `decode` returns the bytes
  `encode` was given; `decode_b32_encode_b32` and `decode_b64_encode_b64` are its cases.
* `length_encode_b32`, `length_encode_b64`: the text `encode_b32` and `encode_b64` write
  is exactly as long as `encoded_size32` and `encoded_size64` reserve.
-/

namespace HcnetCore

namespace Basen

open Arith

/-- The bits of a byte string, eight to a byte. -/
def byteBits (bytes : List UInt8) : List Bool :=
  bitStream 8 (bytes.map UInt8.toNat)

@[simp] theorem byteBits_nil : byteBits [] = [] := rfl

@[simp] theorem byteBits_cons (b : UInt8) (bytes : List UInt8) :
    byteBits (b :: bytes) = bitsBE 8 b.toNat ++ byteBits bytes := rfl

@[simp] theorem byteBits_append (xs ys : List UInt8) :
    byteBits (xs ++ ys) = byteBits xs ++ byteBits ys := by
  rw [byteBits, List.map_append, bitStream_append]
  rfl

/-! ## The bits the extractions take -/

section Extract

variable {s g : ℕ}

theorem toNat_extract_partial_bits (value : UInt8) (hg : 0 < g) (h : s + g < 8) :
    (extract_partial_bits value s g).toNat = value.toNat / 2 ^ (8 - g - s) % 2 ^ g := by
  simp only [extract_partial_bits]
  rw [toNat_and_lowMask _ (by omega), toNat_shiftRight_of_lt _ (by omega)]

/-- `extract_partial_bits` takes the first `g` of the `8 - s` bits left in the byte. -/
theorem bitsBE_extract_partial_bits (value : UInt8) (hg : 0 < g) (h : s + g < 8) :
    bitsBE g (extract_partial_bits value s g).toNat ++ bitsBE (8 - (s + g)) value.toNat =
      bitsBE (8 - s) value.toNat := by
  rw [toNat_extract_partial_bits _ hg h, bitsBE_mod_two_pow _ (le_refl g),
    show 8 - g - s = 8 - (s + g) by omega, ← bitsBE_add, show g + (8 - (s + g)) = 8 - s by omega]

theorem extract_partial_bits_lt (value : UInt8) (hg : 0 < g) (h : s + g < 8) :
    (extract_partial_bits value s g).toNat < 2 ^ g := by
  rw [toNat_extract_partial_bits _ hg h]
  exact Nat.mod_lt _ (Nat.two_pow_pos g)

theorem extract_overlapping_bits_lt (previous next : UInt8) (hg : g < 8) :
    (extract_overlapping_bits previous next s g).toNat < 2 ^ g := by
  simp only [extract_overlapping_bits]
  rw [toNat_and_lowMask _ hg]
  exact Nat.mod_lt _ (Nat.two_pow_pos g)

/-- `extract_overlapping_bits` takes the `8 - s` bits left in `previous`, then the first
`s + g - 8` bits of `next`. -/
theorem bitsBE_extract_overlapping_bits (previous next : UInt8) (hs : s < 8)
    (h8 : 8 ≤ s + g) (hg : g < 8) :
    bitsBE g (extract_overlapping_bits previous next s g).toNat =
      bitsBE (8 - s) previous.toNat ++ bitsBE (s + g - 8) (next.toNat / 2 ^ (16 - (s + g))) := by
  have hnext := UInt8.toNat_lt next
  have hprev := UInt8.toNat_lt previous
  -- the bits taken from `next`, as a number below `2 ^ (s + g - 8)`
  have ht2 : (next >>> (8 - (g - (8 - s))).toUInt8 &&&
      ~~~((0xff : UInt8) <<< (g - (8 - s)).toUInt8)).toNat = next.toNat / 2 ^ (16 - (s + g)) := by
    rw [toNat_and_lowMask _ (by omega)]
    rcases Nat.eq_zero_or_pos (g - (8 - s)) with h0 | hpos
    · -- no bit comes from `next`
      rw [h0, show 16 - (s + g) = 8 by omega, Nat.pow_zero, Nat.mod_one,
        Nat.div_eq_of_lt (by simpa using hnext)]
    · rw [toNat_shiftRight_of_lt _ (by omega), show 8 - (g - (8 - s)) = 16 - (s + g) by omega]
      apply Nat.mod_eq_of_lt
      rw [Nat.div_lt_iff_lt_mul (Nat.two_pow_pos _), ← Nat.pow_add,
        show g - (8 - s) + (16 - (s + g)) = 8 by omega]
      simpa using hnext
  -- the bits kept from `previous`, shifted past those
  have ht1 : (previous <<< (g - (8 - s)).toUInt8).toNat =
      previous.toNat % 2 ^ (16 - (s + g)) * 2 ^ (s + g - 8) := by
    rw [toNat_shiftLeft_of_lt _ (by omega), show g - (8 - s) = s + g - 8 by omega,
      show (256 : ℕ) = 2 ^ (16 - (s + g)) * 2 ^ (s + g - 8) by
        rw [← Nat.pow_add, show 16 - (s + g) + (s + g - 8) = 8 by omega]]
    exact Nat.mul_mod_mul_right _ _ _
  have hy : next.toNat / 2 ^ (16 - (s + g)) < 2 ^ (s + g - 8) := by
    rw [Nat.div_lt_iff_lt_mul (Nat.two_pow_pos _), ← Nat.pow_add,
      show s + g - 8 + (16 - (s + g)) = 8 by omega]
    simpa using hnext
  simp only [extract_overlapping_bits]
  rw [toNat_and_lowMask _ hg, UInt8.toNat_or, ht1, ht2, mul_two_pow_or_eq_add _ hy,
    bitsBE_mod_two_pow _ (le_refl g)]
  have hsplit := bitsBE_mul_add (8 - s) hy (x := previous.toNat % 2 ^ (16 - (s + g)))
  rw [show 8 - s + (s + g - 8) = g by omega, bitsBE_mod_two_pow _ (by omega)] at hsplit
  exact hsplit

end Extract

/-! ## The loop of `encode` -/

namespace EncodeState

/-- The bits `encode` has still to write from this state of its loop: the rest of the
byte it is in (`backlog`, or the byte at `iter`), then the bytes after it. -/
def pending (st : EncodeState) : List Bool :=
  match st.has_backlog, st.iter with
  | false, [] => []
  | false, b :: rest => bitsBE (8 - st.start_bit) b.toNat ++ byteBits rest
  | true, iter => bitsBE (8 - st.start_bit) st.backlog.toNat ++ byteBits iter

/-- A bound on the passes left in `encode`'s loop: each pass lowers it. -/
def measure (st : EncodeState) : ℕ :=
  10 * st.iter.length + if st.has_backlog then 9 else 8 - st.start_bit

end EncodeState

/-- The invariant of `encode`'s loop on `bytes`, with `vals` the groups written so far and
`p` the zero bits added after the last byte: the characters written are those of the
groups; the groups' bits, then the bits still pending, are the bits of `bytes` and then
`p` zeros (fewer than a group, and only once no byte is left); `start_bit` is where the
groups end in the current byte; and a backlog is kept only for a group that crosses into
the next byte. -/
structure EncodeInv (t : ConversionTraits) (bytes : List UInt8) (st : EncodeState)
    (vals : List UInt8) (p : ℕ) : Prop where
  out_eq : st.out = vals.map t.encode
  vals_lt : ∀ v ∈ vals, v.toNat < 2 ^ t.group_length
  bits_eq : bitStream t.group_length (vals.map UInt8.toNat) ++ st.pending =
    byteBits bytes ++ List.replicate p false
  pad_lt : p < t.group_length
  pad_last : p = 0 ∨ (st.has_backlog = false ∧ st.iter = [])
  start_bit_eq : st.start_bit = t.group_length * vals.length % 8
  backlog_crosses : st.has_backlog = true → 8 ≤ st.start_bit + t.group_length

section EncodeLoop

variable {t : ConversionTraits} {bytes : List UInt8} {vals : List UInt8} {p : ℕ}

theorem EncodeInv.start_bit_lt {st : EncodeState} (hi : EncodeInv t bytes st vals p) :
    st.start_bit < 8 := by
  rw [hi.start_bit_eq]
  exact Nat.mod_lt _ (by omega)

theorem encodeInv_init (t : ConversionTraits) (bytes : List UInt8) :
    EncodeInv t bytes (encodeInit bytes) [] 0 where
  out_eq := rfl
  vals_lt := by simp
  bits_eq := by
    cases bytes with
    | nil => rfl
    | cons b rest => simp [encodeInit, EncodeState.pending]
  pad_lt := t.group_length_pos
  pad_last := Or.inl rfl
  start_bit_eq := by simp [encodeInit]
  backlog_crosses := by simp [encodeInit]

/-- A group that fits in the current byte: write it and move `start_bit` past it. -/
theorem EncodeInv.partial {b : UInt8} {rest : List UInt8} {s : ℕ} {bl : UInt8}
    {out : List UInt8} (hi : EncodeInv t bytes ⟨b :: rest, s, false, bl, out⟩ vals p)
    (hs : s + t.group_length < 8) :
    EncodeInv t bytes ⟨b :: rest, s + t.group_length, false, bl,
        out ++ [t.encode (extract_partial_bits b s t.group_length)]⟩
      (vals ++ [extract_partial_bits b s t.group_length]) p where
  out_eq := by rw [List.map_append, ← hi.out_eq]; rfl
  vals_lt v hv := by
    rcases List.mem_append.mp hv with hv | hv
    · exact hi.vals_lt v hv
    · rw [List.mem_singleton.mp hv]; exact extract_partial_bits_lt b t.group_length_pos hs
  bits_eq := by
    rw [← hi.bits_eq, List.map_append, bitStream_append, List.append_assoc]
    simp only [EncodeState.pending, List.map_cons, List.map_nil, bitStream_cons, bitStream_nil,
      List.append_nil, ← List.append_assoc, bitsBE_extract_partial_bits b t.group_length_pos hs]
  pad_lt := hi.pad_lt
  pad_last := by simpa using hi.pad_last
  start_bit_eq := by
    have h := hi.start_bit_eq
    simp only [List.length_append, List.length_singleton, Nat.mul_succ] at h ⊢
    omega
  backlog_crosses := by simp

/-- A group that crosses the byte border: keep the byte as `backlog` and move on. -/
theorem EncodeInv.take {b : UInt8} {rest : List UInt8} {s : ℕ} {bl : UInt8}
    {out : List UInt8} (hi : EncodeInv t bytes ⟨b :: rest, s, false, bl, out⟩ vals p)
    (hs : ¬ s + t.group_length < 8) :
    EncodeInv t bytes ⟨rest, s, true, b, out⟩ vals p where
  out_eq := hi.out_eq
  vals_lt := hi.vals_lt
  bits_eq := hi.bits_eq
  pad_lt := hi.pad_lt
  pad_last := by simpa using hi.pad_last
  start_bit_eq := hi.start_bit_eq
  backlog_crosses _ := by simp only; omega

/-- The group across the border, with a next byte: its bits are the rest of `backlog`
and the first bits of the next byte, whose other bits are then pending. -/
theorem EncodeInv.overlap_next {n : UInt8} {rest : List UInt8} {s : ℕ} {bl : UInt8}
    {out : List UInt8} (hi : EncodeInv t bytes ⟨n :: rest, s, true, bl, out⟩ vals p) :
    EncodeInv t bytes ⟨n :: rest, (s + t.group_length) % 8, false, bl,
        out ++ [t.encode (extract_overlapping_bits bl n s t.group_length)]⟩
      (vals ++ [extract_overlapping_bits bl n s t.group_length]) p := by
  have hg := t.group_length_lt
  have hcross := hi.backlog_crosses rfl
  have hs : s < 8 := hi.start_bit_lt
  simp only at hcross
  refine ⟨?_, ?_, ?_, hi.pad_lt, ?_, ?_, by simp⟩
  · rw [List.map_append, ← hi.out_eq]; rfl
  · intro v hv
    rcases List.mem_append.mp hv with hv | hv
    · exact hi.vals_lt v hv
    · rw [List.mem_singleton.mp hv]; exact extract_overlapping_bits_lt bl n hg
  · -- the rest of `n` after the bits the group took
    have hnext : bitsBE (s + t.group_length - 8) (n.toNat / 2 ^ (16 - (s + t.group_length))) ++
        bitsBE (8 - (s + t.group_length) % 8) n.toNat = bitsBE 8 n.toNat := by
      rw [show 8 - (s + t.group_length) % 8 = 16 - (s + t.group_length) by omega, ← bitsBE_add,
        show s + t.group_length - 8 + (16 - (s + t.group_length)) = 8 by omega]
    rw [← hi.bits_eq, List.map_append, bitStream_append, List.append_assoc]
    simp only [EncodeState.pending, List.map_cons, List.map_nil, bitStream_cons, bitStream_nil,
      List.append_nil, byteBits_cons, bitsBE_extract_overlapping_bits bl n hs hcross hg,
      ← hnext, List.append_assoc]
  · simpa using hi.pad_last
  · have h := hi.start_bit_eq
    simp only at h ⊢
    simp only [List.length_append, List.length_singleton, Nat.mul_succ]
    omega

/-- The group across the border at the end of the bytes: its last bits are zeros, the
`p` of the invariant, and nothing is pending. -/
theorem EncodeInv.overlap_last {s : ℕ} {bl : UInt8} {out : List UInt8}
    (hi : EncodeInv t bytes ⟨[], s, true, bl, out⟩ vals p) :
    EncodeInv t bytes ⟨[], (s + t.group_length) % 8, false, bl,
        out ++ [t.encode (extract_overlapping_bits bl 0 s t.group_length)]⟩
      (vals ++ [extract_overlapping_bits bl 0 s t.group_length]) (s + t.group_length - 8) := by
  have hg := t.group_length_lt
  have hcross := hi.backlog_crosses rfl
  have hs : s < 8 := hi.start_bit_lt
  simp only at hcross
  -- a backlog is kept only while bytes are left to read, so no zeros were added yet
  have hp : p = 0 := by simpa using hi.pad_last
  refine ⟨?_, ?_, ?_, by omega, Or.inr ⟨rfl, rfl⟩, ?_, by simp⟩
  · rw [List.map_append, ← hi.out_eq]; rfl
  · intro v hv
    rcases List.mem_append.mp hv with hv | hv
    · exact hi.vals_lt v hv
    · rw [List.mem_singleton.mp hv]; exact extract_overlapping_bits_lt bl 0 hg
  · have h := hi.bits_eq
    rw [hp, List.replicate_zero, List.append_nil] at h
    simp only [EncodeState.pending, byteBits_nil, List.append_nil] at h
    rw [List.map_append, bitStream_append, ← h]
    simp [EncodeState.pending, bitsBE_extract_overlapping_bits bl 0 hs hcross hg]
  · have h := hi.start_bit_eq
    simp only at h ⊢
    simp only [List.length_append, List.length_singleton, Nat.mul_succ]
    omega

/-- Each pass of `encode`'s loop keeps its invariant. -/
theorem encodeStep_inv {st st' : EncodeState} (hi : EncodeInv t bytes st vals p)
    (h : encodeStep t st = some st') : ∃ vals' p', EncodeInv t bytes st' vals' p' := by
  obtain ⟨iter, s, hb, bl, out⟩ := st
  cases hb with
  | false =>
    cases iter with
    | nil => simp [encodeStep] at h
    | cons b rest =>
      by_cases hs : s + t.group_length < 8
      · simp only [encodeStep, if_pos hs, Option.some.injEq] at h
        exact ⟨_, _, h ▸ hi.partial hs⟩
      · simp only [encodeStep, if_neg hs, Option.some.injEq] at h
        exact ⟨_, _, h ▸ hi.take hs⟩
  | true =>
    cases iter with
    | nil =>
      simp only [encodeStep, Option.some.injEq] at h
      exact ⟨_, _, h ▸ hi.overlap_last⟩
    | cons n rest =>
      simp only [encodeStep, Option.some.injEq] at h
      exact ⟨_, _, h ▸ hi.overlap_next⟩

/-- Each pass of `encode`'s loop lowers `measure`. -/
theorem measure_encodeStep {st st' : EncodeState} (h : encodeStep t st = some st') :
    st'.measure < st.measure := by
  have hg := t.group_length_pos
  obtain ⟨iter, s, hb, bl, out⟩ := st
  cases hb with
  | false =>
    cases iter with
    | nil => simp [encodeStep] at h
    | cons b rest =>
      by_cases hs : s + t.group_length < 8
      · simp only [encodeStep, if_pos hs, Option.some.injEq] at h
        subst h
        simp [EncodeState.measure]
        omega
      · simp only [encodeStep, if_neg hs, Option.some.injEq] at h
        subst h
        simp [EncodeState.measure]
        omega
  | true =>
    have hlt : 8 - (s + t.group_length) % 8 < 9 := by omega
    cases iter with
    | nil =>
      simp only [encodeStep, Option.some.injEq] at h
      subst h
      simpa [EncodeState.measure] using hlt
    | cons n rest =>
      simp only [encodeStep, Option.some.injEq] at h
      subst h
      simpa [EncodeState.measure] using hlt

theorem encodeStep_eq_none {st : EncodeState} :
    encodeStep t st = none ↔ st.has_backlog = false ∧ st.iter = [] := by
  obtain ⟨iter, s, hb, bl, out⟩ := st
  cases hb with
  | true => simp [encodeStep]
  | false =>
    cases iter with
    | nil => simp [encodeStep]
    | cons b rest =>
      -- both branches of the `start_bit` test make a pass
      simp only [encodeStep]
      split <;> simp

/-- The loop of `encode`, given fuel at least `measure`, ends in a state where its
condition fails, and keeps the invariant on the way. -/
theorem encodeLoop_inv {fuel : ℕ} {st : EncodeState} (hi : EncodeInv t bytes st vals p)
    (hfuel : st.measure ≤ fuel) :
    ∃ vals' p', EncodeInv t bytes (encodeLoop t fuel st) vals' p' ∧
      encodeStep t (encodeLoop t fuel st) = none := by
  induction fuel generalizing st vals p with
  | zero =>
    -- `measure` is positive: `start_bit` stays below eight
    have hs := hi.start_bit_lt
    simp only [EncodeState.measure, Nat.le_zero, Nat.add_eq_zero_iff] at hfuel
    split at hfuel <;> omega
  | succ fuel ih =>
    rw [encodeLoop]
    cases h : encodeStep t st with
    | none => exact ⟨vals, p, hi, h⟩
    | some st' =>
      obtain ⟨vals', p', hi'⟩ := encodeStep_inv hi h
      exact ih hi' (by have := measure_encodeStep h; omega)

/-- The `'='` loop writes the fewest `'='` that bring `m` groups and the `'='` after them
to a whole number of bytes, given fuel for them. -/
theorem padding_spec (t : ConversionTraits) (m fuel : ℕ) (hfuel : (8 - m % 8) % 8 ≤ fuel)
    (out : List UInt8) :
    ∃ k, padding t fuel (t.group_length * m % 8) out = out ++ List.replicate k '='.toUInt8 ∧
      t.group_length * (m + k) % 8 = 0 ∧ ∀ j < k, t.group_length * (m + j) % 8 ≠ 0 := by
  induction fuel generalizing m out with
  | zero =>
    -- no fuel: `m` is a whole number of bytes already
    have hm : m % 8 = 0 := by omega
    refine ⟨0, by rw [padding, List.replicate_zero, List.append_nil], ?_, by simp⟩
    rw [Nat.add_zero, Nat.mul_mod, hm, Nat.mul_zero, Nat.zero_mod]
  | succ fuel ih =>
    by_cases h0 : t.group_length * m % 8 = 0
    · refine ⟨0, ?_, by simpa using h0, by simp⟩
      rw [padding, h0]
      simp
    · -- one more `'='`; then the groups and `'='` so far count `m + 1`
      have hm : m % 8 ≠ 0 := fun hm => h0 (by rw [Nat.mul_mod, hm, Nat.mul_zero, Nat.zero_mod])
      obtain ⟨k, hk, hwhole, hfew⟩ := ih (m + 1) (by omega) (out ++ ['='.toUInt8])
      have hnext : (t.group_length * m % 8 + t.group_length) % 8 =
          t.group_length * (m + 1) % 8 := by
        rw [Nat.mul_succ, Nat.add_mod, Nat.mod_mod, ← Nat.add_mod]
      refine ⟨k + 1, ?_, by rw [← Nat.add_assoc, Nat.add_right_comm, hwhole.symm, Nat.add_assoc,
        Nat.add_comm 1 k], ?_⟩
      · rw [padding, if_pos (by simpa using h0), hnext, hk, List.append_assoc,
          List.replicate_succ, List.singleton_append]
      · intro j hj
        rcases j with _ | j
        · simpa using h0
        · have := hfew j (by omega)
          rwa [show m + 1 + j = m + (j + 1) by omega] at this

end EncodeLoop

/-! ## `encode` -/

/-- What `encode t bytes = text` says: `text` is the characters of `vals`, groups of
`group_length` bits that carry the bits of `bytes` and then `p < group_length` zero
bits, and `k` times `'='`, the fewest that bring the text to a whole number of bytes. -/
structure Encoding (t : ConversionTraits) (bytes text vals : List UInt8) (p k : ℕ) : Prop where
  text_eq : text = vals.map t.encode ++ List.replicate k '='.toUInt8
  vals_lt : ∀ v ∈ vals, v.toNat < 2 ^ t.group_length
  bits_eq : bitStream t.group_length (vals.map UInt8.toNat) =
    byteBits bytes ++ List.replicate p false
  pad_lt : p < t.group_length
  whole : t.group_length * (vals.length + k) % 8 = 0
  fewest : ∀ j < k, t.group_length * (vals.length + j) % 8 ≠ 0

theorem encode_spec (t : ConversionTraits) (bytes : List UInt8) :
    ∃ vals p k, Encoding t bytes (encode t bytes) vals p k := by
  have hfuel : (encodeInit bytes).measure ≤ 10 * bytes.length + 8 := by
    simp [EncodeState.measure, encodeInit]
  obtain ⟨vals, p, hi, hstop⟩ := encodeLoop_inv (encodeInv_init t bytes) hfuel
  set st := encodeLoop t (10 * bytes.length + 8) (encodeInit bytes)
  obtain ⟨hb, hiter⟩ := encodeStep_eq_none.mp hstop
  -- the loop has stopped: nothing is pending
  have hpend : st.pending = [] := by
    obtain ⟨iter, s, hb', bl, out⟩ := st
    simp only at hb hiter
    subst hb hiter
    rfl
  obtain ⟨k, hk, hwhole, hfew⟩ :=
    padding_spec t vals.length 8 (by omega) st.out
  refine ⟨vals, p, k, ⟨?_, hi.vals_lt, ?_, hi.pad_lt, hwhole, hfew⟩⟩
  · simp only [encode]
    rw [hi.start_bit_eq, hk, hi.out_eq]
  · simpa [hpend] using hi.bits_eq

theorem Encoding.k_lt {t : ConversionTraits} {bytes text vals : List UInt8} {p k : ℕ}
    (h : Encoding t bytes text vals p k) : k < 8 := by
  by_contra hk
  -- eight fewer `'='` would end on a whole byte too
  have := h.fewest (k - 8) (by omega)
  have hw := h.whole
  rw [show vals.length + k = vals.length + (k - 8) + 8 by omega, Nat.mul_add, Nat.add_mod,
    Nat.mul_mod_left, Nat.add_zero, Nat.mod_mod] at hw
  exact this hw

theorem Encoding.length_eq {t : ConversionTraits} {bytes text vals : List UInt8} {p k : ℕ}
    (h : Encoding t bytes text vals p k) : text.length = vals.length + k := by
  rw [h.text_eq, List.length_append, List.length_map, List.length_replicate]

/-- The bits the groups carry: `group_length * |vals| = 8 * |bytes| + p`. -/
theorem Encoding.group_bits {t : ConversionTraits} {bytes text vals : List UInt8} {p k : ℕ}
    (h : Encoding t bytes text vals p k) :
    t.group_length * vals.length = 8 * bytes.length + p := by
  have := congrArg List.length h.bits_eq
  simpa [byteBits] using this

/-! ## The loop of `decode` -/

/-- The value of a character `decode` reads, or `none` for one it skips. -/
def digit (t : ConversionTraits) (c : UInt8) : Option ℕ :=
  if isspace c then none
  else if t.decode c == Error then none
  else some (t.decode c).toNat

/-- The values of the characters `decode` reads, in order. -/
def digits (t : ConversionTraits) (chars : List UInt8) : List ℕ :=
  chars.filterMap (digit t)

section DecodeLoop

variable {t : ConversionTraits} {c : UInt8} {chars : List UInt8} {cur : ℕ} {buffer : UInt8}
  {out : List UInt8}

theorem decodeLoop_cons_of_isspace (h : isspace c = true) :
    decodeLoop t (c :: chars) cur buffer out = decodeLoop t chars cur buffer out := by
  rw [decodeLoop, if_pos h]

theorem decodeLoop_cons_of_error (hs : isspace c = false) (h : t.decode c = Error) :
    decodeLoop t (c :: chars) cur buffer out = decodeLoop t chars cur buffer out := by
  simp [decodeLoop, hs, h]

/-- A value that fits in the current byte is or-ed into `buffer`, which is written out
once full. -/
theorem decodeLoop_cons_of_fits (hs : isspace c = false) (h : t.decode c ≠ Error)
    (hfit : cur + t.group_length ≤ 8) :
    decodeLoop t (c :: chars) cur buffer out =
      if cur + t.group_length = 8 then
        decodeLoop t chars 0 0
          (out ++ [buffer ||| t.decode c <<< (8 - cur - t.group_length).toUInt8])
      else
        decodeLoop t chars (cur + t.group_length)
          (buffer ||| t.decode c <<< (8 - cur - t.group_length).toUInt8) out := by
  have hmin : min (cur + t.group_length) 8 - cur = t.group_length := by omega
  simp only [decodeLoop, hs, h, hmin, Bool.false_eq_true, if_false, beq_self_eq_true, if_true,
    beq_iff_eq]

/-- A value that crosses into the next byte fills `buffer`, which is written out, and
its last `cur + group_length - 8` bits start the next byte. -/
theorem decodeLoop_cons_of_spans (hs : isspace c = false) (h : t.decode c ≠ Error)
    (hcur : cur < 8) (hspan : 8 < cur + t.group_length) :
    decodeLoop t (c :: chars) cur buffer out =
      decodeLoop t chars (cur + t.group_length - 8)
        (0 ||| t.decode c <<< (8 - (cur + t.group_length - 8)).toUInt8)
        (out ++ [buffer ||| t.decode c >>> (cur + t.group_length - 8).toUInt8]) := by
  have hg := t.group_length_lt
  have hmin : min (cur + t.group_length) 8 - cur = 8 - cur := by omega
  have hne : ¬ (8 - cur = t.group_length) := by omega
  have hnext : t.group_length - (8 - cur) = cur + t.group_length - 8 := by omega
  simp only [decodeLoop, hs, h, hmin, hne, hnext, Bool.false_eq_true, if_false, beq_iff_eq]

end DecodeLoop

section Buffer

variable {cur g acc : ℕ} {buffer v : UInt8}

/-- Or-ing a value that fits into `buffer`, which holds the `cur` bits `acc`, appends its
bits to `acc`. -/
theorem toNat_or_shiftLeft (hg : 0 < g) (hfit : cur + g ≤ 8) (hv : v.toNat < 2 ^ g)
    (hbuf : buffer.toNat = acc * 2 ^ (8 - cur)) :
    (buffer ||| v <<< (8 - cur - g).toUInt8).toNat =
      (acc * 2 ^ g + v.toNat) * 2 ^ (8 - (cur + g)) := by
  have hsplit : 2 ^ (8 - cur) = 2 ^ g * 2 ^ (8 - (cur + g)) := by
    rw [← Nat.pow_add, show g + (8 - (cur + g)) = 8 - cur by omega]
  have hlow : v.toNat * 2 ^ (8 - (cur + g)) < 2 ^ (8 - cur) := by
    rw [hsplit]
    exact Nat.mul_lt_mul_of_pos_right hv (Nat.two_pow_pos _)
  have hle : 2 ^ (8 - cur) ≤ 256 := by
    have := Nat.pow_le_pow_right (show 0 < 2 by omega) (show 8 - cur ≤ 8 by omega)
    simpa using this
  have hshift : (v <<< (8 - cur - g).toUInt8).toNat = v.toNat * 2 ^ (8 - (cur + g)) := by
    rw [toNat_shiftLeft_of_lt _ (by omega), show 8 - cur - g = 8 - (cur + g) by omega]
    exact Nat.mod_eq_of_lt (by omega)
  rw [UInt8.toNat_or, hshift, hbuf, mul_two_pow_or_eq_add _ hlow, hsplit]
  ring

/-- The byte written when a value crosses the border: `acc`, then the value's first
`8 - cur` bits. -/
theorem toNat_or_shiftRight (hcur : cur < 8) (hspan : 8 < cur + g) (hg : g < 8)
    (hv : v.toNat < 2 ^ g)
    (hbuf : buffer.toNat = acc * 2 ^ (8 - cur)) :
    (buffer ||| v >>> (cur + g - 8).toUInt8).toNat =
      acc * 2 ^ (8 - cur) + v.toNat / 2 ^ (cur + g - 8) := by
  have hhigh : v.toNat / 2 ^ (cur + g - 8) < 2 ^ (8 - cur) := by
    rw [Nat.div_lt_iff_lt_mul (Nat.two_pow_pos _), ← Nat.pow_add,
      show 8 - cur + (cur + g - 8) = g by omega]
    exact hv
  rw [UInt8.toNat_or, toNat_shiftRight_of_lt _ (by omega), hbuf, mul_two_pow_or_eq_add _ hhigh]

/-- The byte started when a value crosses the border: the value's last
`cur + g - 8` bits. -/
theorem toNat_zero_or_shiftLeft (hcur : cur < 8) (hspan : 8 < cur + g) (hg : g < 8) :
    ((0 : UInt8) ||| v <<< (8 - (cur + g - 8)).toUInt8).toNat =
      v.toNat % 2 ^ (cur + g - 8) * 2 ^ (8 - (cur + g - 8)) := by
  rw [UInt8.toNat_or, toNat_shiftLeft_of_lt _ (by omega), UInt8.toNat_zero, Nat.zero_or,
    show (256 : ℕ) = 2 ^ (cur + g - 8) * 2 ^ (8 - (cur + g - 8)) by
      rw [← Nat.pow_add, show cur + g - 8 + (8 - (cur + g - 8)) = 8 by omega]]
  exact Nat.mul_mod_mul_right _ _ _

end Buffer

theorem digits_cons_of_isspace (t : ConversionTraits) {c : UInt8} (chars : List UInt8)
    (h : isspace c = true) : digits t (c :: chars) = digits t chars := by
  simp [digits, digit, h]

theorem digits_cons_of_error (t : ConversionTraits) {c : UInt8} (chars : List UInt8)
    (hs : isspace c = false) (h : t.decode c = Error) :
    digits t (c :: chars) = digits t chars := by
  simp [digits, digit, hs, h]

theorem digits_cons_of_digit (t : ConversionTraits) {c : UInt8} (chars : List UInt8)
    (hs : isspace c = false) (h : t.decode c ≠ Error) :
    digits t (c :: chars) = (t.decode c).toNat :: digits t chars := by
  simp [digits, digit, hs, h]

/-- The loop of `decode` from a `buffer` that holds the `cur` bits `acc` writes the whole
bytes of `acc`'s bits followed by the values of the characters left, and leaves fewer
than eight bits. The induction is on the characters; each case of the loop's body keeps
`buffer` holding the bits read since the last byte written. -/
theorem decodeLoop_spec (t : ConversionTraits) (chars : List UInt8) (cur acc : ℕ)
    (buffer : UInt8) (out : List UInt8) (hcur : cur < 8) (hacc : acc < 2 ^ cur)
    (hbuf : buffer.toNat = acc * 2 ^ (8 - cur)) :
    ∃ bytes tail, decodeLoop t chars cur buffer out = out ++ bytes ∧ tail.length < 8 ∧
      byteBits bytes ++ tail = bitsBE cur acc ++ bitStream t.group_length (digits t chars) := by
  have hgpos := t.group_length_pos
  have hglt := t.group_length_lt
  induction chars generalizing cur acc buffer out with
  | nil => exact ⟨[], bitsBE cur acc, by simp [decodeLoop], by simpa using hcur, by simp [digits]⟩
  | cons c chars ih =>
    by_cases hs : isspace c = true
    · rw [decodeLoop_cons_of_isspace hs, digits_cons_of_isspace t chars hs]
      exact ih cur acc buffer out hcur hacc hbuf
    rw [Bool.not_eq_true] at hs
    by_cases he : t.decode c = Error
    · rw [decodeLoop_cons_of_error hs he, digits_cons_of_error t chars hs he]
      exact ih cur acc buffer out hcur hacc hbuf
    have hv := t.decode_lt c he
    rw [digits_cons_of_digit t chars hs he, bitStream_cons]
    by_cases hfit : cur + t.group_length ≤ 8
    · -- the value fits in the current byte
      have hbuf' := toNat_or_shiftLeft hgpos hfit hv hbuf
      have hacc' : acc * 2 ^ t.group_length + (t.decode c).toNat < 2 ^ (cur + t.group_length) :=
        calc acc * 2 ^ t.group_length + (t.decode c).toNat
            < acc * 2 ^ t.group_length + 2 ^ t.group_length := by omega
          _ = (acc + 1) * 2 ^ t.group_length := by ring
          _ ≤ 2 ^ cur * 2 ^ t.group_length := Nat.mul_le_mul_right _ hacc
          _ = 2 ^ (cur + t.group_length) := (Nat.pow_add 2 cur t.group_length).symm
      have hbits : bitsBE cur acc ++ bitsBE t.group_length (t.decode c).toNat =
          bitsBE (cur + t.group_length) (acc * 2 ^ t.group_length + (t.decode c).toNat) :=
        (bitsBE_mul_add cur hv).symm
      rw [decodeLoop_cons_of_fits hs he hfit]
      by_cases hfull : cur + t.group_length = 8
      · -- the byte is full: it is written and the next one starts empty
        rw [if_pos hfull]
        obtain ⟨bytes, tail, hrun, htail, hb⟩ :=
          ih 0 0 0 (out ++ [buffer ||| t.decode c <<< (8 - cur - t.group_length).toUInt8])
            (by omega) (by simp) (by simp)
        refine ⟨_ :: bytes, tail, by rw [hrun, List.append_assoc, List.singleton_append],
          htail, ?_⟩
        rw [byteBits_cons, List.append_assoc, hb, hbuf', hfull, Nat.sub_self, Nat.pow_zero,
          Nat.mul_one, bitsBE_zero_width, List.nil_append, ← hfull, ← hbits, List.append_assoc]
      · rw [if_neg hfull]
        obtain ⟨bytes, tail, hrun, htail, hb⟩ := ih _ _ _ out (by omega) hacc' hbuf'
        exact ⟨bytes, tail, hrun, htail, by rw [hb, ← List.append_assoc, hbits]⟩
    · -- the value crosses into the next byte
      have hspan : 8 < cur + t.group_length := by omega
      have hbyte := toNat_or_shiftRight hcur hspan hglt hv hbuf
      have hrest := toNat_zero_or_shiftLeft (v := t.decode c) hcur hspan hglt
      obtain ⟨bytes, tail, hrun, htail, hb⟩ :=
        ih (cur + t.group_length - 8) ((t.decode c).toNat % 2 ^ (cur + t.group_length - 8)) _
          (out ++ [buffer ||| t.decode c >>> (cur + t.group_length - 8).toUInt8]) (by omega)
          (Nat.mod_lt _ (Nat.two_pow_pos _)) hrest
      rw [decodeLoop_cons_of_spans hs he hcur hspan]
      refine ⟨_ :: bytes, tail, by rw [hrun, List.append_assoc, List.singleton_append], htail, ?_⟩
      have hhigh : (t.decode c).toNat / 2 ^ (cur + t.group_length - 8) < 2 ^ (8 - cur) := by
        rw [Nat.div_lt_iff_lt_mul (Nat.two_pow_pos _), ← Nat.pow_add,
          show 8 - cur + (cur + t.group_length - 8) = t.group_length by omega]
        exact hv
      -- the value's bits: the `8 - cur` that close the byte, then the rest
      have hsplit := bitsBE_add (8 - cur) (cur + t.group_length - 8) (t.decode c).toNat
      rw [show 8 - cur + (cur + t.group_length - 8) = t.group_length by omega] at hsplit
      have hclose := bitsBE_mul_add cur hhigh (x := acc)
      rw [show cur + (8 - cur) = 8 by omega] at hclose
      rw [byteBits_cons, hbyte, hclose, List.append_assoc, hb,
        bitsBE_mod_two_pow _ (le_refl _), hsplit]
      simp


/-! ## `decode` -/

/-- `decode` writes the whole bytes of the bits of the characters' values, and leaves
fewer than eight bits. -/
theorem decode_spec (t : ConversionTraits) (chars : List UInt8) :
    ∃ tail, tail.length < 8 ∧
      byteBits (decode t chars) ++ tail = bitStream t.group_length (digits t chars) := by
  obtain ⟨bytes, tail, hrun, htail, hb⟩ :=
    decodeLoop_spec t chars 0 0 0 [] (by omega) (by simp) (by simp)
  refine ⟨tail, htail, ?_⟩
  rw [decode, hrun, List.nil_append, hb, bitsBE_zero_width, List.nil_append]

/-- Byte strings whose bits agree up to fewer than eight trailing bits are equal. -/
theorem byteBits_append_inj {xs ys : List UInt8} {tail tail' : List Bool} (htail : tail.length < 8)
    (htail' : tail'.length < 8) (h : byteBits xs ++ tail = byteBits ys ++ tail') : xs = ys := by
  have hlt : ∀ zs : List UInt8, ∀ z ∈ zs.map UInt8.toNat, z < 2 ^ 8 := by
    intro zs z hz
    obtain ⟨b, -, rfl⟩ := List.mem_map.mp hz
    exact UInt8.toNat_lt b
  obtain ⟨hmap, -⟩ := bitStream_append_inj (by omega) (hlt xs) (hlt ys) htail htail' h
  exact List.map_injective_iff.mpr (fun _ _ h => UInt8.toNat_inj.mp h) hmap

/-- `decode` accepts any text: it writes the whole bytes of the bits of the values of the
characters it knows, in order, and drops the bits after the last whole byte. -/
theorem decode_whole_bytes (t : ConversionTraits) (chars : List UInt8) :
    (decode t chars).length = t.group_length * (digits t chars).length / 8 ∧
      byteBits (decode t chars) <+: bitStream t.group_length (digits t chars) := by
  obtain ⟨tail, htail, h⟩ := decode_spec t chars
  have hlen := congrArg List.length h
  simp only [List.length_append, byteBits, length_bitStream, List.length_map] at hlen
  exact ⟨by omega, ⟨tail, h⟩⟩

theorem digits_append (t : ConversionTraits) (xs ys : List UInt8) :
    digits t (xs ++ ys) = digits t xs ++ digits t ys :=
  List.filterMap_append

/-! ## `decode` undoes `encode` -/

section RoundTrip

variable (t : ConversionTraits)

/-- No value of a group is `Error`: groups have at most seven bits. -/
theorem ne_Error_of_lt {v : UInt8} (hv : v.toNat < 2 ^ t.group_length) : v ≠ Error := by
  intro h
  have hle : 2 ^ t.group_length ≤ 2 ^ 7 :=
    Nat.pow_le_pow_right (by omega) (by have := t.group_length_lt; omega)
  rw [h] at hv
  exact absurd (hv.trans_le hle) (by decide)

/-- `decode` reads the characters of an alphabet it inverts as their values. -/
theorem digits_map_encode
    (hdec : ∀ v : UInt8, v.toNat < 2 ^ t.group_length → t.decode (t.encode v) = v)
    (hspace : ∀ v : UInt8, v.toNat < 2 ^ t.group_length → isspace (t.encode v) = false)
    {vals : List UInt8} (hvals : ∀ v ∈ vals, v.toNat < 2 ^ t.group_length) :
    digits t (vals.map t.encode) = vals.map UInt8.toNat := by
  induction vals with
  | nil => rfl
  | cons v vals ih =>
    have hv := hvals v List.mem_cons_self
    have hne : t.decode (t.encode v) ≠ Error := by
      rw [hdec v hv]
      exact ne_Error_of_lt t hv
    rw [List.map_cons, digits_cons_of_digit t _ (hspace v hv) hne, hdec v hv,
      ih (fun w hw => hvals w (List.mem_cons_of_mem v hw)), List.map_cons]

/-- `decode` skips the `'='` that pad the text. -/
theorem digits_replicate_pad (hpad : t.decode '='.toUInt8 = Error) (k : ℕ) :
    digits t (List.replicate k '='.toUInt8) = [] := by
  induction k with
  | zero => rfl
  | succ k ih => rw [List.replicate_succ, digits_cons_of_error t _ (by decide) hpad, ih]

/-- For an alphabet that `decode` reads back as its values and that has neither white space
nor `'='` in it, `decode` returns the bytes `encode` was given. -/
theorem decode_encode
    (hdec : ∀ v : UInt8, v.toNat < 2 ^ t.group_length → t.decode (t.encode v) = v)
    (hspace : ∀ v : UInt8, v.toNat < 2 ^ t.group_length → isspace (t.encode v) = false)
    (hpad : t.decode '='.toUInt8 = Error) (bytes : List UInt8) :
    decode t (encode t bytes) = bytes := by
  obtain ⟨vals, p, k, henc⟩ := encode_spec t bytes
  obtain ⟨tail, htail, hdecoded⟩ := decode_spec t (encode t bytes)
  have hdigits : digits t (encode t bytes) = vals.map UInt8.toNat := by
    rw [henc.text_eq, digits_append, digits_map_encode t hdec hspace henc.vals_lt,
      digits_replicate_pad t hpad, List.append_nil]
  rw [hdigits, henc.bits_eq] at hdecoded
  have hp : (List.replicate p false).length < 8 := by
    rw [List.length_replicate]
    exact henc.pad_lt.trans t.group_length_lt
  exact byteBits_append_inj htail hp hdecoded

end RoundTrip

/-! ## The alphabets of base 32 and base 64

Each fact about an alphabet is checked case by case, over the values of a group
(`of_forall_lt`) or over a range of characters (`of_forall_range`), and on the dictionary's
bytes (`b32_dictionary_eq`) rather than on its string, which is slow to evaluate. -/

section Alphabet

/-- A fact about the bytes below `n` follows from its `n` cases. -/
theorem of_forall_lt {P : UInt8 → Prop} (n : ℕ) (h : ∀ i : Fin n, P (UInt8.ofNat i)) {v : UInt8}
    (hv : v.toNat < n) : P v := by
  have hcase : P (UInt8.ofNat v.toNat) := h ⟨v.toNat, hv⟩
  rwa [UInt8.ofNat_toNat] at hcase

@[simp] theorem b32_group_length : b32_conversion_traits.group_length = 5 := rfl

@[simp] theorem b64_group_length : b64_conversion_traits.group_length = 6 := rfl

/-- The base-32 dictionary, byte by byte. -/
theorem b32_dictionary_eq : b32_dictionary =
    [65, 66, 67, 68, 69, 70, 71, 72, 73, 74, 75, 76, 77, 78, 79, 80, 81, 82, 83, 84, 85, 86, 87,
      88, 89, 90, 50, 51, 52, 53, 54, 55] := by
  rfl

/-- The base-64 dictionary, byte by byte. -/
theorem b64_dictionary_eq : b64_dictionary =
    [65, 66, 67, 68, 69, 70, 71, 72, 73, 74, 75, 76, 77, 78, 79, 80, 81, 82, 83, 84, 85, 86, 87,
      88, 89, 90, 97, 98, 99, 100, 101, 102, 103, 104, 105, 106, 107, 108, 109, 110, 111, 112,
      113, 114, 115, 116, 117, 118, 119, 120, 121, 122, 48, 49, 50, 51, 52, 53, 54, 55, 56, 57,
      43, 47] := by
  rfl

theorem b32_encode_eq (v : UInt8) :
    b32_conversion_traits.encode v = b32_dictionary.getD v.toNat 0 := rfl

theorem b64_encode_eq (v : UInt8) :
    b64_conversion_traits.encode v = b64_dictionary.getD v.toNat 0 := rfl

/-- `decode` reads each character of the base-32 alphabet back as its index, and none of
them is white space. -/
theorem b32_alphabet (v : UInt8) (hv : v.toNat < 2 ^ 5) :
    b32_conversion_traits.decode (b32_conversion_traits.encode v) = v ∧
      isspace (b32_conversion_traits.encode v) = false := by
  refine of_forall_lt (P := fun v => b32_conversion_traits.decode (b32_conversion_traits.encode v) = v ∧
    isspace (b32_conversion_traits.encode v) = false) 32 ?_ hv
  simp only [b32_encode_eq, b32_dictionary_eq]
  decide

/-- The same for base 64. -/
theorem b64_alphabet (v : UInt8) (hv : v.toNat < 2 ^ 6) :
    b64_conversion_traits.decode (b64_conversion_traits.encode v) = v ∧
      isspace (b64_conversion_traits.encode v) = false := by
  refine of_forall_lt (P := fun v => b64_conversion_traits.decode (b64_conversion_traits.encode v) = v ∧
    isspace (b64_conversion_traits.encode v) = false) 64 ?_ hv
  simp only [b64_encode_eq, b64_dictionary_eq]
  decide

theorem b32_decode_encode (v : UInt8) (hv : v.toNat < 2 ^ 5) :
    b32_conversion_traits.decode (b32_conversion_traits.encode v) = v :=
  (b32_alphabet v hv).1

theorem b32_isspace_encode (v : UInt8) (hv : v.toNat < 2 ^ 5) :
    isspace (b32_conversion_traits.encode v) = false :=
  (b32_alphabet v hv).2

theorem b64_decode_encode (v : UInt8) (hv : v.toNat < 2 ^ 6) :
    b64_conversion_traits.decode (b64_conversion_traits.encode v) = v :=
  (b64_alphabet v hv).1

theorem b64_isspace_encode (v : UInt8) (hv : v.toNat < 2 ^ 6) :
    isspace (b64_conversion_traits.encode v) = false :=
  (b64_alphabet v hv).2

/-- A fact about the bytes from `lo` to `hi` follows from its cases. -/
theorem of_forall_range {P : UInt8 → Prop} (lo hi : UInt8)
    (h : ∀ i : Fin (hi.toNat - lo.toNat + 1), P (UInt8.ofNat (lo.toNat + i))) {c : UInt8}
    (hc : (c ≥ lo && c ≤ hi) = true) : P c := by
  obtain ⟨hlo, hhi⟩ := inRange_iff.mp hc
  have hcase : P (UInt8.ofNat (lo.toNat + (c.toNat - lo.toNat))) :=
    h ⟨c.toNat - lo.toNat, by omega⟩
  rwa [Nat.add_sub_cancel' hlo, UInt8.ofNat_toNat] at hcase

/-- `encode` writes back every character `decode` knows: the letters and the digits `2` to
`7`, each range checked in full. -/
theorem b32_encode_decode (c : UInt8) (_hs : isspace c = false)
    (he : b32_conversion_traits.decode c ≠ Error) :
    b32_conversion_traits.encode (b32_conversion_traits.decode c) = c := by
  by_cases hAZ : (c ≥ 'A'.toUInt8 && c ≤ 'Z'.toUInt8) = true
  · refine of_forall_range (P := fun c => b32_conversion_traits.encode
      (b32_conversion_traits.decode c) = c) _ _ ?_ hAZ
    simp only [b32_encode_eq, b32_dictionary_eq]
    decide
  by_cases h27 : (c ≥ '2'.toUInt8 && c ≤ '7'.toUInt8) = true
  · refine of_forall_range (P := fun c => b32_conversion_traits.encode
      (b32_conversion_traits.decode c) = c) _ _ ?_ h27
    simp only [b32_encode_eq, b32_dictionary_eq]
    decide
  -- any other character is an `Error`
  exact absurd (by simp only [b32_conversion_traits]; rw [if_neg hAZ, if_neg h27]) he

/-- The characters of the base-32 dictionary are the ones `decode` knows, and none of them
is white space. -/
theorem b32_dictionary_digits : ∀ c ∈ b32_dictionary,
    isspace c = false ∧ b32_conversion_traits.decode c ≠ Error := by
  have hall : (b32_dictionary.all fun c => !isspace c && b32_conversion_traits.decode c != Error) =
      true := by
    rw [b32_dictionary_eq]
    rfl
  intro c hc
  simpa using List.all_eq_true.mp hall c hc

end Alphabet

theorem decode_b32_encode_b32 (v : List UInt8) : decode_b32 (encode_b32 v) = v :=
  decode_encode b32_conversion_traits b32_decode_encode b32_isspace_encode (by decide) v

theorem decode_b64_encode_b64 (v : List UInt8) : decode_b64 (encode_b64 v) = v :=
  decode_encode b64_conversion_traits b64_decode_encode b64_isspace_encode (by decide) v

/-! ## `encode` undoes `decode` on whole texts of the alphabet -/

section Canonical

variable (t : ConversionTraits)

theorem digits_eq_map {chars : List UInt8}
    (hchars : ∀ c ∈ chars, isspace c = false ∧ t.decode c ≠ Error) :
    digits t chars = chars.map fun c => (t.decode c).toNat :=
  List.filterMap_eq_map_iff_forall_eq_some.mpr fun c hc => by
    simp [digit, (hchars c hc).1, (hchars c hc).2]

/-- A text with as many values as characters has only characters `decode` reads. -/
theorem reads_all_of_length_digits {chars : List UInt8}
    (h : (digits t chars).length = chars.length) :
    ∀ c ∈ chars, isspace c = false ∧ t.decode c ≠ Error := by
  induction chars with
  | nil => simp
  | cons c chars ih =>
    have hle : (digits t chars).length ≤ chars.length := List.length_filterMap_le _ _
    by_cases hs : isspace c = true
    · rw [digits_cons_of_isspace t chars hs, List.length_cons] at h
      omega
    rw [Bool.not_eq_true] at hs
    by_cases he : t.decode c = Error
    · rw [digits_cons_of_error t chars hs he, List.length_cons] at h
      omega
    rw [digits_cons_of_digit t chars hs he, List.length_cons, List.length_cons] at h
    intro x hx
    rcases List.mem_cons.mp hx with rfl | hx
    · exact ⟨hs, he⟩
    · exact ih (by omega) x hx

/-- A text of characters `decode` reads, whose bits fill whole bytes, is the text
`encode` writes for the bytes it decodes to, for an alphabet that `encode` writes back. -/
theorem encode_decode
    (hinv : ∀ c, isspace c = false → t.decode c ≠ Error → t.encode (t.decode c) = c)
    {chars : List UInt8} (hchars : ∀ c ∈ chars, isspace c = false ∧ t.decode c ≠ Error)
    (hwhole : t.group_length * chars.length % 8 = 0) :
    encode t (decode t chars) = chars := by
  have hg := t.group_length_pos
  have hdig := digits_eq_map t hchars
  obtain ⟨tail, htail, hdec⟩ := decode_spec t chars
  -- the bits fill whole bytes: nothing is left over
  have hlen := congrArg List.length hdec
  simp only [List.length_append, byteBits, length_bitStream, List.length_map, hdig] at hlen
  have htail0 : tail = [] := List.eq_nil_of_length_eq_zero (by omega)
  rw [htail0, List.append_nil] at hdec
  obtain ⟨vals, p, k, henc⟩ := encode_spec t (decode t chars)
  -- the groups are as many as the characters, and no zero bit is added
  have hbits := henc.group_bits
  have hvals : vals.length = chars.length := by
    rcases lt_trichotomy vals.length chars.length with hlt | heq | hgt
    · have := Nat.mul_le_mul_left t.group_length (Nat.succ_le_of_lt hlt)
      rw [Nat.mul_succ] at this
      omega
    · exact heq
    · have := Nat.mul_le_mul_left t.group_length (Nat.succ_le_of_lt hgt)
      rw [Nat.mul_succ] at this
      have := henc.pad_lt
      omega
  have hp : p = 0 := by rw [hvals] at hbits; omega
  have hk : k = 0 := by
    by_contra hk
    exact henc.fewest 0 (by omega) (by rw [Nat.add_zero, hvals]; exact hwhole)
  -- the groups are the characters' values
  have hsame : vals.map UInt8.toNat = (chars.map t.decode).map UInt8.toNat := by
    apply bitStream_inj hg
    · intro x hx
      obtain ⟨v, hv, rfl⟩ := List.mem_map.mp hx
      exact henc.vals_lt v hv
    · intro x hx
      obtain ⟨v, hv, rfl⟩ := List.mem_map.mp hx
      obtain ⟨c, hc, rfl⟩ := List.mem_map.mp hv
      exact t.decode_lt c (hchars c hc).2
    · rw [henc.bits_eq, hp, List.replicate_zero, List.append_nil, hdec, hdig, List.map_map]
      rfl
  have hvals_eq : vals = chars.map t.decode :=
    List.map_injective_iff.mpr (fun _ _ h => UInt8.toNat_inj.mp h) hsame
  rw [henc.text_eq, hk, List.replicate_zero, List.append_nil, hvals_eq, List.map_map]
  exact (List.map_congr_left (g := id) fun c hc => hinv c (hchars c hc).1 (hchars c hc).2).trans
    (List.map_id chars)

end Canonical

/-- A text of base-32 characters whose length is a multiple of eight is the text
`encode_b32` writes for the bytes `decode_b32` reads from it. -/
theorem encode_b32_decode_b32 {s : List UInt8} (hs : ∀ c ∈ s, c ∈ b32_dictionary)
    (hlen : s.length % 8 = 0) : encode_b32 (decode_b32 s) = s := by
  have hchars : ∀ c ∈ s, isspace c = false ∧ b32_conversion_traits.decode c ≠ Error :=
    fun c hc => b32_dictionary_digits c (hs c hc)
  exact encode_decode b32_conversion_traits b32_encode_decode hchars (by
    rw [b32_group_length]; omega)

/-- `MZXW6YTB`, the base-32 text of `fooba`, is written back as it is read. -/
theorem encode_b32_decode_b32_fooba :
    encode_b32 (decode_b32 ("MZXW6YTB".toList.map Char.toUInt8)) =
      "MZXW6YTB".toList.map Char.toUInt8 := by
  have hall : ("MZXW6YTB".toList.map Char.toUInt8).all (b32_dictionary.contains ·) = true := by
    rw [b32_dictionary_eq]
    rfl
  exact encode_b32_decode_b32 (fun c hc => List.contains_iff_mem.mp (List.all_eq_true.mp hall c hc))
    (by decide)

/-! ## The size of the text -/

/-- `encode_b32` writes exactly the `encoded_size32` characters `decoder::encode_b32`
reserves: the eight bits of each byte in groups of five, then `'='` up to a multiple of
eight characters. -/
theorem length_encode_b32 (v : List UInt8) : (encode_b32 v).length = encoded_size32 v.length := by
  obtain ⟨vals, p, k, h⟩ := encode_spec b32_conversion_traits v
  have hbits := h.group_bits
  have hk := h.k_lt
  have hwhole := h.whole
  have hp := h.pad_lt
  simp only [b32_group_length] at hbits hwhole hp
  rw [encode_b32, h.length_eq, encoded_size32]
  omega

/-- `encode_b64` writes exactly the `encoded_size64` characters `decoder::encode_b64`
reserves. Six and eight share a factor, so four `'='` fewer would also end on a byte; the
loop writes the fewest. -/
theorem length_encode_b64 (v : List UInt8) : (encode_b64 v).length = encoded_size64 v.length := by
  obtain ⟨vals, p, k, h⟩ := encode_spec b64_conversion_traits v
  have hbits := h.group_bits
  have hk := h.k_lt
  have hwhole := h.whole
  have hp := h.pad_lt
  have hfew : 4 ≤ k → 6 * (vals.length + (k - 4)) % 8 ≠ 0 := fun h4 => h.fewest (k - 4) (by omega)
  simp only [b64_group_length] at hbits hwhole hp
  rw [encode_b64, h.length_eq, encoded_size64]
  omega

end Basen

end HcnetCore
