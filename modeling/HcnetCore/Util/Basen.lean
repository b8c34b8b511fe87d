import Mathlib.Data.FinEnum

/-!
# Base-16, base-32 and base-64 text (`lib/util/basen.h`, `util/Decoder.h`)

`bn::encode` reads bytes and writes one character for each group of
`group_length()` bits, most significant bits first; the last group is filled with
zero bits, and `'='` is written until the text ends on a byte boundary. `bn::decode`
reads characters back into bytes: it skips white space and every character the
alphabet does not know (`'='` among them), and drops a last byte it cannot fill.

Both loops are translated statement by statement. `encode` is a `while` loop over a
state of five variables (`iter`, `start_bit`, `has_backlog`, `backlog` and the output
written so far); `encodeStep` is one pass of its body, `encodeLoop` runs it, and
`padding` is the loop that writes `'='`. The fuel of the two loops is a bound the
specification proves sufficient (`HcnetCore.Basen.encode_spec`). `decode` reads one
character a pass, so `decodeLoop` recurses on the text.

Characters and bytes are `UInt8`, the `unsigned char` the source computes with. The
source's shifts and masks are on `unsigned char` values promoted to `int`; they are
`UInt8` operations here, whose results agree with the source's once masked, as the
source masks each one. A conversion traits class is a `ConversionTraits`, whose
`group_length` is between one and seven (no traits of the source has another, and for
none other does `encode` stop) and whose `decode` gives values of `group_length` bits
(else `decode` would shift bits out of its byte).
-/

namespace HcnetCore

namespace Basen

/-- `Error`, the largest `unsigned char`: `decode` of a character outside the alphabet. -/
def Error : UInt8 := 255

/-- The static members of a conversion traits class (`b16_conversion_traits`, ...), with
what `encode` and `decode` rely on: groups of one to seven bits, and a value that fits
its group for every character `decode` knows. -/
structure ConversionTraits where
  group_length : ℕ
  /-- The character of a `group_length`-bit value (`dictionary[index]`). -/
  encode : UInt8 → UInt8
  /-- The value of a character, or `Error`. -/
  decode : UInt8 → UInt8
  group_length_pos : 0 < group_length
  group_length_lt : group_length < 8
  decode_lt : ∀ c, decode c ≠ Error → (decode c).toNat < 2 ^ group_length

/-- The bits `start_bit` to `start_bit + bits_count - 1` of `value`, counted from the
most significant one. -/
def extract_partial_bits (value : UInt8) (start_bit bits_count : ℕ) : UInt8 :=
  -- shift extracted bits to the beginning of the byte
  let t1 := value >>> (8 - bits_count - start_bit).toUInt8
  -- mask out bits on the left
  let t2 := t1 &&& ~~~((0xff : UInt8) <<< bits_count.toUInt8)
  t2

/-- `bits_count` bits from bit `start_bit` of `previous` on, running into `next`.
When no bit is taken from `next`, the source shifts the promoted `next` right by eight
and a `UInt8` shift by eight is no shift; the mask of zero bits clears both. -/
def extract_overlapping_bits (previous next : UInt8) (start_bit bits_count : ℕ) : UInt8 :=
  let bits_count_in_previous := 8 - start_bit
  let bits_count_in_next := bits_count - bits_count_in_previous
  let t1 := previous <<< bits_count_in_next.toUInt8
  let t2 := next >>> (8 - bits_count_in_next).toUInt8 &&&
    ~~~((0xff : UInt8) <<< bits_count_in_next.toUInt8)
  (t1 ||| t2) &&& ~~~((0xff : UInt8) <<< bits_count.toUInt8)

/-! ## Characters in a range

Each branch of a `decode` tests that a character lies in a range of the alphabet and
subtracts the range's first character; its value then fits the group. -/

section Range

variable {c lo hi : UInt8}

theorem inRange_iff : (c ≥ lo && c ≤ hi) = true ↔ lo.toNat ≤ c.toNat ∧ c.toNat ≤ hi.toNat := by
  simp [UInt8.le_iff_toNat_le]

theorem toNat_sub_lt (h : (c ≥ lo && c ≤ hi) = true) {g : ℕ}
    (hg : hi.toNat - lo.toNat < 2 ^ g) : (c - lo).toNat < 2 ^ g := by
  obtain ⟨hlo, hhi⟩ := inRange_iff.mp h
  rw [UInt8.toNat_sub_of_le _ _ (UInt8.le_iff_toNat_le.mpr hlo)]
  omega

/-- A character of the range, less its first and plus `k`, fits when the range shifted by
`k` does: the sum does not wrap. -/
theorem toNat_sub_add_lt (h : (c ≥ lo && c ≤ hi) = true) (k : UInt8) {g : ℕ}
    (hg : hi.toNat - lo.toNat + k.toNat < 2 ^ g) : (c - lo + k).toNat < 2 ^ g := by
  obtain ⟨hlo, hhi⟩ := inRange_iff.mp h
  rw [UInt8.toNat_add, UInt8.toNat_sub_of_le _ _ (UInt8.le_iff_toNat_le.mpr hlo)]
  exact lt_of_le_of_lt (Nat.mod_le _ _) (by omega)

end Range

/-- `b16_conversion_traits::dictionary`. -/
def b16_dictionary : List UInt8 := "0123456789ABCDEF".toList.map Char.toUInt8

/-- `b32_conversion_traits::dictionary`. -/
def b32_dictionary : List UInt8 := "ABCDEFGHIJKLMNOPQRSTUVWXYZ234567".toList.map Char.toUInt8

/-- `b64_conversion_traits::dictionary`. -/
def b64_dictionary : List UInt8 :=
  "ABCDEFGHIJKLMNOPQRSTUVWXYZabcdefghijklmnopqrstuvwxyz0123456789+/".toList.map Char.toUInt8

/-- `b16_conversion_traits`. -/
def b16_conversion_traits : ConversionTraits where
  group_length := 4
  encode index := b16_dictionary.getD index.toNat 0
  decode c :=
    if c ≥ '0'.toUInt8 && c ≤ '9'.toUInt8 then c - '0'.toUInt8
    else if c ≥ 'A'.toUInt8 && c ≤ 'F'.toUInt8 then c - 'A'.toUInt8 + 10
    else Error
  group_length_pos := by decide
  group_length_lt := by decide
  decode_lt := by
    intro c hc
    split_ifs at hc ⊢ with h09 hAF
    · exact toNat_sub_lt h09 (by decide)
    · exact toNat_sub_add_lt hAF 10 (by decide)
    · exact absurd rfl hc

/-- `b32_conversion_traits`. -/
def b32_conversion_traits : ConversionTraits where
  group_length := 5
  encode index := b32_dictionary.getD index.toNat 0
  decode c :=
    if c ≥ 'A'.toUInt8 && c ≤ 'Z'.toUInt8 then c - 'A'.toUInt8
    else if c ≥ '2'.toUInt8 && c ≤ '7'.toUInt8 then c - '2'.toUInt8 + 26
    else Error
  group_length_pos := by decide
  group_length_lt := by decide
  decode_lt := by
    intro c hc
    split_ifs at hc ⊢ with hAZ h27
    · exact toNat_sub_lt hAZ (by decide)
    · exact toNat_sub_add_lt h27 26 (by decide)
    · exact absurd rfl hc

/-- `b64_conversion_traits`. -/
def b64_conversion_traits : ConversionTraits where
  group_length := 6
  encode index := b64_dictionary.getD index.toNat 0
  decode c :=
    let alph_len : UInt8 := 26
    if c ≥ 'A'.toUInt8 && c ≤ 'Z'.toUInt8 then c - 'A'.toUInt8
    else if c ≥ 'a'.toUInt8 && c ≤ 'z'.toUInt8 then c - 'a'.toUInt8 + alph_len * 1
    else if c ≥ '0'.toUInt8 && c ≤ '9'.toUInt8 then c - '0'.toUInt8 + alph_len * 2
    else if c == '+'.toUInt8 then c - '+'.toUInt8 + alph_len * 2 + 10
    else if c == '/'.toUInt8 then c - '/'.toUInt8 + alph_len * 2 + 11
    else Error
  group_length_pos := by decide
  group_length_lt := by decide
  decode_lt := by
    intro c hc
    -- `alph_len` substituted
    simp only at hc ⊢
    split_ifs at hc ⊢ with hAZ haz h09 hplus hslash
    · exact toNat_sub_lt hAZ (by decide)
    · exact toNat_sub_add_lt haz _ (by decide)
    · exact toNat_sub_add_lt h09 _ (by decide)
    -- `'+'` and `'/'` are single characters
    · rw [beq_iff_eq.mp hplus]
      decide
    · rw [beq_iff_eq.mp hslash]
      decide
    · exact absurd rfl hc

/-- `std::isspace` in the `"C"` locale: space, `\t`, `\n`, `\v`, `\f` and `\r`. -/
def isspace (c : UInt8) : Bool :=
  c == 32 || (9 ≤ c && c ≤ 13)

/-- The variables of the loop of `encode`. -/
structure EncodeState where
  /-- The bytes from `iter` to `end`. -/
  iter : List UInt8
  start_bit : ℕ
  has_backlog : Bool
  backlog : UInt8
  /-- The characters written to `out` so far. -/
  out : List UInt8
deriving DecidableEq, Repr

/-- One pass of the body of `encode`'s `while (has_backlog || iter != end)` loop, or
`none` when the loop's condition fails. -/
def encodeStep (t : ConversionTraits) (st : EncodeState) : Option EncodeState :=
  match st.has_backlog, st.iter with
  | false, [] => none
  | false, b :: rest =>
    if st.start_bit + t.group_length < 8 then
      -- the value fits within a single byte
      let v := extract_partial_bits b st.start_bit t.group_length
      some { st with out := st.out ++ [t.encode v], start_bit := st.start_bit + t.group_length }
    else
      -- the bits span the byte border: keep this byte and move over to the next one
      some { st with backlog := b, iter := rest, has_backlog := true }
  | true, iter =>
    let v := match iter with
      | [] => extract_overlapping_bits st.backlog 0 st.start_bit t.group_length
      | next :: _ => extract_overlapping_bits st.backlog next st.start_bit t.group_length
    some { st with out := st.out ++ [t.encode v], has_backlog := false,
                   start_bit := (st.start_bit + t.group_length) % 8 }

/-- The loop of `encode`, for at most `fuel` passes. -/
def encodeLoop (t : ConversionTraits) : ℕ → EncodeState → EncodeState
  | 0, st => st
  | fuel + 1, st =>
    match encodeStep t st with
    | none => st
    | some st' => encodeLoop t fuel st'

/-- `while (start_bit != 0) { *out++ = '='; start_bit = (start_bit + group_length()) % 8; }`,
for at most `fuel` passes. -/
def padding (t : ConversionTraits) : ℕ → ℕ → List UInt8 → List UInt8
  | 0, _, out => out
  | fuel + 1, start_bit, out =>
    if start_bit != 0 then padding t fuel ((start_bit + t.group_length) % 8) (out ++ ['='.toUInt8])
    else out

/-- The state in which `encode` enters its loop. -/
def encodeInit (bytes : List UInt8) : EncodeState :=
  { iter := bytes, start_bit := 0, has_backlog := false, backlog := 0, out := [] }

/-- `bn::impl::encode<ConversionTraits>`: the text of `bytes`. -/
def encode (t : ConversionTraits) (bytes : List UInt8) : List UInt8 :=
  let st := encodeLoop t (10 * bytes.length + 8) (encodeInit bytes)
  padding t 8 st.start_bit st.out

/-- The loop of `bn::impl::decode<ConversionTraits>` over the characters left, with
`output_current_bit`, `buffer` and the bytes written to `out` so far. -/
def decodeLoop (t : ConversionTraits) :
    List UInt8 → ℕ → UInt8 → List UInt8 → List UInt8
  | [], _, _, out => out
  | c :: iter, output_current_bit, buffer, out =>
    if isspace c then decodeLoop t iter output_current_bit buffer out
    else
      let value := t.decode c
      -- malformed data, but let's go on...
      if value == Error then decodeLoop t iter output_current_bit buffer out
      else
        let bits_in_current_byte := min (output_current_bit + t.group_length) 8 - output_current_bit
        if bits_in_current_byte == t.group_length then
          -- the value fits within the current byte
          let buffer := buffer ||| value <<< (8 - output_current_bit - t.group_length).toUInt8
          let output_current_bit := output_current_bit + t.group_length
          if output_current_bit == 8 then decodeLoop t iter 0 0 (out ++ [buffer])
          else decodeLoop t iter output_current_bit buffer out
        else
          -- the value spans the current and the next byte
          let bits_in_next_byte := t.group_length - bits_in_current_byte
          let buffer := buffer ||| value >>> bits_in_next_byte.toUInt8
          let out := out ++ [buffer]
          let buffer : UInt8 := 0 ||| value <<< (8 - bits_in_next_byte).toUInt8
          decodeLoop t iter bits_in_next_byte buffer out

/-- `bn::impl::decode<ConversionTraits>`: the bytes of `chars`. -/
def decode (t : ConversionTraits) (chars : List UInt8) : List UInt8 :=
  decodeLoop t chars 0 0 []

/-- `decoder::encode_b32`. -/
def encode_b32 (v : List UInt8) : List UInt8 := encode b32_conversion_traits v

/-- `decoder::decode_b32`, which clears `out` and then decodes into it. -/
def decode_b32 (v : List UInt8) : List UInt8 := decode b32_conversion_traits v

/-- `decoder::encode_b64`. -/
def encode_b64 (v : List UInt8) : List UInt8 := encode b64_conversion_traits v

/-- `decoder::decode_b64`. -/
def decode_b64 (v : List UInt8) : List UInt8 := decode b64_conversion_traits v

/-- `decoder::encoded_size32`, the size `encode_b32` reserves. -/
def encoded_size32 (rawsize : ℕ) : ℕ := (rawsize + 4) / 5 * 8

/-- `decoder::encoded_size64`, the size `encode_b64` reserves. -/
def encoded_size64 (rawsize : ℕ) : ℕ := (rawsize + 2) / 3 * 4

end Basen

end HcnetCore
