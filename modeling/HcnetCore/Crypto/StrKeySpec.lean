import HcnetCore.Systems.ExceptSpec
import HcnetCore.Util.BasenSpec
import HcnetCore.Crypto.StrKey

/-!
# StrKeys decode to what they encode

* `fromStrKey_checked`: `StrKey.fromStrKey` reads back any bytes written in base 32
  after their checksum, low byte first; the version is the top five bits of the first
  byte.
* `fromStrKey_toStrKey`: `StrKey.fromStrKey (StrKey.toStrKey ver bin)` is the five bits
  of `ver` and `bin`, for every version and every byte string.
* `publicKey_fromStrKey_toStrKey`: `KeyUtils.fromStrKey` returns every public key from
  its `KeyUtils.toStrKey`: the text passes the version, length and size checks.
* `publicKey_fromStrKey_iff`: the texts `KeyUtils.fromStrKey` returns a given public key
  from are exactly eight, one for each value of the three low bits of the first byte,
  which `StrKey.fromStrKey` shifts out unchecked.

The text is the base-32 encoding of the bytes, so its length is a multiple of eight
(`length_encode_b32`) and `decode_b32` returns the bytes (`decode_b32_encode_b32`). The
other way round, `fromStrKey_eq_some` and `fromStrKey_eq_ok` say what a text that passes
the checks of `StrKey.fromStrKey` and `KeyUtils.fromStrKey` is made of.
-/

namespace HcnetCore

namespace StrKey

open Basen

/-- The two checksum bytes put back together as `fromStrKey` does give the checksum. -/
theorem crc_recombine (crc : UInt16) :
    (((crc >>> 8) &&& 0xFF).toUInt8.toUInt16 <<< 8) ||| (crc &&& 0xFF).toUInt8.toUInt16 = crc := by
  apply UInt16.toNat_inj.mp
  have hc := crc.toNat_lt
  have hmask : ∀ x : ℕ, x &&& 255 = x % 2 ^ 8 := fun x => Nat.and_two_pow_sub_one_eq_mod x 8
  simp only [UInt16.toNat_or, UInt16.toNat_shiftLeft, UInt8.toNat_toUInt16, UInt16.toNat_toUInt8,
    UInt16.toNat_and, UInt16.toNat_shiftRight, UInt16.toNat_ofNat, hmask, Nat.shiftLeft_eq,
    Nat.shiftRight_eq_div_pow, Nat.reducePow, Nat.reduceMod]
  -- the high byte, shifted back, and the low byte share no bit
  rw [show crc.toNat / 256 % 256 % 256 * 256 % 65536 = crc.toNat / 256 * 2 ^ 8 by omega,
    Arith.mul_two_pow_or_eq_add _ (show crc.toNat % 256 % 256 < 2 ^ 8 by omega)]
  omega

/-- The bytes `toStrKey` and the checksum check handle: `payload` and its checksum, low
byte first. -/
def checked (payload : List UInt8) : List UInt8 :=
  payload ++ [(crc16 payload &&& 0xFF).toUInt8, ((crc16 payload >>> 8) &&& 0xFF).toUInt8]

theorem toStrKey_eq (ver : UInt8) (bin : List UInt8) :
    toStrKey ver bin = encode_b32 (checked ((ver <<< 3) :: bin)) := by
  simp [toStrKey, checked]

/-- A base-32 text has a multiple of eight characters. -/
theorem length_encode_b32_and_seven (bytes : List UInt8) :
    (encode_b32 bytes).length &&& 0x07 = 0 := by
  rw [length_encode_b32, encoded_size32, show (0x07 : ℕ) = 2 ^ 3 - 1 from rfl,
    Nat.and_two_pow_sub_one_eq_mod]
  omega

/-- `fromStrKey` reads back checked bytes: the version is the top five bits of the first
byte and the key the bytes after it. -/
theorem fromStrKey_checked {payload : List UInt8} (hpayload : payload ≠ []) :
    fromStrKey (encode_b32 (checked payload)) = some (payload.headD 0 >>> 3, payload.tail) := by
  have hlen := length_encode_b32_and_seven (checked payload)
  have hsize : ¬ (checked payload).length < 3 := by
    have := List.length_pos_of_ne_nil hpayload
    simp only [checked, List.length_append, List.length_cons, List.length_nil]
    omega
  have hlast : (checked payload).getLastD 0 = ((crc16 payload >>> 8) &&& 0xFF).toUInt8 := by
    simp [checked]
  have hdrop : (checked payload).dropLast = payload ++ [(crc16 payload &&& 0xFF).toUInt8] := by
    rw [checked, show [(crc16 payload &&& 0xFF).toUInt8, ((crc16 payload >>> 8) &&& 0xFF).toUInt8] =
      [(crc16 payload &&& 0xFF).toUInt8] ++ [((crc16 payload >>> 8) &&& 0xFF).toUInt8] from rfl,
      ← List.append_assoc, List.dropLast_concat]
  simp only [fromStrKey, hlen, decode_b32_encode_b32, if_neg hsize, hlast, hdrop,
    List.getLastD_concat, List.dropLast_concat, crc_recombine, bne_self_eq_false,
    Bool.false_eq_true, if_false]

/-- Every StrKey reads back: the version comes back as its five low bits, and the
bytes as they were. -/
theorem fromStrKey_toStrKey (ver : UInt8) (bin : List UInt8) :
    fromStrKey (toStrKey ver bin) = some (ver % 32, bin) := by
  rw [toStrKey_eq, fromStrKey_checked (List.cons_ne_nil _ _), List.headD_cons, List.tail_cons]
  congr 2
  apply UInt8.toNat_inj.mp
  rw [UInt8.toNat_shiftRight, UInt8.toNat_shiftLeft, UInt8.toNat_mod]
  simp only [UInt8.reduceToNat, Nat.reduceMod, Nat.shiftLeft_eq, Nat.shiftRight_eq_div_pow]
  omega

/-- The checksum `fromStrKey` puts together from two bytes gives back those bytes. -/
theorem crc_split (hi lo : UInt8) :
    ((hi.toUInt16 <<< 8 ||| lo.toUInt16) &&& 0xFF).toUInt8 = lo ∧
      (((hi.toUInt16 <<< 8 ||| lo.toUInt16) >>> 8) &&& 0xFF).toUInt8 = hi := by
  have hhi := hi.toNat_lt
  have hlo := lo.toNat_lt
  have hmask : ∀ x : ℕ, x &&& 255 = x % 2 ^ 8 := fun x => Nat.and_two_pow_sub_one_eq_mod x 8
  have hcrc : (hi.toUInt16 <<< 8 ||| lo.toUInt16).toNat = hi.toNat * 2 ^ 8 + lo.toNat := by
    simp only [UInt16.toNat_or, UInt16.toNat_shiftLeft, UInt8.toNat_toUInt16, UInt16.toNat_ofNat,
      Nat.shiftLeft_eq, Nat.reducePow, Nat.reduceMod]
    rw [Nat.mod_eq_of_lt (by omega)]
    exact Arith.mul_two_pow_or_eq_add _ hlo
  constructor
  · apply UInt8.toNat_inj.mp
    simp only [UInt16.toNat_toUInt8, UInt16.toNat_and, hcrc, UInt16.toNat_ofNat, hmask,
      Nat.reducePow, Nat.reduceMod]
    omega
  · apply UInt8.toNat_inj.mp
    simp only [UInt16.toNat_toUInt8, UInt16.toNat_and, UInt16.toNat_shiftRight, hcrc,
      UInt16.toNat_ofNat, hmask, Nat.shiftRight_eq_div_pow, Nat.reducePow, Nat.reduceMod]
    omega

theorem dropLast_append_getLastD {l : List UInt8} (h : l ≠ []) :
    l.dropLast ++ [l.getLastD 0] = l := by
  obtain ⟨l', b, rfl⟩ := (List.eq_nil_or_concat l).resolve_left h
  simp

/-- What `fromStrKey` checks of a text it reads: its length is a multiple of eight, and it
decodes to checked bytes whose first byte holds the version. -/
theorem fromStrKey_eq_some {s : List UInt8} {ver : UInt8} {k : List UInt8}
    (h : fromStrKey s = some (ver, k)) :
    s.length &&& 0x07 = 0 ∧ ∃ v0, decode_b32 s = checked (v0 :: k) ∧ ver = v0 >>> 3 := by
  simp only [fromStrKey] at h
  split_ifs at h with hlen hsize hcrc
  obtain ⟨hv, hk⟩ := Prod.mk.inj (Option.some.inj h)
  refine ⟨by simpa using hlen, _, ?_, hv.symm⟩
  set D := decode_b32 s
  have hD : 3 ≤ D.length := by omega
  have hne1 : D ≠ [] := List.ne_nil_of_length_pos (by omega)
  have hne2 : D.dropLast ≠ [] := List.ne_nil_of_length_pos (by rw [List.length_dropLast]; omega)
  have hne3 : D.dropLast.dropLast ≠ [] :=
    List.ne_nil_of_length_pos (by rw [List.length_dropLast, List.length_dropLast]; omega)
  -- the decoded bytes: the payload, then the checksum's low and high byte
  have hsplit : D = D.dropLast.dropLast ++ [D.dropLast.getLastD 0, D.getLastD 0] := by
    conv_lhs => rw [← dropLast_append_getLastD hne1, ← dropLast_append_getLastD hne2]
    simp
  have hpayload : D.dropLast.dropLast = D.dropLast.dropLast.headD 0 :: k := by
    rw [← hk]
    cases hP : D.dropLast.dropLast with
    | nil => exact absurd hP hne3
    | cons a l => rfl
  have hcrc' : crc16 D.dropLast.dropLast =
      (D.getLastD 0).toUInt16 <<< 8 ||| (D.dropLast.getLastD 0).toUInt16 := by
    simpa using hcrc
  rw [← hpayload, checked, hcrc', (crc_split _ _).1, (crc_split _ _).2]
  exact hsplit

/-- A text of `8 * m` characters that decodes to `5 * m` bytes has only base-32
digits: each of its characters carries five of the bits. -/
theorem reads_all_of_decode_b32_length {s : List UInt8} {m : ℕ} (hlen : s.length = 8 * m)
    (hdec : (decode_b32 s).length = 5 * m) :
    ∀ c ∈ s, isspace c = false ∧ b32_conversion_traits.decode c ≠ Error := by
  obtain ⟨tail, htail, h⟩ := decode_spec b32_conversion_traits s
  have hbits := congrArg List.length h
  have hle : (digits b32_conversion_traits s).length ≤ s.length := List.length_filterMap_le _ _
  simp only [List.length_append, byteBits, Arith.length_bitStream, List.length_map,
    b32_group_length] at hbits
  rw [show decode b32_conversion_traits s = decode_b32 s from rfl, hdec] at hbits
  exact reads_all_of_length_digits b32_conversion_traits (by omega)

end StrKey

namespace KeyUtils

open StrKey Basen

variable {T KeyType : Type}

/-- `fixedSizeKeyValid` is false when the version is of variable length, or when the
key has the length of its version. -/
theorem fixedSizeKeyValid_eq_ok_false {F : KeyFunctions T KeyType} {ver : StrKeyVersionByte}
    {k : List UInt8} (h : fixedSizeKeyValid F ver k = .ok false) :
    F.getKeyVersionIsVariableLength ver = .ok true ∨
      F.getKeyVersionIsVariableLength ver = .ok false ∧ getKeyVersionSize ver = .ok k.length := by
  unfold fixedSizeKeyValid at h
  obtain ⟨isVar, hvar, h⟩ := Except.bind_eq_ok.mp h
  cases isVar with
  | true => exact Or.inl hvar
  | false =>
    refine Or.inr ⟨hvar, ?_⟩
    cases hsize : getKeyVersionSize ver with
    | error e =>
      rw [hsize] at h
      cases h
    | ok size =>
      rw [hsize] at h
      have hne : (k.length != size) = false := Except.ok.inj h
      rw [bne_eq_false_iff_eq] at hne
      rw [hne]

/-- What `KeyUtils::fromStrKey` checks of a text it returns a key from: `strKey::fromStrKey`
read a version and key bytes from it, the version is supported, the text has the length of
the StrKey of such bytes, a key of fixed length has the version's length, and the key is
the value those bytes set. -/
theorem fromStrKey_eq_ok {F : KeyFunctions T KeyType} {s : List UInt8} {key : T}
    (h : fromStrKey F s = .ok key) :
    ∃ ver k kt, StrKey.fromStrKey s = some (ver, k) ∧ F.getKeyVersionIsSupported ver = true ∧
      s.length = getStrKeySize k.length ∧
      (F.getKeyVersionIsVariableLength ver = .ok true ∨
        F.getKeyVersionIsVariableLength ver = .ok false ∧ getKeyVersionSize ver = .ok k.length) ∧
      F.toKeyType ver = .ok kt ∧ F.setKeyValue (F.ofKeyType kt) k = .ok key := by
  unfold fromStrKey at h
  split at h
  · cases h
  · rename_i ver k hsk
    obtain ⟨fixed, hfixed, h⟩ := Except.bind_eq_ok.mp h
    obtain ⟨hcond, h⟩ := Except.guard_eq_ok h
    obtain ⟨kt, hkt, h⟩ := Except.bind_eq_ok.mp h
    simp only [Bool.or_eq_true, Bool.not_eq_true', bne_iff_ne, ne_eq, not_or, Bool.not_eq_true,
      Bool.not_eq_false, Decidable.not_not] at hcond
    obtain ⟨⟨hfalse, hsupp⟩, hlen⟩ := hcond
    rw [hfalse] at hfixed
    exact ⟨ver, k, kt, hsk, hsupp, hlen, fixedSizeKeyValid_eq_ok_false hfixed, hkt, h⟩

theorem uint256FromOpaque_toList (v : Vector UInt8 32) : uint256FromOpaque v.toList = .ok v := by
  have hlen : v.toList.length = 32 := by simp
  simp only [uint256FromOpaque, hlen, Nat.reduceMod, bne_self_eq_false, Bool.false_eq_true,
    if_false, dif_pos]
  rfl

/-- The XDR decoder returns the 32 bytes it was given. -/
theorem toList_of_uint256FromOpaque {data : List UInt8} {v : Vector UInt8 32}
    (h : uint256FromOpaque data = .ok v) : v.toList = data := by
  unfold uint256FromOpaque at h
  split_ifs at h with h4 h32 hlen
  cases h
  simp

theorem length_encode_b32_checked (v0 : UInt8) (bin : List UInt8) :
    (encode_b32 (checked (v0 :: bin))).length = getStrKeySize bin.length := by
  rw [length_encode_b32, getStrKeySize]
  simp [checked]

/-- A public key's bytes, checked after a first byte whose top five bits are the public-key
version, are a text `KeyUtils::fromStrKey<PublicKey>` returns the key from. -/
theorem publicKey_fromStrKey_checked {v0 : UInt8} (hv0 : v0 >>> 3 = STRKEY_PUBKEY_ED25519)
    (v : Vector UInt8 32) :
    fromStrKey publicKeyFunctions (encode_b32 (checked (v0 :: v.toList))) = .ok ⟨v⟩ := by
  have hread := fromStrKey_checked (List.cons_ne_nil v0 v.toList)
  rw [List.headD_cons, List.tail_cons, hv0] at hread
  have hsize := length_encode_b32_checked v0 v.toList
  simp only [fromStrKey, hread, hsize, fixedSizeKeyValid, publicKeyFunctions]
  simp [getKeyVersionSize, STRKEY_PUBKEY_ED25519, uint256FromOpaque_toList]

/-- `KeyUtils::fromStrKey<PublicKey>` returns every public key from its StrKey. -/
theorem publicKey_fromStrKey_toStrKey (pk : PublicKey) :
    (toStrKey publicKeyFunctions pk >>= fromStrKey publicKeyFunctions) = .ok pk := by
  have htext : toStrKey publicKeyFunctions pk =
      .ok (encode_b32 (checked ((STRKEY_PUBKEY_ED25519 <<< 3) :: pk.ed25519.toList))) := by
    rw [← toStrKey_eq]
    rfl
  rw [htext, Except.ok_bind, publicKey_fromStrKey_checked (by decide) pk.ed25519]

/-- The first bytes with the public-key version in their top five bits: `6 <<< 3` and the
three low bits `r`. -/
theorem shiftRight_three_eq_iff (v0 : UInt8) :
    v0 >>> 3 = STRKEY_PUBKEY_ED25519 ↔ ∃ r : UInt8, r < 8 ∧ v0 = STRKEY_PUBKEY_ED25519 <<< 3 ||| r := by
  -- `6 <<< 3` is `6 * 2 ^ 3`, and or-ing three low bits into it adds them
  have hor : ∀ r : UInt8, r.toNat < 2 ^ 3 →
      (STRKEY_PUBKEY_ED25519 <<< 3 ||| r).toNat = 6 * 2 ^ 3 + r.toNat := by
    intro r hr
    rw [UInt8.toNat_or, show (STRKEY_PUBKEY_ED25519 <<< 3).toNat = 6 * 2 ^ 3 from rfl,
      Arith.mul_two_pow_or_eq_add _ hr]
  have hshift : (v0 >>> 3).toNat = v0.toNat / 2 ^ 3 := by
    simp only [UInt8.toNat_shiftRight, UInt8.reduceToNat, Nat.reduceMod, Nat.shiftRight_eq_div_pow]
  have hver : STRKEY_PUBKEY_ED25519.toNat = 6 := rfl
  constructor
  · intro h
    have hdiv : v0.toNat / 2 ^ 3 = 6 := by rw [← hshift, h, hver]
    have hlow : (v0 &&& 7).toNat = v0.toNat % 2 ^ 3 := by
      rw [UInt8.toNat_and, show (7 : UInt8).toNat = 2 ^ 3 - 1 from rfl,
        Nat.and_two_pow_sub_one_eq_mod]
    refine ⟨v0 &&& 7, ?_, ?_⟩
    · rw [UInt8.lt_iff_toNat_lt, hlow]
      exact Nat.mod_lt _ (by decide)
    · apply UInt8.toNat_inj.mp
      rw [hor _ (by rw [hlow]; exact Nat.mod_lt _ (by decide)), hlow]
      omega
  · rintro ⟨r, hr, rfl⟩
    have hr' : r.toNat < 2 ^ 3 := UInt8.lt_iff_toNat_lt.mp hr
    apply UInt8.toNat_inj.mp
    rw [hshift, hor r hr', hver]
    omega

/-- The texts `KeyUtils::fromStrKey<PublicKey>` returns a key from are exactly the eight
texts that check the key's bytes after a first byte of the public-key version and any
three low bits; the StrKey of the key (`toStrKey_eq`) is the one with low bits zero. -/
theorem publicKey_fromStrKey_iff (s : List UInt8) (pk : PublicKey) :
    fromStrKey publicKeyFunctions s = .ok pk ↔
      ∃ r : UInt8, r < 8 ∧
        s = encode_b32 (checked ((STRKEY_PUBKEY_ED25519 <<< 3 ||| r) :: pk.ed25519.toList)) := by
  constructor
  · intro h
    obtain ⟨ver, k, kt, hsk, hsupp, hlen, hfixed, hkt, hset⟩ := fromStrKey_eq_ok h
    -- the version is the public-key one, and the key has its 32 bytes
    have hver : ver = STRKEY_PUBKEY_ED25519 := by
      simpa [publicKeyFunctions] using hsupp
    subst hver
    have hk : k.length = 32 := by
      simp only [publicKeyFunctions] at hfixed
      rcases hfixed with hf | ⟨-, hf⟩
      · cases hf
      · exact (Except.ok.inj hf).symm
    obtain ⟨v, hv, rfl⟩ : ∃ v, uint256FromOpaque k = .ok v ∧ pk = ⟨v⟩ := by
      simp only [publicKeyFunctions] at hset
      cases hv : uint256FromOpaque k with
      | error e =>
        rw [hv] at hset
        cases hset
      | ok v =>
        rw [hv] at hset
        exact ⟨v, rfl, (Except.ok.inj hset).symm⟩
    rw [toList_of_uint256FromOpaque hv]
    obtain ⟨hseven, v0, hdecoded, hv0⟩ := fromStrKey_eq_some hsk
    obtain ⟨r, hr, hv0r⟩ := (shiftRight_three_eq_iff v0).mp hv0.symm
    refine ⟨r, hr, ?_⟩
    rw [← hv0r, ← hdecoded]
    -- every character of the text is a base-32 digit: it has as many as the 35 bytes need
    have hall := reads_all_of_decode_b32_length (m := 7) (by rw [hlen, hk]; rfl)
      (by simp [hdecoded, checked, hk])
    exact (encode_decode b32_conversion_traits b32_encode_decode hall (by
      rw [b32_group_length, hlen, hk]; decide)).symm
  · rintro ⟨r, hr, rfl⟩
    exact publicKey_fromStrKey_checked ((shiftRight_three_eq_iff _).mpr ⟨r, hr, rfl⟩) pk.ed25519

end KeyUtils

end HcnetCore
