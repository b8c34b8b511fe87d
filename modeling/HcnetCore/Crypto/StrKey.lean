import HcnetCore.Util.Basen

/-!
# StrKey: keys as text (`crypto/StrKey.cpp`, `lib/util/crc16.cpp`, `crypto/KeyUtils.h`)

A StrKey is the base-32 text of a version byte, the key's bytes and a CRC-16 of both.

* `crc16` is the table-driven XMODEM checksum of `crc16.cpp`, over `crc16tab`;
* `StrKey.toStrKey ver bin` shifts the five bits of `ver` to the top of the first
  byte, appends `bin` and the checksum (low byte first), and encodes the lot with
  `encode_b32`;
* `StrKey.fromStrKey` rejects a text whose length is not a multiple of eight, decodes
  it, rejects fewer than three bytes or a wrong checksum, and returns the version (the
  top five bits of the first byte) and the bytes between the first and the checksum;
* `KeyUtils.toStrKey` and `KeyUtils.fromStrKey` do the same for a key of a type with
  its `KeyFunctions`; `fromStrKey` also checks that the version is one the type
  supports, that a key of fixed length has it, and that the text has the length of the
  StrKey of such a key. `PublicKey` is the one type the model instantiates.

`fromStrKey`, which returns `false` and leaves its out parameters to be ignored, returns
an `Option` here. The exceptions of `KeyUtils` (`std::invalid_argument`, the XDR
decoder's, `CryptoError`) are `Except String` errors with the source's messages.
-/

namespace HcnetCore

namespace StrKey

open Basen

/-- `crc16tab`. -/
def crc16tab : List UInt16 := [
  0x0000, 0x1021, 0x2042, 0x3063, 0x4084, 0x50a5, 0x60c6, 0x70e7,
  0x8108, 0x9129, 0xa14a, 0xb16b, 0xc18c, 0xd1ad, 0xe1ce, 0xf1ef,
  0x1231, 0x0210, 0x3273, 0x2252, 0x52b5, 0x4294, 0x72f7, 0x62d6,
  0x9339, 0x8318, 0xb37b, 0xa35a, 0xd3bd, 0xc39c, 0xf3ff, 0xe3de,
  0x2462, 0x3443, 0x0420, 0x1401, 0x64e6, 0x74c7, 0x44a4, 0x5485,
  0xa56a, 0xb54b, 0x8528, 0x9509, 0xe5ee, 0xf5cf, 0xc5ac, 0xd58d,
  0x3653, 0x2672, 0x1611, 0x0630, 0x76d7, 0x66f6, 0x5695, 0x46b4,
  0xb75b, 0xa77a, 0x9719, 0x8738, 0xf7df, 0xe7fe, 0xd79d, 0xc7bc,
  0x48c4, 0x58e5, 0x6886, 0x78a7, 0x0840, 0x1861, 0x2802, 0x3823,
  0xc9cc, 0xd9ed, 0xe98e, 0xf9af, 0x8948, 0x9969, 0xa90a, 0xb92b,
  0x5af5, 0x4ad4, 0x7ab7, 0x6a96, 0x1a71, 0x0a50, 0x3a33, 0x2a12,
  0xdbfd, 0xcbdc, 0xfbbf, 0xeb9e, 0x9b79, 0x8b58, 0xbb3b, 0xab1a,
  0x6ca6, 0x7c87, 0x4ce4, 0x5cc5, 0x2c22, 0x3c03, 0x0c60, 0x1c41,
  0xedae, 0xfd8f, 0xcdec, 0xddcd, 0xad2a, 0xbd0b, 0x8d68, 0x9d49,
  0x7e97, 0x6eb6, 0x5ed5, 0x4ef4, 0x3e13, 0x2e32, 0x1e51, 0x0e70,
  0xff9f, 0xefbe, 0xdfdd, 0xcffc, 0xbf1b, 0xaf3a, 0x9f59, 0x8f78,
  0x9188, 0x81a9, 0xb1ca, 0xa1eb, 0xd10c, 0xc12d, 0xf14e, 0xe16f,
  0x1080, 0x00a1, 0x30c2, 0x20e3, 0x5004, 0x4025, 0x7046, 0x6067,
  0x83b9, 0x9398, 0xa3fb, 0xb3da, 0xc33d, 0xd31c, 0xe37f, 0xf35e,
  0x02b1, 0x1290, 0x22f3, 0x32d2, 0x4235, 0x5214, 0x6277, 0x7256,
  0xb5ea, 0xa5cb, 0x95a8, 0x8589, 0xf56e, 0xe54f, 0xd52c, 0xc50d,
  0x34e2, 0x24c3, 0x14a0, 0x0481, 0x7466, 0x6447, 0x5424, 0x4405,
  0xa7db, 0xb7fa, 0x8799, 0x97b8, 0xe75f, 0xf77e, 0xc71d, 0xd73c,
  0x26d3, 0x36f2, 0x0691, 0x16b0, 0x6657, 0x7676, 0x4615, 0x5634,
  0xd94c, 0xc96d, 0xf90e, 0xe92f, 0x99c8, 0x89e9, 0xb98a, 0xa9ab,
  0x5844, 0x4865, 0x7806, 0x6827, 0x18c0, 0x08e1, 0x3882, 0x28a3,
  0xcb7d, 0xdb5c, 0xeb3f, 0xfb1e, 0x8bf9, 0x9bd8, 0xabbb, 0xbb9a,
  0x4a75, 0x5a54, 0x6a37, 0x7a16, 0x0af1, 0x1ad0, 0x2ab3, 0x3a92,
  0xfd2e, 0xed0f, 0xdd6c, 0xcd4d, 0xbdaa, 0xad8b, 0x9de8, 0x8dc9,
  0x7c26, 0x6c07, 0x5c64, 0x4c45, 0x3ca2, 0x2c83, 0x1ce0, 0x0cc1,
  0xef1f, 0xff3e, 0xcf5d, 0xdf7c, 0xaf9b, 0xbfba, 0x8fd9, 0x9ff8,
  0x6e17, 0x7e36, 0x4e55, 0x5e74, 0x2e93, 0x3eb2, 0x0ed1, 0x1ef0
]

/-- `crc16(buf, len)`. Each byte is a `char`, which the source sign-extends before the
exclusive or; the mask `& 0x00FF` keeps only its low eight bits, so it is taken as
unsigned here. The index is below 256. -/
def crc16 (buf : List UInt8) : UInt16 :=
  buf.foldl (fun (crc : UInt16) (b : UInt8) =>
    ((crc <<< (8 : UInt16)) &&& (0xFFFF : UInt16)) ^^^
      crc16tab.getD (((crc >>> 8) ^^^ b.toUInt16) &&& 0x00FF).toNat 0) 0

/-- `StrKeyVersionByte`, an enumeration over `uint8_t`: `fromStrKey` casts any five-bit
value to it. -/
abbrev StrKeyVersionByte := UInt8

/-- `STRKEY_PUBKEY_ED25519`, whose StrKeys start with `'G'`. -/
def STRKEY_PUBKEY_ED25519 : StrKeyVersionByte := 6

/-- `STRKEY_ED25519_SIGNED_PAYLOAD` (`'P'`). -/
def STRKEY_ED25519_SIGNED_PAYLOAD : StrKeyVersionByte := 15

/-- `STRKEY_SEED_ED25519` (`'S'`). -/
def STRKEY_SEED_ED25519 : StrKeyVersionByte := 18

/-- `STRKEY_PRE_AUTH_TX` (`'T'`). -/
def STRKEY_PRE_AUTH_TX : StrKeyVersionByte := 19

/-- `STRKEY_HASH_X` (`'X'`). -/
def STRKEY_HASH_X : StrKeyVersionByte := 23

/-- `strKey::toStrKey(ver, bin)`: the version byte, `bin` and the checksum, in base 32. -/
def toStrKey (ver : UInt8) (bin : List UInt8) : List UInt8 :=
  let ver := ver <<< 3 -- promote to 8 bits
  let toEncode := [ver] ++ bin
  let crc := crc16 toEncode
  let toEncode := toEncode ++ [(crc &&& 0xFF).toUInt8]
  let crc := crc >>> 8
  let toEncode := toEncode ++ [(crc &&& 0xFF).toUInt8]
  encode_b32 toEncode

/-- `strKey::getStrKeySize(dataSize)`: the length of the StrKey of `dataSize` bytes. -/
def getStrKeySize (dataSize : ℕ) : ℕ :=
  let dataSize := dataSize + 3 -- version and crc
  encoded_size32 dataSize

/-- `strKey::fromStrKey(strKey, outVersion, decoded)`: the version and the bytes of a
StrKey, or `none` where the source returns `false`. -/
def fromStrKey (strKey : List UInt8) : Option (UInt8 × List UInt8) :=
  let s := strKey.length
  -- base 32 data size is (s * 5)/8 => has to be a multiple of 8
  if s &&& 0x07 != 0 then none
  else
    let decoded := decode_b32 strKey
    if decoded.length < 3 then none
    else
      let crc : UInt16 := (decoded.getLastD 0).toUInt16
      let decoded := decoded.dropLast
      let crc := crc <<< 8
      let crc := crc ||| (decoded.getLastD 0).toUInt16
      let decoded := decoded.dropLast
      if crc16 decoded != crc then none
      else
        let outVersion := decoded.headD 0 >>> 3 -- only keep 5 bits from the version
        some (outVersion, decoded.tail)

end StrKey

namespace KeyUtils

open StrKey

/-- `KeyUtils::getKeyVersionSize(keyVersion)`, the length of a key of a fixed-length
version (`crypto_sign_PUBLICKEYBYTES` is 32). -/
def getKeyVersionSize (keyVersion : StrKeyVersionByte) : Except String ℕ :=
  if keyVersion = STRKEY_PUBKEY_ED25519 ∨ keyVersion = STRKEY_SEED_ED25519 then pure 32
  else if keyVersion = STRKEY_PRE_AUTH_TX ∨ keyVersion = STRKEY_HASH_X then pure 32
  else if keyVersion = STRKEY_ED25519_SIGNED_PAYLOAD then pure 96
  else throw ("invalid key version: " ++ toString keyVersion.toNat)

/-- `KeyFunctions<T>`, the static members `KeyUtils` uses for keys of type `T`, whose
XDR union switches on a `KeyType`. `ofKeyType kt` is a default `T` after `key.type(kt)`. -/
structure KeyFunctions (T KeyType : Type) where
  getKeyTypeName : String
  getKeyVersionIsSupported : StrKeyVersionByte → Bool
  getKeyVersionIsVariableLength : StrKeyVersionByte → Except String Bool
  toKeyType : StrKeyVersionByte → Except String KeyType
  toKeyVersion : KeyType → Except String StrKeyVersionByte
  getKeyValue : T → Except String (List UInt8)
  setKeyValue : T → List UInt8 → Except String T
  type : T → KeyType
  ofKeyType : KeyType → T

variable {T KeyType : Type}

/-- `KeyUtils::toStrKey(key)`. -/
def toStrKey (F : KeyFunctions T KeyType) (key : T) : Except String (List UInt8) := do
  let ver ← F.toKeyVersion (F.type key)
  let value ← F.getKeyValue key
  pure (StrKey.toStrKey ver value)

/-- `!getKeyVersionIsVariableLength(ver) && (k.size() != getKeyVersionSize(ver))`, the
test `fixedSizeKeyValid` of `KeyUtils::fromStrKey`: the length of the version is asked for
only when the version is not of variable length. -/
def fixedSizeKeyValid (F : KeyFunctions T KeyType) (ver : StrKeyVersionByte) (k : List UInt8) :
    Except String Bool := do
  if !(← F.getKeyVersionIsVariableLength ver) then
    (fun size => k.length != size) <$> getKeyVersionSize ver
  else pure false

/-- `KeyUtils::fromStrKey<T>(s)`. -/
def fromStrKey (F : KeyFunctions T KeyType) (s : List UInt8) : Except String T := do
  match StrKey.fromStrKey s with
  | none => throw ("bad " ++ F.getKeyTypeName)
  | some (verByte, k) =>
    let ver : StrKeyVersionByte := verByte
    let fixedSizeKeyValid ← fixedSizeKeyValid F ver k
    if fixedSizeKeyValid || !F.getKeyVersionIsSupported ver ||
        s.length != getStrKeySize k.length then
      throw ("bad " ++ F.getKeyTypeName)
    let key := F.ofKeyType (← F.toKeyType ver)
    F.setKeyValue key k

/-- `PublicKeyType`, with its one arm. -/
inductive PublicKeyType where
  | PUBLIC_KEY_TYPE_ED25519
deriving DecidableEq, Repr

/-- `PublicKey`, the XDR union whose one arm is a `uint256` (`opaque[32]`). -/
structure PublicKey where
  ed25519 : Vector UInt8 32
deriving DecidableEq, Repr

/-- `xdr::xdr_from_opaque(data, v)` for a `uint256` `v`: the XDR decoder's checks, in
order, then the 32 bytes. -/
def uint256FromOpaque (data : List UInt8) : Except String (Vector UInt8 32) :=
  if data.length % 4 != 0 then throw "xdr_generic_get: message size not multiple of 4"
  else if 32 > data.length then throw "insufficient buffer space in xdr_generic_get"
  else if h : data.length = 32 then pure ⟨data.toArray, by simpa using h⟩
  else throw "unmarshaling did not consume whole message"

/-- `KeyFunctions<PublicKey>`. -/
def publicKeyFunctions : KeyFunctions PublicKey PublicKeyType where
  getKeyTypeName := "public key"
  getKeyVersionIsSupported keyVersion := keyVersion == STRKEY_PUBKEY_ED25519
  getKeyVersionIsVariableLength _ := pure false
  toKeyType keyVersion :=
    if keyVersion = STRKEY_PUBKEY_ED25519 then pure .PUBLIC_KEY_TYPE_ED25519
    else throw "invalid public key type"
  toKeyVersion
    | .PUBLIC_KEY_TYPE_ED25519 => pure STRKEY_PUBKEY_ED25519
  -- `xdr::xdr_to_opaque(getEd25519Value(key))`: the 32 bytes
  getKeyValue key := pure key.ed25519.toList
  setKeyValue _ data := PublicKey.mk <$> uint256FromOpaque data
  type _ := .PUBLIC_KEY_TYPE_ED25519
  ofKeyType _ := ⟨Vector.replicate 32 0⟩

end KeyUtils

end HcnetCore
