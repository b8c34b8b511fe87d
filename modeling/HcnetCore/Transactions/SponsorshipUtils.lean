import HcnetCore.Util.Numeric
import HcnetCore.Store.KeyedList

/-!
# Sponsorship of reserves (`transactions/SponsorshipUtils.cpp`)

From protocol 14 an account can pay the reserve of another account's entry or
signer. Each account keeps three counters for this: `numSponsoring` (the reserves
it pays for others), `numSponsored` (its own reserves others pay), both in its
extension v2, and `numSubEntries` (its trustlines, offers, data entries and
signers). An entry counts with its multiplier (`computeMultiplier`: two for an
account or a pool-share trustline, the number of claimants for a claimable balance,
one otherwise), a signer counts one.

The helpers of the source work on `LedgerEntry&`s: the entry being created or
removed, which the caller holds, and accounts loaded from the ledger. A reference is
an `EntryRef` here, and an `Ltx` is what the references point into: the caller's
entry and the ledger. Writing through a reference writes the entry or the ledger, so
two references to one object see each other's writes, as in the source. Loading an
account whose key is already loaded throws, as `LedgerTxn::load` does.

The callers are modelled as far as sponsorship goes: an operation that creates an
entry (`createEntry`) or removes one (`removeEntry`), that adds or removes a signer
(`SetOptions`: `createSigner`, `removeSigner`), and `RevokeSponsorship`'s updates of
an entry's or a signer's sponsor (`tryEstablishEntrySponsorship`, … ,
`tryTransferSignerSponsorship`). An operation whose helper returns another result
than `SUCCESS` fails, and its ledger transaction is rolled back.

Left out: every field of an entry that sponsorship does not read (balances of
trustlines, offer amounts, data values, signer weights, thresholds), the
`CONTRACT_DATA` and `CONFIG_SETTING` entries of the next protocol, and the result
codes the operations turn a `SponsorshipResult` into. The counters are natural
numbers: the checks of `tooManySponsoring`, `tooManyNumSubEntries` and
`canEstablishSponsorshipHelper` keep them below `UINT32_MAX`, and `SponsorshipCounts`
shows that no decrement goes below zero.
-/

namespace HcnetCore

namespace Sponsorship

open Numeric

/-! ### Entries and keys -/

/-- An `AccountID` (a public key), as a number. -/
abbrev AccountID := ℕ

/-- A signer's `SignerKey`, as a number. -/
abbrev SignerKey := ℕ

/-- `AccountEntryExtensionV2`: the sponsorship counters, and for each signer the
account that pays its reserve, if any. -/
structure AccountEntryExtensionV2 where
  numSponsored : ℕ
  numSponsoring : ℕ
  signerSponsoringIDs : List (Option AccountID)
deriving DecidableEq, Repr

/-- The fields of an `AccountEntry` that sponsorship reads or writes. -/
structure AccountEntry where
  accountID : AccountID
  balance : ℤ
  numSubEntries : ℕ
  signers : List SignerKey
  /-- `ext.v1().liabilities.selling`, zero without the extension v1. -/
  sellingLiabilities : ℤ
  /-- The extension v2, when `hasAccountEntryExtV2`. -/
  extV2 : Option AccountEntryExtensionV2
deriving DecidableEq, Repr

/-- The asset of a trustline. -/
inductive TrustLineAsset
  | ASSET_TYPE_CREDIT_ALPHANUM4 (code : ℕ)
  | ASSET_TYPE_CREDIT_ALPHANUM12 (code : ℕ)
  | ASSET_TYPE_POOL_SHARE (liquidityPoolID : ℕ)
deriving DecidableEq, Repr

/-- `LedgerEntry::data`, with the fields that make up the entry's key. -/
inductive LedgerEntryData
  | ACCOUNT (account : AccountEntry)
  | TRUSTLINE (accountID : AccountID) (asset : TrustLineAsset)
  | OFFER (sellerID : AccountID) (offerID : ℕ)
  | DATA (accountID : AccountID) (dataName : ℕ)
  | CLAIMABLE_BALANCE (balanceID : ℕ) (claimants : ℕ)
  | LIQUIDITY_POOL (liquidityPoolID : ℕ)
deriving DecidableEq, Repr

/-- `LedgerEntry::ext`: version 1 carries the entry's `sponsoringID`. -/
inductive LedgerEntryExt
  | v0
  | v1 (sponsoringID : Option AccountID)
deriving DecidableEq, Repr

structure LedgerEntry where
  data : LedgerEntryData
  ext : LedgerEntryExt
deriving DecidableEq, Repr

inductive LedgerKey
  | ACCOUNT (accountID : AccountID)
  | TRUSTLINE (accountID : AccountID) (asset : TrustLineAsset)
  | OFFER (sellerID : AccountID) (offerID : ℕ)
  | DATA (accountID : AccountID) (dataName : ℕ)
  | CLAIMABLE_BALANCE (balanceID : ℕ)
  | LIQUIDITY_POOL (liquidityPoolID : ℕ)
deriving DecidableEq, Repr

/-- `LedgerEntryKey(le)`. -/
def LedgerEntryKey (le : LedgerEntry) : LedgerKey :=
  match le.data with
  | .ACCOUNT a => .ACCOUNT a.accountID
  | .TRUSTLINE id asset => .TRUSTLINE id asset
  | .OFFER id offerID => .OFFER id offerID
  | .DATA id dataName => .DATA id dataName
  | .CLAIMABLE_BALANCE balanceID _ => .CLAIMABLE_BALANCE balanceID
  | .LIQUIDITY_POOL id => .LIQUIDITY_POOL id

namespace LedgerEntry

/-- The sponsor of the entry: `le.ext.v() == 1 && le.ext.v1().sponsoringID`. -/
def sponsoringID (le : LedgerEntry) : Option AccountID :=
  match le.ext with
  | .v0 => none
  | .v1 s => s

/-- `le.data.type() == ACCOUNT`. -/
def isAccount (le : LedgerEntry) : Bool :=
  match le.data with
  | .ACCOUNT _ => true
  | _ => false

/-- `le.data.type() == CLAIMABLE_BALANCE`. -/
def isClaimableBalance (le : LedgerEntry) : Bool :=
  match le.data with
  | .CLAIMABLE_BALANCE .. => true
  | _ => false

/-- `le.data.account()`: the XDR union throws when the entry is not an account. -/
def account (le : LedgerEntry) : Except String AccountEntry :=
  match le.data with
  | .ACCOUNT a => pure a
  | _ => throw "_data_t: account accessed when not selected"

end LedgerEntry

/-- The fields of `LedgerHeader` that sponsorship reads. -/
structure LedgerHeader where
  ledgerVersion : ℕ
  baseReserve : ℕ
deriving DecidableEq, Repr

/-- `protocolVersionIsBefore(v, ProtocolVersion::V_p)`. -/
def protocolVersionIsBefore (v p : ℕ) : Bool := decide (v < p)

/-- `protocolVersionStartsFrom(v, ProtocolVersion::V_p)`. -/
def protocolVersionStartsFrom (v p : ℕ) : Bool := decide (p ≤ v)

/-- `FIRST_PROTOCOL_SUPPORTING_OPERATION_LIMITS`, `ProtocolVersion::V_11`. -/
def FIRST_PROTOCOL_SUPPORTING_OPERATION_LIMITS : ℕ := 11

/-- `getAccountSubEntryLimit()`, `ACCOUNT_SUBENTRY_LIMIT`. -/
def ACCOUNT_SUBENTRY_LIMIT : ℕ := 1000

inductive SponsorshipResult
  | SUCCESS
  | LOW_RESERVE
  | TOO_MANY_SUBENTRIES
  | TOO_MANY_SPONSORING
  | TOO_MANY_SPONSORED
deriving DecidableEq, Repr

inductive IsSignerSponsoredResult
  | DOES_NOT_EXIST
  | NOT_SPONSORED
  | SPONSORED
deriving DecidableEq, Repr

/-! ### The ledger and references into it -/

/-- The ledger the helpers load accounts from: its entries, no two with one key, and
the sponsorships of future reserves (`loadSponsorship(ltx, id)`: the account that
pays the reserves `id` takes on). -/
structure Ledger where
  entries : List LedgerEntry
  nodup : (entries.map LedgerEntryKey).Nodup
  sponsorships : AccountID → Option AccountID

namespace Ledger

/-- `ltx.load(key)`, when the key exists. -/
def find (L : Ledger) (k : LedgerKey) : Option LedgerEntry :=
  KeyedList.find LedgerEntryKey k L.entries

/-- Committing a loaded entry `e` back to the ledger. -/
def write (L : Ledger) (e : LedgerEntry) : Ledger where
  entries := KeyedList.replace LedgerEntryKey e L.entries
  nodup := by simpa using L.nodup
  sponsorships := L.sponsorships

/-- `ltx.create(e)`. -/
def create (L : Ledger) (e : LedgerEntry) : Except String Ledger :=
  if h : LedgerEntryKey e ∈ L.entries.map LedgerEntryKey then throw "Key already exists"
  else pure ⟨e :: L.entries, List.nodup_cons.mpr ⟨h, L.nodup⟩, L.sponsorships⟩

/-- `ltx.erase(key)`. -/
def erase (L : Ledger) (k : LedgerKey) : Except String Ledger :=
  if k ∈ L.entries.map LedgerEntryKey then
    pure ⟨KeyedList.erase LedgerEntryKey k L.entries, KeyedList.nodup_erase L.nodup,
      L.sponsorships⟩
  else throw "Key does not exist"

/-- The account entry of `id`, through a loaded handle: an empty handle throws. -/
def loadAccountEntry (L : Ledger) (id : AccountID) : Except String LedgerEntry :=
  match L.find (.ACCOUNT id) with
  | some e => pure e
  | none => throw "LedgerTxnEntry not active"

/-- `loadAccount(ltx, id).current()`, while the accounts `active` are loaded. -/
def loadAccount (L : Ledger) (active : List AccountID) (id : AccountID) :
    Except String AccountID :=
  if id ∈ active then throw "Key is active"
  else do
    let _ ← L.loadAccountEntry id
    pure id

/-- Writing `f` of the account of `id` back to the ledger. -/
def modifyAccount (L : Ledger) (id : AccountID) (f : AccountEntry → Except String AccountEntry) :
    Except String Ledger := do
  let e ← L.loadAccountEntry id
  let a ← e.account
  let a' ← f a
  pure (L.write { e with data := .ACCOUNT a' })

end Ledger

/-- A `LedgerEntry&` of the helpers: the entry `le` the caller holds, or the account
with this ID in the ledger. -/
inductive EntryRef
  | le
  | account (accountID : AccountID)
deriving DecidableEq, Repr

/-- What the references of a helper point into. -/
structure Ltx where
  le : LedgerEntry
  ledger : Ledger

namespace Ltx

/-- The entry a reference points to. -/
def load (w : Ltx) : EntryRef → Except String LedgerEntry
  | .le => pure w.le
  | .account id => w.ledger.loadAccountEntry id

/-- `r.data.account()`. -/
def getAccount (w : Ltx) (r : EntryRef) : Except String AccountEntry := do
  (← w.load r).account

/-- Writing `f` of the account a reference points to. -/
def modifyAccount (w : Ltx) : EntryRef → (AccountEntry → Except String AccountEntry) →
    Except String Ltx
  | .le, f => do
    let a ← w.le.account
    let a' ← f a
    pure { w with le := { w.le with data := .ACCOUNT a' } }
  | .account id, f => do
    let L ← w.ledger.modifyAccount id f
    pure { w with ledger := L }

end Ltx

/-- `acc.current()` of a `LedgerTxnEntry& acc`, empty when `none`. -/
def accHandle : Option AccountID → Except String EntryRef
  | some id => pure (.account id)
  | none => throw "LedgerTxnEntry not active"

/-! ### Getters and the extensions -/

/-- `getNumSponsored(le)`. -/
def getNumSponsored (a : AccountEntry) : ℕ :=
  match a.extV2 with
  | some x => x.numSponsored
  | none => 0

/-- `getNumSponsoring(le)`. -/
def getNumSponsoring (a : AccountEntry) : ℕ :=
  match a.extV2 with
  | some x => x.numSponsoring
  | none => 0

/-- `prepareAccountEntryExtensionV2(ae)`: a new extension has zero counters and no
sponsor for each signer. -/
def prepareAccountEntryExtensionV2 (a : AccountEntry) : AccountEntryExtensionV2 :=
  a.extV2.getD ⟨0, 0, List.replicate a.signers.length none⟩

/-- `prepareAccountEntryExtensionV2(ae)` updated by `g`, as an update of `ae`. -/
def updatePreparedExtV2 (g : AccountEntryExtensionV2 → AccountEntryExtensionV2)
    (a : AccountEntry) : AccountEntry :=
  { a with extV2 := some (g (prepareAccountEntryExtensionV2 a)) }

/-- `getAccountEntryExtensionV2(ae)`. -/
def getAccountEntryExtensionV2 (a : AccountEntry) : Except String AccountEntryExtensionV2 :=
  match a.extV2 with
  | some x => pure x
  | none => throw "expected AccountEntry extension V2"

/-- `getAccountEntryExtensionV2(ae)` updated by `g`, as an update of `ae`. -/
def updateExtV2 (g : AccountEntryExtensionV2 → Except String AccountEntryExtensionV2)
    (a : AccountEntry) : Except String AccountEntry := do
  let x ← getAccountEntryExtensionV2 a
  pure { a with extV2 := some (← g x) }

/-- `getLedgerEntryExtensionV1(le).sponsoringID`. -/
def getLedgerEntryExtensionV1 (le : LedgerEntry) : Except String (Option AccountID) :=
  match le.ext with
  | .v1 s => pure s
  | .v0 => throw "expected LedgerEntry extension V1"

/-- `v.at(n)`; `std::out_of_range` past the end. -/
def vectorAt {α : Type} (v : List α) (n : ℕ) : Except String α :=
  match v[n]? with
  | some x => pure x
  | none => throw "vector::at"

/-! ### Checks -/

/-- `getMinBalance(header, acc)`, with the overload on the three counts it calls. -/
def getMinBalance (lh : LedgerHeader) (acc : AccountEntry) : Except String ℤ :=
  let numSponsoring :=
    if protocolVersionStartsFrom lh.ledgerVersion 14 then getNumSponsoring acc else 0
  let numSponsored :=
    if protocolVersionStartsFrom lh.ledgerVersion 14 then getNumSponsored acc else 0
  if protocolVersionIsBefore lh.ledgerVersion 14 ∧ (numSponsored ≠ 0 ∨ numSponsoring ≠ 0) then
    throw "unexpected sponsorship state"
  else if protocolVersionIsBefore lh.ledgerVersion 9 then
    -- `(2 + numSubentries) * lh.baseReserve` is a `uint32_t` product, which wraps
    pure (((2 + acc.numSubEntries) * lh.baseReserve) % 2 ^ 32 : ℕ)
  else
    let effEntries : ℤ := 2 + acc.numSubEntries + numSponsoring - numSponsored
    if effEntries < 0 then throw "unexpected account state"
    else pure (effEntries * lh.baseReserve)

/-- `getAvailableBalance(header, le)` of an account entry. -/
def getAvailableBalance (lh : LedgerHeader) (acc : AccountEntry) : Except String ℤ := do
  let avail := acc.balance - (← getMinBalance lh acc)
  if protocolVersionStartsFrom lh.ledgerVersion 10 then pure (avail - acc.sellingLiabilities)
  else pure avail

/-- `detail::isSponsoringSubentrySumIncreaseValid(lh, acc, mult)`. -/
def isSponsoringSubentrySumIncreaseValid (lh : LedgerHeader) (acc : AccountEntry) (mult : ℕ) :
    Bool :=
  protocolVersionIsBefore lh.ledgerVersion 18 ||
    decide (getNumSponsoring acc + acc.numSubEntries + mult ≤ UINT32_MAX)

/-- `tooManySponsoring(lh, acc, mult)`. The `uint32_t` differences do not wrap: a
multiplier is at most ten. -/
def tooManySponsoring (lh : LedgerHeader) (acc : AccountEntry) (mult : ℕ) : Bool :=
  if getNumSponsoring acc > UINT32_MAX - mult then true
  else !isSponsoringSubentrySumIncreaseValid lh acc mult

/-- `tooManyNumSubEntries(lh, acc, mult)`. -/
def tooManyNumSubEntries (lh : LedgerHeader) (acc : AccountEntry) (mult : ℕ) : Bool :=
  if protocolVersionStartsFrom lh.ledgerVersion FIRST_PROTOCOL_SUPPORTING_OPERATION_LIMITS &&
      decide (acc.numSubEntries > ACCOUNT_SUBENTRY_LIMIT - mult) then true
  else !isSponsoringSubentrySumIncreaseValid lh acc mult

/-- `canEstablishSponsorshipHelper(lh, sponsoringAcc, sponsoredAcc, mult)`. -/
def canEstablishSponsorshipHelper (lh : LedgerHeader) (sponsoringAcc : AccountEntry)
    (sponsoredAcc : Option AccountEntry) (mult : ℕ) : Except String SponsorshipResult := do
  let reserve : ℤ := mult * lh.baseReserve
  if (← getAvailableBalance lh sponsoringAcc) < reserve then pure .LOW_RESERVE
  else if tooManySponsoring lh sponsoringAcc mult then pure .TOO_MANY_SPONSORING
  else if sponsoredAcc.any (fun a => getNumSponsored a > UINT32_MAX - mult) then
    pure .TOO_MANY_SPONSORED
  else pure .SUCCESS

/-- `canRemoveSponsorshipHelper(lh, sponsoringAcc, sponsoredAcc, mult)`. -/
def canRemoveSponsorshipHelper (lh : LedgerHeader) (sponsoringAcc : AccountEntry)
    (sponsoredAcc : Option AccountEntry) (mult : ℕ) : Except String SponsorshipResult := do
  if getNumSponsoring sponsoringAcc < mult then throw "insufficient numSponsoring"
  if sponsoredAcc.any (fun a => getNumSponsored a < mult) then throw "insufficient numSponsored"
  let reserve : ℤ := mult * lh.baseReserve
  match sponsoredAcc with
  | some a => if (← getAvailableBalance lh a) < reserve then pure .LOW_RESERVE else pure .SUCCESS
  | none => pure .SUCCESS

/-- `canTransferSponsorshipHelper(lh, oldSponsoringAcc, newSponsoringAcc, mult)`. -/
def canTransferSponsorshipHelper (lh : LedgerHeader) (oldSponsoringAcc newSponsoringAcc : AccountEntry)
    (mult : ℕ) : Except String SponsorshipResult := do
  let removeRes ← canRemoveSponsorshipHelper lh oldSponsoringAcc none mult
  if removeRes ≠ .SUCCESS then pure removeRes
  else canEstablishSponsorshipHelper lh newSponsoringAcc none mult

/-- `accountIsSponsor(sponsoringID, sponsoringAcc)`. -/
def accountIsSponsor (sponsoringID : Option AccountID) (sponsoringAcc : AccountEntry) :
    Except String Unit :=
  if sponsoringID = some sponsoringAcc.accountID then pure ()
  else throw "sponsorship doesn't match"

/-- `isSignerSponsored(signerIt, sponsoringAcc, sponsoredAcc)`, with the iterator as its
index `n`; an index past the last signer is `end()`. -/
def isSignerSponsored (n : ℕ) (sponsoringAcc sponsoredAcc : AccountEntry) :
    Except String IsSignerSponsoredResult :=
  if sponsoredAcc.signers.length ≤ n then pure .DOES_NOT_EXIST
  else match sponsoredAcc.extV2 with
    | some x => do
      let sponsoringID ← vectorAt x.signerSponsoringIDs n
      match sponsoringID with
      | some _ => do
        accountIsSponsor sponsoringID sponsoringAcc
        pure .SPONSORED
      | none => pure .NOT_SPONSORED
    | none => pure .NOT_SPONSORED

/-- `computeMultiplier(le)`. -/
def computeMultiplier (le : LedgerEntry) : Except String ℕ :=
  match le.data with
  | .ACCOUNT _ => pure 2
  | .TRUSTLINE _ (.ASSET_TYPE_POOL_SHARE _) => pure 2
  | .TRUSTLINE _ _ => pure 1
  | .OFFER .. | .DATA .. => pure 1
  | .CLAIMABLE_BALANCE _ claimants => pure claimants
  | .LIQUIDITY_POOL _ => throw "Invalid LedgerEntry type in SponsorshipUtils"

/-- `isSubentry(le)`. -/
def isSubentry (le : LedgerEntry) : Except String Bool :=
  match le.data with
  | .ACCOUNT _ | .CLAIMABLE_BALANCE .. => pure false
  | .TRUSTLINE .. | .OFFER .. | .DATA .. => pure true
  | .LIQUIDITY_POOL _ => throw "Invalid LedgerEntry type in SponsorshipUtils"

/-- `canEstablishEntrySponsorship(lh, le, sponsoringAcc, sponsoredAcc)`. -/
def canEstablishEntrySponsorship (lh : LedgerHeader) (le : LedgerEntry)
    (sponsoringAcc : AccountEntry) (sponsoredAcc : Option AccountEntry) :
    Except String SponsorshipResult := do
  if protocolVersionIsBefore lh.ledgerVersion 14 then throw "sponsorship before version 14"
  if le.sponsoringID.isSome then throw "sponsoring sponsored entry"
  let mult ← computeMultiplier le
  canEstablishSponsorshipHelper lh sponsoringAcc sponsoredAcc mult

/-- `canRemoveEntrySponsorship(lh, le, sponsoringAcc, sponsoredAcc)`. -/
def canRemoveEntrySponsorship (lh : LedgerHeader) (le : LedgerEntry)
    (sponsoringAcc : AccountEntry) (sponsoredAcc : Option AccountEntry) :
    Except String SponsorshipResult := do
  if protocolVersionIsBefore lh.ledgerVersion 14 then throw "sponsorship before version 14"
  if le.sponsoringID.isNone then throw "removing sponsorship on unsponsored entry"
  accountIsSponsor le.sponsoringID sponsoringAcc
  let mult ← computeMultiplier le
  canRemoveSponsorshipHelper lh sponsoringAcc sponsoredAcc mult

/-- `canTransferEntrySponsorship(lh, le, oldSponsoringAcc, newSponsoringAcc)`. -/
def canTransferEntrySponsorship (lh : LedgerHeader) (le : LedgerEntry)
    (oldSponsoringAcc newSponsoringAcc : AccountEntry) : Except String SponsorshipResult := do
  if protocolVersionIsBefore lh.ledgerVersion 14 then throw "sponsorship before version 14"
  if le.sponsoringID.isNone then throw "transferring sponsorship on unsponsored entry"
  accountIsSponsor le.sponsoringID oldSponsoringAcc
  let mult ← computeMultiplier le
  canTransferSponsorshipHelper lh oldSponsoringAcc newSponsoringAcc mult

/-- `canEstablishSignerSponsorship(lh, signerIt, sponsoringAcc, sponsoredAcc)`. -/
def canEstablishSignerSponsorship (lh : LedgerHeader) (n : ℕ)
    (sponsoringAcc sponsoredAcc : AccountEntry) : Except String SponsorshipResult := do
  if protocolVersionIsBefore lh.ledgerVersion 14 then throw "sponsorship before version 14"
  if (← isSignerSponsored n sponsoringAcc sponsoredAcc) ≠ .NOT_SPONSORED then
    throw "bad signer sponsorship"
  canEstablishSponsorshipHelper lh sponsoringAcc (some sponsoredAcc) 1

/-- `canRemoveSignerSponsorship(lh, signerIt, sponsoringAcc, sponsoredAcc)`. -/
def canRemoveSignerSponsorship (lh : LedgerHeader) (n : ℕ)
    (sponsoringAcc sponsoredAcc : AccountEntry) : Except String SponsorshipResult := do
  if protocolVersionIsBefore lh.ledgerVersion 14 then throw "sponsorship before version 14"
  if (← isSignerSponsored n sponsoringAcc sponsoredAcc) ≠ .SPONSORED then
    throw "bad signer sponsorship"
  canRemoveSponsorshipHelper lh sponsoringAcc (some sponsoredAcc) 1

/-- `canTransferSignerSponsorship(lh, signerIt, oldSponsoringAcc, newSponsoringAcc,
sponsoredAcc)`. -/
def canTransferSignerSponsorship (lh : LedgerHeader) (n : ℕ)
    (oldSponsoringAcc newSponsoringAcc sponsoredAcc : AccountEntry) :
    Except String SponsorshipResult := do
  if protocolVersionIsBefore lh.ledgerVersion 14 then throw "sponsorship before version 14"
  if (← isSignerSponsored n oldSponsoringAcc sponsoredAcc) ≠ .SPONSORED then
    throw "bad signer sponsorship"
  canTransferSponsorshipHelper lh oldSponsoringAcc newSponsoringAcc 1

/-! ### Establishing, removing and transferring a sponsorship -/

/-- `establishEntrySponsorship(le, sponsoringAcc, sponsoredAcc)`. -/
def establishEntrySponsorship (w : Ltx) (sponsoringAcc : EntryRef)
    (sponsoredAcc : Option EntryRef) : Except String Ltx := do
  let mult ← computeMultiplier w.le
  let sponsoringID := (← w.getAccount sponsoringAcc).accountID
  let w := { w with le := { w.le with ext := .v1 (some sponsoringID) } }
  let w ← w.modifyAccount sponsoringAcc fun a =>
    pure (updatePreparedExtV2 (fun x => { x with numSponsoring := x.numSponsoring + mult }) a)
  match sponsoredAcc with
  | some r =>
    w.modifyAccount r fun a =>
      pure (updatePreparedExtV2 (fun x => { x with numSponsored := x.numSponsored + mult }) a)
  | none => pure w

/-- `removeEntrySponsorship(le, sponsoringAcc, sponsoredAcc)`. -/
def removeEntrySponsorship (w : Ltx) (sponsoringAcc : EntryRef)
    (sponsoredAcc : Option EntryRef) : Except String Ltx := do
  let sponsoringID ← getLedgerEntryExtensionV1 w.le
  accountIsSponsor sponsoringID (← w.getAccount sponsoringAcc)
  let w := { w with le := { w.le with ext := .v1 none } }
  let mult ← computeMultiplier w.le
  let w ← w.modifyAccount sponsoringAcc
    (updateExtV2 fun x => pure { x with numSponsoring := x.numSponsoring - mult })
  match sponsoredAcc with
  | some r =>
    w.modifyAccount r (updateExtV2 fun x => pure { x with numSponsored := x.numSponsored - mult })
  | none => pure w

/-- `transferEntrySponsorship(le, oldSponsoringAcc, newSponsoringAcc)`. -/
def transferEntrySponsorship (w : Ltx) (oldSponsoringAcc newSponsoringAcc : EntryRef) :
    Except String Ltx := do
  let sponsoringID ← getLedgerEntryExtensionV1 w.le
  accountIsSponsor sponsoringID (← w.getAccount oldSponsoringAcc)
  let mult ← computeMultiplier w.le
  let newID := (← w.getAccount newSponsoringAcc).accountID
  let w := { w with le := { w.le with ext := .v1 (some newID) } }
  let w ← w.modifyAccount newSponsoringAcc fun a =>
    pure (updatePreparedExtV2 (fun x => { x with numSponsoring := x.numSponsoring + mult }) a)
  w.modifyAccount oldSponsoringAcc (updateExtV2 fun x => pure { x with numSponsoring := x.numSponsoring - mult })

/-- `establishSignerSponsorship(signerIt, sponsoringAcc, sponsoredAcc)`. -/
def establishSignerSponsorship (L : Ledger) (n : ℕ) (sponsoringAcc sponsoredAcc : AccountID) :
    Except String Ledger := do
  let L ← L.modifyAccount sponsoredAcc fun a => do
    let x := prepareAccountEntryExtensionV2 a
    let _ ← vectorAt x.signerSponsoringIDs n
    pure { a with extV2 := some { x with
      signerSponsoringIDs := x.signerSponsoringIDs.set n (some sponsoringAcc)
      numSponsored := x.numSponsored + 1 } }
  L.modifyAccount sponsoringAcc fun a =>
    pure (updatePreparedExtV2 (fun x => { x with numSponsoring := x.numSponsoring + 1 }) a)

/-- `removeSignerSponsorship(signerIt, sponsoringAcc, sponsoredAcc)`. -/
def removeSignerSponsorship (L : Ledger) (n : ℕ) (sponsoringAcc sponsoredAcc : AccountID) :
    Except String Ledger := do
  let sponsoring ← (← L.loadAccountEntry sponsoringAcc).account
  let L ← L.modifyAccount sponsoredAcc <| updateExtV2 fun x => do
    let sponsoringID ← vectorAt x.signerSponsoringIDs n
    accountIsSponsor sponsoringID sponsoring
    pure { x with
      signerSponsoringIDs := x.signerSponsoringIDs.set n none
      numSponsored := x.numSponsored - 1 }
  L.modifyAccount sponsoringAcc (updateExtV2 fun x => pure { x with numSponsoring := x.numSponsoring - 1 })

/-- `transferSignerSponsorship(signerIt, oldSponsoringAcc, newSponsoringAcc,
sponsoredAcc)`. -/
def transferSignerSponsorship (L : Ledger) (n : ℕ)
    (oldSponsoringAcc newSponsoringAcc sponsoredAcc : AccountID) : Except String Ledger := do
  let oldSponsoring ← (← L.loadAccountEntry oldSponsoringAcc).account
  let L ← L.modifyAccount sponsoredAcc <| updateExtV2 fun x => do
    let sponsoringID ← vectorAt x.signerSponsoringIDs n
    accountIsSponsor sponsoringID oldSponsoring
    pure { x with signerSponsoringIDs := x.signerSponsoringIDs.set n (some newSponsoringAcc) }
  let L ← L.modifyAccount newSponsoringAcc fun a =>
    pure (updatePreparedExtV2 (fun x => { x with numSponsoring := x.numSponsoring + 1 }) a)
  L.modifyAccount oldSponsoringAcc (updateExtV2 fun x => pure { x with numSponsoring := x.numSponsoring - 1 })

/-! ### Creating and removing with or without a sponsor -/

/-- `canCreateEntryWithoutSponsorship(lh, le, acc)`. -/
def canCreateEntryWithoutSponsorship (lh : LedgerHeader) (le : LedgerEntry) (acc : AccountEntry) :
    Except String SponsorshipResult :=
  match le.data with
  | .ACCOUNT newAccount => do
    if newAccount.balance < (← getMinBalance lh acc) then pure .LOW_RESERVE else pure .SUCCESS
  | _ => do
    let mult ← computeMultiplier le
    if tooManyNumSubEntries lh acc mult then pure .TOO_MANY_SUBENTRIES
    else if protocolVersionIsBefore lh.ledgerVersion 9 then
      -- before protocol 9 the check is on a copy with the new subentries counted
      if (← getAvailableBalance lh { acc with numSubEntries := acc.numSubEntries + mult }) < 0 then
        pure .LOW_RESERVE
      else pure .SUCCESS
    else
      if (← getAvailableBalance lh acc) < (mult * lh.baseReserve : ℤ) then pure .LOW_RESERVE
      else pure .SUCCESS

/-- `canCreateEntryWithSponsorship(lh, le, sponsoringAcc, sponsoredAcc)`. -/
def canCreateEntryWithSponsorship (lh : LedgerHeader) (le : LedgerEntry)
    (sponsoringAcc : AccountEntry) (sponsoredAcc : Option AccountEntry) :
    Except String SponsorshipResult := do
  if protocolVersionIsBefore lh.ledgerVersion 14 then throw "sponsorship before version 14"
  if let some a := sponsoredAcc then
    if ← isSubentry le then
      let mult ← computeMultiplier le
      if tooManyNumSubEntries lh a mult then return .TOO_MANY_SUBENTRIES
  canEstablishEntrySponsorship lh le sponsoringAcc sponsoredAcc

/-- `canRemoveEntryWithoutSponsorship(lh, le, acc)`. -/
def canRemoveEntryWithoutSponsorship (le : LedgerEntry) (acc : AccountEntry) :
    Except String Unit := do
  if !le.isAccount then
    let mult ← computeMultiplier le
    if acc.numSubEntries < mult then throw "invalid account state"

/-- `canRemoveEntryWithSponsorship(lh, le, sponsoringAcc, sponsoredAcc)`. -/
def canRemoveEntryWithSponsorship (lh : LedgerHeader) (le : LedgerEntry)
    (sponsoringAcc : AccountEntry) (sponsoredAcc : Option LedgerEntry) : Except String Unit := do
  if protocolVersionIsBefore lh.ledgerVersion 14 then throw "sponsorship before version 14"
  let mult ← computeMultiplier le
  if getNumSponsoring sponsoringAcc < mult then throw "invalid sponsoring account state"
  if le.isAccount && sponsoredAcc ≠ some le then throw "invalid sponsored account"
  if let some s := sponsoredAcc then
    let a ← s.account
    if (!le.isAccount && a.numSubEntries < mult) || getNumSponsored a < mult then
      throw "invalid sponsored account state"

/-- `canCreateSignerWithoutSponsorship(lh, acc)`. -/
def canCreateSignerWithoutSponsorship (lh : LedgerHeader) (acc : AccountEntry) :
    Except String SponsorshipResult := do
  if tooManyNumSubEntries lh acc 1 then pure .TOO_MANY_SUBENTRIES
  else if (← getAvailableBalance lh acc) < lh.baseReserve then pure .LOW_RESERVE
  else pure .SUCCESS

/-- `canCreateSignerWithSponsorship(lh, signerIt, sponsoringAcc, sponsoredAcc)`. -/
def canCreateSignerWithSponsorship (lh : LedgerHeader) (n : ℕ)
    (sponsoringAcc sponsoredAcc : AccountEntry) : Except String SponsorshipResult := do
  if protocolVersionIsBefore lh.ledgerVersion 14 then throw "sponsorship before version 14"
  if tooManyNumSubEntries lh sponsoredAcc 1 then pure .TOO_MANY_SUBENTRIES
  else canEstablishSignerSponsorship lh n sponsoringAcc sponsoredAcc

/-- `canRemoveSignerWithoutSponsorship(lh, acc)`. -/
def canRemoveSignerWithoutSponsorship (acc : AccountEntry) : Except String Unit :=
  if acc.numSubEntries < 1 then throw "invalid account state" else pure ()

/-- `canRemoveSignerWithSponsorship(lh, sponsoringAcc, sponsoredAcc)`. -/
def canRemoveSignerWithSponsorship (lh : LedgerHeader) (sponsoringAcc sponsoredAcc : AccountEntry) :
    Except String Unit := do
  if protocolVersionIsBefore lh.ledgerVersion 14 then throw "sponsorship before version 14"
  if getNumSponsoring sponsoringAcc < 1 then throw "invalid sponsoring account state"
  if sponsoredAcc.numSubEntries < 1 || getNumSponsored sponsoredAcc < 1 then
    throw "invalid sponsored account state"

/-- `createEntryWithoutSponsorship(le, acc)`. -/
def createEntryWithoutSponsorship (w : Ltx) (acc : EntryRef) : Except String Ltx := do
  if ← isSubentry w.le then
    let mult ← computeMultiplier w.le
    w.modifyAccount acc fun a => pure { a with numSubEntries := a.numSubEntries + mult }
  else pure w

/-- `createEntryWithSponsorship(le, sponsoringAcc, sponsoredAcc)`. -/
def createEntryWithSponsorship (w : Ltx) (sponsoringAcc : EntryRef)
    (sponsoredAcc : Option EntryRef) : Except String Ltx := do
  let w ← match sponsoredAcc with
    | some r => createEntryWithoutSponsorship w r
    | none => pure w
  establishEntrySponsorship w sponsoringAcc sponsoredAcc

/-- `removeEntryWithoutSponsorship(le, acc)`. Unlike `createEntryWithoutSponsorship`,
it tests for an account, not for a subentry. -/
def removeEntryWithoutSponsorship (w : Ltx) (acc : EntryRef) : Except String Ltx := do
  if !w.le.isAccount then
    let mult ← computeMultiplier w.le
    w.modifyAccount acc fun a => pure { a with numSubEntries := a.numSubEntries - mult }
  else pure w

/-- `removeEntryWithSponsorship(le, sponsoringAcc, sponsoredAcc)`. -/
def removeEntryWithSponsorship (w : Ltx) (sponsoringAcc : EntryRef)
    (sponsoredAcc : Option EntryRef) : Except String Ltx := do
  let w ← match sponsoredAcc with
    | some r => removeEntryWithoutSponsorship w r
    | none => pure w
  removeEntrySponsorship w sponsoringAcc sponsoredAcc

/-- `createSignerWithoutSponsorship(acc)`. -/
def createSignerWithoutSponsorship (L : Ledger) (acc : AccountID) : Except String Ledger :=
  L.modifyAccount acc fun a => pure { a with numSubEntries := a.numSubEntries + 1 }

/-- `createSignerWithSponsorship(signerIt, sponsoringAcc, sponsoredAcc)`. -/
def createSignerWithSponsorship (L : Ledger) (n : ℕ) (sponsoringAcc sponsoredAcc : AccountID) :
    Except String Ledger := do
  let L ← createSignerWithoutSponsorship L sponsoredAcc
  establishSignerSponsorship L n sponsoringAcc sponsoredAcc

/-- `removeSignerWithoutSponsorship(signerIt, acc)`. -/
def removeSignerWithoutSponsorship (L : Ledger) (n : ℕ) (acc : AccountID) : Except String Ledger :=
  L.modifyAccount acc fun a => pure { a with
    numSubEntries := a.numSubEntries - 1
    extV2 := a.extV2.map fun x => { x with signerSponsoringIDs := x.signerSponsoringIDs.eraseIdx n }
    signers := a.signers.eraseIdx n }

/-- `removeSignerWithSponsorship(signerIt, sponsoringAcc, sponsoredAcc)`. -/
def removeSignerWithSponsorship (L : Ledger) (n : ℕ) (sponsoringAcc sponsoredAcc : AccountID) :
    Except String Ledger := do
  let L ← removeSignerSponsorship L n sponsoringAcc sponsoredAcc
  removeSignerWithoutSponsorship L n sponsoredAcc

/-! ### The helpers that look for a sponsor -/

/-- `createEntryWithPossibleSponsorship(ltx, header, le, acc)`. The reserve is the new
account's own, or `acc`'s; a claimable balance takes no account's reserve, and without
a sponsorship of future reserves `acc` sponsors it. -/
def createEntryWithPossibleSponsorship (lh : LedgerHeader) (w : Ltx) (acc : Option AccountID) :
    Except String (SponsorshipResult × Ltx) := do
  let sponsoredRef ← if w.le.isAccount then pure EntryRef.le else accHandle acc
  let sponsoredID := (← w.getAccount sponsoredRef).accountID
  let sponsoredAcc := if w.le.isClaimableBalance then none else some sponsoredRef
  match w.ledger.sponsorships sponsoredID with
  | some sponsoringID => do
    let sponsoringAcc := EntryRef.account (← w.ledger.loadAccount acc.toList sponsoringID)
    let res ← canCreateEntryWithSponsorship lh w.le (← w.getAccount sponsoringAcc)
      (← sponsoredAcc.mapM w.getAccount)
    if res = .SUCCESS then pure (res, ← createEntryWithSponsorship w sponsoringAcc sponsoredAcc)
    else pure (res, w)
  | none =>
    match sponsoredAcc with
    | none => do
      let accRef ← accHandle acc
      let res ← canCreateEntryWithSponsorship lh w.le (← w.getAccount accRef) none
      if res = .SUCCESS then pure (res, ← createEntryWithSponsorship w accRef none)
      else pure (res, w)
    | some r => do
      let res ← canCreateEntryWithoutSponsorship lh w.le (← w.getAccount r)
      if res = .SUCCESS then pure (res, ← createEntryWithoutSponsorship w r)
      else pure (res, w)

/-- `removeEntryWithPossibleSponsorship(ltx, header, le, acc)`. -/
def removeEntryWithPossibleSponsorship (lh : LedgerHeader) (w : Ltx) (acc : AccountID) :
    Except String Ltx := do
  match w.le.sponsoringID with
  | some sponsoringID =>
    -- a claimable balance takes no account's reserve
    let sponsoredAccount := if w.le.isClaimableBalance then none else some (EntryRef.account acc)
    if (← w.getAccount (.account acc)).accountID = sponsoringID then
      if !w.le.isClaimableBalance then
        throw "sponsoringID == sourceAccount for non-CLAIMABLE_BALANCE entry"
      canRemoveEntryWithSponsorship lh w.le (← w.getAccount (.account acc))
        (← sponsoredAccount.mapM w.load)
      removeEntryWithSponsorship w (.account acc) sponsoredAccount
    else
      let sponsoringAcc := EntryRef.account (← w.ledger.loadAccount [acc] sponsoringID)
      canRemoveEntryWithSponsorship lh w.le (← w.getAccount sponsoringAcc)
        (← sponsoredAccount.mapM w.load)
      removeEntryWithSponsorship w sponsoringAcc sponsoredAccount
  | none => do
    canRemoveEntryWithoutSponsorship w.le (← w.getAccount (.account acc))
    removeEntryWithoutSponsorship w (.account acc)

/-- `createSignerWithPossibleSponsorship(ltx, header, signerIt, acc)`. -/
def createSignerWithPossibleSponsorship (lh : LedgerHeader) (L : Ledger) (n : ℕ) (acc : AccountID) :
    Except String (SponsorshipResult × Ledger) := do
  let accEntry ← (← L.loadAccountEntry acc).account
  match L.sponsorships acc with
  | some sponsoringID => do
    let sponsoringAcc ← L.loadAccount [acc] sponsoringID
    let res ← canCreateSignerWithSponsorship lh n
      (← (← L.loadAccountEntry sponsoringAcc).account) accEntry
    if res = .SUCCESS then pure (res, ← createSignerWithSponsorship L n sponsoringAcc acc)
    else pure (res, L)
  | none => do
    let res ← canCreateSignerWithoutSponsorship lh accEntry
    if res = .SUCCESS then pure (res, ← createSignerWithoutSponsorship L acc)
    else pure (res, L)

/-- `removeSignerWithPossibleSponsorship(ltx, header, signerIt, acc)`. -/
def removeSignerWithPossibleSponsorship (lh : LedgerHeader) (L : Ledger) (n : ℕ) (acc : AccountID) :
    Except String Ledger := do
  let accEntry ← (← L.loadAccountEntry acc).account
  let sponsoringID ← match accEntry.extV2 with
    | some x => vectorAt x.signerSponsoringIDs n
    | none => pure none
  match sponsoringID with
  | some s => do
    let sponsoringAcc ← L.loadAccount [acc] s
    canRemoveSignerWithSponsorship lh (← (← L.loadAccountEntry sponsoringAcc).account) accEntry
    removeSignerWithSponsorship L n sponsoringAcc acc
  | none => do
    canRemoveSignerWithoutSponsorship accEntry
    removeSignerWithoutSponsorship L n acc

/-! ### The callers -/

/-- The entry of `key`, loaded by an operation. -/
def loadEntry (L : Ledger) (key : LedgerKey) : Except String LedgerEntry :=
  match L.find key with
  | some e => pure e
  | none => throw "LedgerTxnEntry not active"

/-- An operation that creates `le` (`CreateAccount`, `ChangeTrust`, `ManageOffer`,
`ManageData`, `CreateClaimableBalance`): `createEntryWithPossibleSponsorship` with the
operation's source account as `acc` (an empty handle for a new account), then
`ltx.create(le)` when it succeeded. -/
def createEntry (lh : LedgerHeader) (L : Ledger) (le : LedgerEntry) (acc : Option AccountID) :
    Except String Ledger := do
  let (res, w) ← createEntryWithPossibleSponsorship lh ⟨le, L⟩ acc
  if res = .SUCCESS then w.ledger.create w.le else pure L

/-- An operation that removes the entry of `key` (`ChangeTrust`, `ManageOffer`,
`ManageData`, `ClaimClaimableBalance`, `AccountMerge`): the entry is loaded,
`removeEntryWithPossibleSponsorship` runs with the operation's account `acc`, and the
entry is erased. -/
def removeEntry (lh : LedgerHeader) (L : Ledger) (key : LedgerKey) (acc : AccountID) :
    Except String Ledger := do
  let le ← loadEntry L key
  let w ← removeEntryWithPossibleSponsorship lh ⟨le, L⟩ acc
  w.ledger.erase key

/-- `SetOptionsOpFrame::addOrChangeSigner` for a new signer: it goes into `acc`'s
signers at position `n`, with no sponsor when the account has the extension v2, and
`createSignerWithPossibleSponsorship` runs on it. -/
def createSigner (lh : LedgerHeader) (L : Ledger) (acc : AccountID) (n : ℕ) (signer : SignerKey) :
    Except String Ledger := do
  let L' ← L.modifyAccount acc fun a => pure { a with
    signers := a.signers.insertIdx n signer
    extV2 := a.extV2.map fun x =>
      { x with signerSponsoringIDs := x.signerSponsoringIDs.insertIdx n none } }
  let (res, L'') ← createSignerWithPossibleSponsorship lh L' n acc
  if res = .SUCCESS then pure L'' else pure L

/-- The accounts an operation holds loaded while it works on the entry `le`. -/
def activeAccounts (le : LedgerEntry) : List AccountID :=
  match le.data with
  | .ACCOUNT a => [a.accountID]
  | _ => []

/-- The account whose reserve the entry `le` takes, loaded as `RevokeSponsorshipOpFrame`
loads it while `active` are loaded: the entry itself for an account, its owner for a
subentry, none for a claimable balance. -/
def loadSponsoredAccount (L : Ledger) (active : List AccountID) (le : LedgerEntry) :
    Except String (Option EntryRef) :=
  match le.data with
  | .ACCOUNT _ => pure (some .le)
  | .TRUSTLINE id _ | .OFFER id _ | .DATA id _ => do
    pure (some (.account (← L.loadAccount active id)))
  | _ => pure none

/-- `RevokeSponsorshipOpFrame::tryEstablishEntrySponsorship`: `sponsoringID` starts to
pay the reserve of the entry of `key`, when `canEstablishEntrySponsorship` agrees. -/
def tryEstablishEntrySponsorship (lh : LedgerHeader) (L : Ledger) (key : LedgerKey)
    (sponsoringID : AccountID) : Except String Ledger := do
  let le ← loadEntry L key
  let sponsoringAcc := EntryRef.account (← L.loadAccount (activeAccounts le) sponsoringID)
  let sponsoredAcc ← loadSponsoredAccount L (sponsoringID :: activeAccounts le) le
  let w : Ltx := ⟨le, L⟩
  let res ← canEstablishEntrySponsorship lh le (← w.getAccount sponsoringAcc)
    (← sponsoredAcc.mapM w.getAccount)
  if res = .SUCCESS then
    let w ← establishEntrySponsorship w sponsoringAcc sponsoredAcc
    pure (w.ledger.write w.le)
  else pure L

/-- `RevokeSponsorshipOpFrame::tryRemoveEntrySponsorship`: the sponsor of the entry of
`key` stops paying its reserve, when `canRemoveEntrySponsorship` agrees. A claimable
balance's sponsorship can only be transferred (`REVOKE_SPONSORSHIP_ONLY_TRANSFERABLE`). -/
def tryRemoveEntrySponsorship (lh : LedgerHeader) (L : Ledger) (key : LedgerKey) :
    Except String Ledger := do
  let le ← loadEntry L key
  match le.sponsoringID with
  | none => pure L
  | some sponsoringID =>
    if le.isClaimableBalance then pure L
    else do
      let sponsoringAcc := EntryRef.account (← L.loadAccount (activeAccounts le) sponsoringID)
      let sponsoredAcc ← loadSponsoredAccount L (sponsoringID :: activeAccounts le) le
      let w : Ltx := ⟨le, L⟩
      let res ← canRemoveEntrySponsorship lh le (← w.getAccount sponsoringAcc)
        (← sponsoredAcc.mapM w.getAccount)
      if res = .SUCCESS then
        let w ← removeEntrySponsorship w sponsoringAcc sponsoredAcc
        pure (w.ledger.write w.le)
      else pure L

/-- The transfer branch of `RevokeSponsorshipOpFrame::updateLedgerEntrySponsorship`:
`newSponsoringID` takes over the reserve of the entry of `key`, when
`canTransferEntrySponsorship` agrees. -/
def tryTransferEntrySponsorship (lh : LedgerHeader) (L : Ledger) (key : LedgerKey)
    (newSponsoringID : AccountID) : Except String Ledger := do
  let le ← loadEntry L key
  match le.sponsoringID with
  | none => pure L
  | some oldSponsoringID => do
    let oldSponsoringAcc :=
      EntryRef.account (← L.loadAccount (activeAccounts le) oldSponsoringID)
    let newSponsoringAcc :=
      EntryRef.account (← L.loadAccount (oldSponsoringID :: activeAccounts le) newSponsoringID)
    let w : Ltx := ⟨le, L⟩
    let res ← canTransferEntrySponsorship lh le (← w.getAccount oldSponsoringAcc)
      (← w.getAccount newSponsoringAcc)
    if res = .SUCCESS then
      let w ← transferEntrySponsorship w oldSponsoringAcc newSponsoringAcc
      pure (w.ledger.write w.le)
    else pure L

/-- The establish branch of `RevokeSponsorshipOpFrame::updateSignerSponsorship`:
`sponsoringID` starts to pay the reserve of `acc`'s signer `n`, when
`canEstablishSignerSponsorship` agrees. -/
def tryEstablishSignerSponsorship (lh : LedgerHeader) (L : Ledger) (acc : AccountID) (n : ℕ)
    (sponsoringID : AccountID) : Except String Ledger := do
  let accEntry ← (← L.loadAccountEntry acc).account
  if accEntry.signers.length ≤ n then pure L
  else do
    let sponsoringAcc ← L.loadAccount [acc] sponsoringID
    let res ← canEstablishSignerSponsorship lh n (← (← L.loadAccountEntry sponsoringAcc).account)
      accEntry
    if res = .SUCCESS then establishSignerSponsorship L n sponsoringAcc acc else pure L

/-- The sponsor of `acc`'s signer `n`, as `RevokeSponsorshipOpFrame::updateSignerSponsorship`
reads it. -/
def signerSponsoringID (accEntry : AccountEntry) (n : ℕ) : Except String (Option AccountID) :=
  match accEntry.extV2 with
  | some x => if x.signerSponsoringIDs.length ≤ n then throw "bad signer sponsorships"
    else vectorAt x.signerSponsoringIDs n
  | none => pure none

/-- The remove branch of `RevokeSponsorshipOpFrame::updateSignerSponsorship`: the
sponsor of `acc`'s signer `n` stops paying its reserve, when
`canRemoveSignerSponsorship` agrees. -/
def tryRemoveSignerSponsorship (lh : LedgerHeader) (L : Ledger) (acc : AccountID) (n : ℕ) :
    Except String Ledger := do
  let accEntry ← (← L.loadAccountEntry acc).account
  if accEntry.signers.length ≤ n then pure L
  else
    match ← signerSponsoringID accEntry n with
    | none => pure L
    | some sponsoringID => do
      let sponsoringAcc ← L.loadAccount [acc] sponsoringID
      let res ← canRemoveSignerSponsorship lh n
        (← (← L.loadAccountEntry sponsoringAcc).account) accEntry
      if res = .SUCCESS then removeSignerSponsorship L n sponsoringAcc acc else pure L

/-- The transfer branch of `RevokeSponsorshipOpFrame::updateSignerSponsorship`:
`newSponsoringID` takes over the reserve of `acc`'s signer `n`, when
`canTransferSignerSponsorship` agrees. -/
def tryTransferSignerSponsorship (lh : LedgerHeader) (L : Ledger) (acc : AccountID) (n : ℕ)
    (newSponsoringID : AccountID) : Except String Ledger := do
  let accEntry ← (← L.loadAccountEntry acc).account
  if accEntry.signers.length ≤ n then pure L
  else
    match ← signerSponsoringID accEntry n with
    | none => pure L
    | some oldSponsoringID => do
      let oldSponsoringAcc ← L.loadAccount [acc] oldSponsoringID
      let newSponsoringAcc ← L.loadAccount [acc, oldSponsoringAcc] newSponsoringID
      let res ← canTransferSignerSponsorship lh n
        (← (← L.loadAccountEntry oldSponsoringAcc).account)
        (← (← L.loadAccountEntry newSponsoringAcc).account) accEntry
      if res = .SUCCESS then
        transferSignerSponsorship L n oldSponsoringAcc newSponsoringAcc acc
      else pure L

end Sponsorship

end HcnetCore
