import HcnetCore.Transactions.SponsorshipUtils

/-!
# What the sponsorship counters count

The counters an account stores are meant to count entries of the whole ledger
(`invariant/SponsorshipCountIsValid.cpp` checks their changes after each operation):

* `numSponsoring(A)` — the multipliers of the entries `A` sponsors, and the signers,
  on any account, that `A` sponsors;
* `numSponsored(A)` — the multipliers of `A`'s own account entry, trustlines, offers
  and data entries that someone sponsors, and `A`'s sponsored signers;
* `numSubEntries(A)` — the multipliers of `A`'s trustlines, offers and data entries,
  and `A`'s signers.

`Counted` says this of every account of a ledger, and that `signerSponsoringIDs` has
one element per signer.

The invariant the helpers keep is stated as a sum instead: `gap A e` is what the entry
`e` stores for the account `A` (its counters, if `e` is `A`'s account entry) less what
it counts for `A`, and `Balanced` says that the gaps of each account ID add up to
zero, whether the account exists or not. For an account that exists this is
`Counted`; for one that does not, it says that no entry names it. Writing, creating or
erasing an entry changes the sum by the gaps of that entry alone (`total_write`,
`total_create`, `total_erase`), so a call keeps the balance when the gaps of the
entries it writes change by nothing in sum.
-/

namespace HcnetCore

namespace Sponsorship

/-! ### What an entry counts -/

/-- The multiplier of an entry: `computeMultiplier` where it returns (`getMult` of
`SponsorshipCountIsValid`). -/
def multiplier : LedgerEntryData → ℕ
  | .ACCOUNT _ => 2
  | .TRUSTLINE _ (.ASSET_TYPE_POOL_SHARE _) => 2
  | .TRUSTLINE .. | .OFFER .. | .DATA .. => 1
  | .CLAIMABLE_BALANCE _ claimants => claimants
  | .LIQUIDITY_POOL _ => 0

/-- The account an entry takes its reserve from (`getAccountID` of
`SponsorshipCountIsValid`): an account's own, or a subentry's owner. -/
def owner : LedgerEntryData → Option AccountID
  | .ACCOUNT a => some a.accountID
  | .TRUSTLINE id _ | .OFFER id _ | .DATA id _ => some id
  | .CLAIMABLE_BALANCE .. | .LIQUIDITY_POOL _ => none

/-- Trustlines, offers and data entries. -/
def subentry : LedgerEntryData → Bool
  | .TRUSTLINE .. | .OFFER .. | .DATA .. => true
  | _ => false

/-- The signers of `a` that `A` sponsors. -/
def signersSponsoredBy (A : AccountID) (a : AccountEntry) : ℕ :=
  match a.extV2 with
  | some x => x.signerSponsoringIDs.count (some A)
  | none => 0

/-- The signers of `a` that someone sponsors. -/
def sponsoredSigners (a : AccountEntry) : ℕ :=
  match a.extV2 with
  | some x => x.signerSponsoringIDs.countP Option.isSome
  | none => 0

/-- What `e` counts in `numSponsoring(A)`. -/
def sponsoringCount (A : AccountID) (e : LedgerEntry) : ℕ :=
  (if e.sponsoringID = some A then multiplier e.data else 0) +
    match e.data with
    | .ACCOUNT a => signersSponsoredBy A a
    | _ => 0

/-- What `e` counts in `numSponsored(A)`. -/
def sponsoredCount (A : AccountID) (e : LedgerEntry) : ℕ :=
  (if owner e.data = some A ∧ e.sponsoringID.isSome then multiplier e.data else 0) +
    match e.data with
    | .ACCOUNT a => if a.accountID = A then sponsoredSigners a else 0
    | _ => 0

/-- What `e` counts in `numSubEntries(A)`. -/
def subEntryCount (A : AccountID) (e : LedgerEntry) : ℕ :=
  (if owner e.data = some A ∧ subentry e.data then multiplier e.data else 0) +
    match e.data with
    | .ACCOUNT a => if a.accountID = A then a.signers.length else 0
    | _ => 0

/-- The counters `a` stores: `numSponsoring`, `numSponsored`, `numSubEntries`. -/
def storedCounters (a : AccountEntry) : ℤ × ℤ × ℤ :=
  (getNumSponsoring a, getNumSponsored a, a.numSubEntries)

/-- What `e` stores for `A`: the counters of `A`'s account entry. -/
def stored (A : AccountID) (e : LedgerEntry) : ℤ × ℤ × ℤ :=
  match e.data with
  | .ACCOUNT a => if a.accountID = A then storedCounters a else 0
  | _ => 0

/-- The reserves `e` counts for `A`, in the order of the counters. -/
def counted (A : AccountID) (e : LedgerEntry) : ℤ × ℤ × ℤ :=
  (sponsoringCount A e, sponsoredCount A e, subEntryCount A e)

/-- What `e` stores for `A` less what it counts for `A`. -/
def gap (A : AccountID) (e : LedgerEntry) : ℤ × ℤ × ℤ := stored A e - counted A e

/-- The gaps of `A` over a list of entries. -/
def total (es : List LedgerEntry) (A : AccountID) : ℤ × ℤ × ℤ := (es.map (gap A)).sum

/-! ### The invariant -/

/-- The account entries of a list. -/
def accounts (es : List LedgerEntry) : List AccountEntry :=
  es.filterMap fun e =>
    match e.data with
    | .ACCOUNT a => some a
    | _ => none

/-- `signerSponsoringIDs`, when present, has one element per signer. -/
def SignersAligned (a : AccountEntry) : Prop :=
  ∀ x ∈ a.extV2, x.signerSponsoringIDs.length = a.signers.length

instance (a : AccountEntry) : Decidable (SignersAligned a) :=
  inferInstanceAs (Decidable (∀ x ∈ a.extV2, _))

/-- **A counted account**: its three counters count the entries of `es`, and its
`signerSponsoringIDs` are aligned with its signers. -/
def AccountCounted (es : List LedgerEntry) (a : AccountEntry) : Prop :=
  getNumSponsoring a = (es.map (sponsoringCount a.accountID)).sum ∧
  getNumSponsored a = (es.map (sponsoredCount a.accountID)).sum ∧
  a.numSubEntries = (es.map (subEntryCount a.accountID)).sum ∧
  SignersAligned a

instance (es : List LedgerEntry) (a : AccountEntry) : Decidable (AccountCounted es a) :=
  inferInstanceAs (Decidable (_ ∧ _ ∧ _ ∧ _))

/-- **A counted ledger**: every account in it is counted. -/
def Counted (L : Ledger) : Prop := ∀ a ∈ accounts L.entries, AccountCounted L.entries a

instance (L : Ledger) : Decidable (Counted L) :=
  inferInstanceAs (Decidable (∀ a ∈ accounts L.entries, _))

/-- An entry as the helpers expect it: an account's `signerSponsoringIDs` are aligned
with its signers, and a claimable balance has a sponsor. -/
def WellFormed (e : LedgerEntry) : Prop :=
  (∀ a, e.data = .ACCOUNT a → SignersAligned a) ∧
  (e.isClaimableBalance = true → e.sponsoringID.isSome = true)

/-- **The invariant the sponsorship helpers keep.** The gaps of every account ID add
up to zero, and every entry is well formed. -/
structure Inv (L : Ledger) : Prop where
  balanced : ∀ A, total L.entries A = 0
  wellFormed : ∀ e ∈ L.entries, WellFormed e

/-! ### The gap of an entry -/

/-- The gap of an account entry: its counters for its own ID, less the reserves it
counts (its own sponsorship and its signers'). -/
theorem gap_account (A : AccountID) (a : AccountEntry) (ext : LedgerEntryExt) :
    gap A ⟨.ACCOUNT a, ext⟩ =
      (if a.accountID = A then storedCounters a else 0) -
      ((((if (⟨.ACCOUNT a, ext⟩ : LedgerEntry).sponsoringID = some A then 2 else 0) +
          signersSponsoredBy A a : ℕ) : ℤ),
        ((if a.accountID = A then
          (if (⟨.ACCOUNT a, ext⟩ : LedgerEntry).sponsoringID.isSome then 2 else 0) +
            sponsoredSigners a else 0 : ℕ) : ℤ),
        ((if a.accountID = A then a.signers.length else 0 : ℕ) : ℤ)) := by
  simp only [gap, stored, counted, sponsoringCount, sponsoredCount, subEntryCount, multiplier, owner,
    subentry, Option.some.injEq, Bool.false_eq_true, and_false, if_false, zero_add]
  by_cases h : a.accountID = A <;> simp [h]

/-- The gap of an entry that is not an account: minus the reserve it counts for its
sponsor and its owner. -/
theorem gap_of_not_account (A : AccountID) {e : LedgerEntry} (he : e.isAccount = false) :
    gap A e =
      -(((if e.sponsoringID = some A then multiplier e.data else 0 : ℕ) : ℤ),
        ((if owner e.data = some A ∧ e.sponsoringID.isSome then multiplier e.data else 0 : ℕ) : ℤ),
        ((if owner e.data = some A ∧ subentry e.data then multiplier e.data else 0 : ℕ) : ℤ)) := by
  obtain ⟨data, ext⟩ := e
  cases data <;>
    simp_all [gap, stored, counted, sponsoringCount, sponsoredCount, subEntryCount,
      LedgerEntry.isAccount]

/-- `a'` differs from `a` in its three counters at most: the ledger counts the same
reserves of it. -/
structure CountersOnly (a a' : AccountEntry) : Prop where
  accountID : a'.accountID = a.accountID
  signers : a'.signers = a.signers
  signersSponsoredBy : ∀ B, signersSponsoredBy B a' = signersSponsoredBy B a
  sponsoredSigners : sponsoredSigners a' = sponsoredSigners a
  aligned : SignersAligned a → SignersAligned a'

/-- Changing an account's counters changes its gap by the change of its counters. -/
theorem gap_of_countersOnly {a a' : AccountEntry} (h : CountersOnly a a') (ext : LedgerEntryExt)
    (A : AccountID) :
    gap A ⟨.ACCOUNT a', ext⟩ = gap A ⟨.ACCOUNT a, ext⟩ +
      if a.accountID = A then storedCounters a' - storedCounters a else 0 := by
  simp only [gap_account, LedgerEntry.sponsoringID, h.accountID, h.signers, h.signersSponsoredBy,
    h.sponsoredSigners]
  split <;> abel

theorem countersOnly_updatePreparedExtV2 (a : AccountEntry)
    {g : AccountEntryExtensionV2 → AccountEntryExtensionV2}
    (hg : ∀ x, (g x).signerSponsoringIDs = x.signerSponsoringIDs) :
    CountersOnly a (updatePreparedExtV2 g a) where
  accountID := rfl
  signers := rfl
  signersSponsoredBy B := by
    cases hx : a.extV2 <;>
      simp [updatePreparedExtV2, prepareAccountEntryExtensionV2, signersSponsoredBy, hx, hg,
        List.count_replicate]
  sponsoredSigners := by
    cases hx : a.extV2 <;>
      simp [updatePreparedExtV2, prepareAccountEntryExtensionV2, sponsoredSigners, hx, hg,
        List.countP_replicate]
  aligned h x hx := by
    simp only [updatePreparedExtV2, Option.mem_def, Option.some.injEq] at hx
    subst hx
    rw [hg]
    cases hx' : a.extV2 <;>
      simp_all [SignersAligned, prepareAccountEntryExtensionV2, updatePreparedExtV2]

theorem countersOnly_updateExtV2 {a a' : AccountEntry}
    {g : AccountEntryExtensionV2 → Except String AccountEntryExtensionV2}
    (hg : ∀ x x', g x = .ok x' → x'.signerSponsoringIDs = x.signerSponsoringIDs)
    (h : updateExtV2 g a = .ok a') : CountersOnly a a' := by
  cases hx : a.extV2 with
  | none =>
    simp only [updateExtV2, getAccountEntryExtensionV2, hx] at h
    cases h
  | some x =>
    simp only [updateExtV2, getAccountEntryExtensionV2, hx, Except.pure_eq_ok, Except.ok_bind,
      Except.bind_eq_ok] at h
    obtain ⟨x', hgx, hx'⟩ := h
    cases hx'
    have hids := hg x x' hgx
    exact ⟨rfl, rfl, fun B => by simp [signersSponsoredBy, hx, hids],
      by simp [sponsoredSigners, hx, hids], fun h y hy => by simp_all [SignersAligned]⟩

theorem countersOnly_numSubEntries (a : AccountEntry) (k : ℕ) :
    CountersOnly a { a with numSubEntries := k } :=
  ⟨rfl, rfl, fun _ => rfl, rfl, id⟩

/-! ### The ledger operations -/

/-- An entry with an account's key is that account's entry. -/
theorem data_of_key_account {e : LedgerEntry} {id : AccountID} (h : LedgerEntryKey e = .ACCOUNT id) :
    ∃ a, e.data = .ACCOUNT a ∧ a.accountID = id := by
  obtain ⟨data, ext⟩ := e
  cases data <;> simp_all [LedgerEntryKey]

theorem account_eq_ok {e : LedgerEntry} {a : AccountEntry} (h : e.account = .ok a) :
    e.data = .ACCOUNT a := by
  obtain ⟨data, ext⟩ := e
  cases data <;> simp_all [LedgerEntry.account]

namespace Ledger

variable {L L' : Ledger}

theorem mem_of_find {k : LedgerKey} {e : LedgerEntry} (h : L.find k = some e) :
    e ∈ L.entries ∧ LedgerEntryKey e = k :=
  KeyedList.mem_of_find_eq_some h

theorem find_of_mem {e : LedgerEntry} (h : e ∈ L.entries) : L.find (LedgerEntryKey e) = some e :=
  KeyedList.find_eq_some_of_mem L.nodup h

/-- Writing an entry back: what was found under its key is now the written entry. -/
theorem find_write_self {e e' : LedgerEntry} (he : e ∈ L.entries)
    (hk : LedgerEntryKey e = LedgerEntryKey e') : (L.write e').find (LedgerEntryKey e') = some e' := by
  refine KeyedList.find_eq_some_of_mem (L.write e').nodup ?_
  exact KeyedList.mem_replace.mpr (.inl ⟨rfl, e, he, hk⟩)

/-- Writing an entry back leaves the other keys alone. -/
theorem find_write_ne {e' : LedgerEntry} {k : LedgerKey} (hk : k ≠ LedgerEntryKey e') :
    (L.write e').find k = L.find k :=
  KeyedList.find_replace_ne L.entries hk

theorem total_write {e e' : LedgerEntry} (he : e ∈ L.entries)
    (hk : LedgerEntryKey e = LedgerEntryKey e') (A : AccountID) :
    total (L.write e').entries A + gap A e = total L.entries A + gap A e' :=
  KeyedList.sum_replace (gap A) L.nodup he hk

theorem total_create {e : LedgerEntry} (h : L.create e = .ok L') (A : AccountID) :
    total L'.entries A = total L.entries A + gap A e := by
  unfold create at h
  split at h
  · cases h
  · cases h
    simp only [total, List.map_cons, List.sum_cons]
    abel

theorem total_erase {k : LedgerKey} {e : LedgerEntry} (h : L.erase k = .ok L')
    (he : L.find k = some e) (A : AccountID) : total L'.entries A + gap A e = total L.entries A := by
  obtain ⟨hmem, rfl⟩ := mem_of_find he
  unfold erase at h
  split at h
  · cases h
    exact KeyedList.sum_erase (gap A) L.nodup hmem
  · cases h

theorem mem_create {e b : LedgerEntry} (h : L.create e = .ok L') (hb : b ∈ L'.entries) :
    b = e ∨ b ∈ L.entries := by
  unfold create at h
  split at h
  · cases h
  · cases h
    exact List.mem_cons.mp hb

theorem mem_erase {k : LedgerKey} {b : LedgerEntry} (h : L.erase k = .ok L') (hb : b ∈ L'.entries) :
    b ∈ L.entries := by
  unfold erase at h
  split at h
  · cases h
    exact (KeyedList.mem_erase.mp hb).1
  · cases h

theorem loadAccountEntry_eq_ok {id : AccountID} {e : LedgerEntry} (h : L.loadAccountEntry id = .ok e) :
    L.find (.ACCOUNT id) = some e := by
  unfold loadAccountEntry at h
  split at h
  · cases h
    assumption
  · cases h

theorem loadAccount_eq_ok {active : List AccountID} {id id' : AccountID}
    (h : L.loadAccount active id = .ok id') :
    id' = id ∧ id ∉ active ∧ ∃ e, L.find (.ACCOUNT id) = some e := by
  unfold loadAccount at h
  split at h
  · cases h
  · next hid =>
    obtain ⟨e, he, h'⟩ := Except.bind_eq_ok.mp h
    cases h'
    exact ⟨rfl, hid, e, loadAccountEntry_eq_ok he⟩

/-- The account of `id` replaced by `a'`, as `modifyAccount` writes it back. -/
def setAccount (L : Ledger) (id : AccountID) (a' : AccountEntry) : Ledger :=
  match L.find (.ACCOUNT id) with
  | some e => L.write { e with data := .ACCOUNT a' }
  | none => L

/-- **What `modifyAccount` does**: the account of `id` is loaded and written back
changed by `f`. -/
theorem modifyAccount_eq_ok {id : AccountID} {f : AccountEntry → Except String AccountEntry}
    (h : L.modifyAccount id f = .ok L') :
    ∃ e a a', L.find (.ACCOUNT id) = some e ∧ e.data = .ACCOUNT a ∧ a.accountID = id ∧
      f a = .ok a' ∧ L' = L.setAccount id a' := by
  obtain ⟨e, he, h⟩ := Except.bind_eq_ok.mp h
  obtain ⟨a, ha, h⟩ := Except.bind_eq_ok.mp h
  obtain ⟨a', hfa, h⟩ := Except.bind_eq_ok.mp h
  cases h
  have hfind := loadAccountEntry_eq_ok he
  obtain ⟨b, hb, hbid⟩ := data_of_key_account (mem_of_find hfind).2
  have hab : a = b := by
    simp only [LedgerEntry.account, hb] at ha
    exact (Except.ok.inj ha).symm
  subst hab
  exact ⟨e, a, a', hfind, hb, hbid, hfa, by simp [setAccount, hfind]⟩

section setAccount

variable {id : AccountID} {e : LedgerEntry} {a a' : AccountEntry}

theorem setAccount_of_find (hf : L.find (.ACCOUNT id) = some e) :
    L.setAccount id a' = L.write { e with data := .ACCOUNT a' } := by
  simp [setAccount, hf]

theorem find_setAccount_ne {k : LedgerKey} (hid : a'.accountID = id) (hk : k ≠ .ACCOUNT id) :
    (L.setAccount id a').find k = L.find k := by
  unfold setAccount
  split
  · exact find_write_ne (by simpa [LedgerEntryKey, hid] using hk)
  · rfl

theorem find_setAccount_self (hf : L.find (.ACCOUNT id) = some e) (hid : a'.accountID = id) :
    (L.setAccount id a').find (.ACCOUNT id) = some { e with data := .ACCOUNT a' } := by
  have hk : LedgerEntryKey { e with data := .ACCOUNT a' } = .ACCOUNT id := by
    simp [LedgerEntryKey, hid]
  obtain ⟨hmem, hkey⟩ := mem_of_find hf
  rw [setAccount_of_find hf, ← hk]
  exact find_write_self hmem (hkey.trans hk.symm)

/-- Erasing an account after writing over it: the write is lost. -/
theorem entries_erase_setAccount {id : AccountID} {a' : AccountEntry}
    (h : (L.setAccount id a').erase (.ACCOUNT id) = .ok L') (hid : a'.accountID = id) :
    L'.entries = KeyedList.erase LedgerEntryKey (.ACCOUNT id) L.entries := by
  unfold erase at h
  split at h
  · cases h
    unfold setAccount
    split
    · exact KeyedList.erase_replace_self _ (by simp [LedgerEntryKey, hid])
    · rfl
  · cases h

theorem total_erase_setAccount {id : AccountID} {a' : AccountEntry} {e : LedgerEntry}
    (h : (L.setAccount id a').erase (.ACCOUNT id) = .ok L') (hid : a'.accountID = id)
    (hf : L.find (.ACCOUNT id) = some e) (A : AccountID) :
    total L'.entries A + gap A e = total L.entries A := by
  obtain ⟨hmem, hkey⟩ := mem_of_find hf
  rw [total, entries_erase_setAccount h hid, ← hkey]
  exact KeyedList.sum_erase (gap A) L.nodup hmem

theorem mem_erase_setAccount {id : AccountID} {a' : AccountEntry} {b : LedgerEntry}
    (h : (L.setAccount id a').erase (.ACCOUNT id) = .ok L') (hid : a'.accountID = id)
    (hb : b ∈ L'.entries) : b ∈ L.entries := by
  rw [entries_erase_setAccount h hid] at hb
  exact (KeyedList.mem_erase.mp hb).1

/-- Writing an account back changes the sums by the gaps of its old and new entry. -/
theorem total_setAccount (hf : L.find (.ACCOUNT id) = some e) (hid : a'.accountID = id)
    (A : AccountID) :
    total (L.setAccount id a').entries A + gap A e =
      total L.entries A + gap A { e with data := .ACCOUNT a' } := by
  obtain ⟨hmem, hkey⟩ := mem_of_find hf
  rw [setAccount_of_find hf]
  exact total_write hmem (by rw [hkey]; simp [LedgerEntryKey, hid]) A

theorem mem_write {e' b : LedgerEntry} (hb : b ∈ (L.write e').entries) : b = e' ∨ b ∈ L.entries := by
  rcases KeyedList.mem_replace.mp hb with ⟨rfl, -⟩ | ⟨hb, -⟩
  · exact .inl rfl
  · exact .inr hb

/-- Writing back an aligned account keeps every entry well formed. -/
theorem wellFormed_setAccount (hL : ∀ b ∈ L.entries, WellFormed b)
    (hf : L.find (.ACCOUNT id) = some e) (ha' : SignersAligned a') :
    ∀ b ∈ (L.setAccount id a').entries, WellFormed b := by
  intro b hb
  rw [setAccount_of_find hf] at hb
  rcases mem_write hb with rfl | hb
  · -- the written entry is an account, so not a claimable balance
    refine ⟨fun x hx => ?_, fun hcb => ?_⟩
    · cases hx
      exact ha'
    · simp [LedgerEntry.isClaimableBalance] at hcb
  · exact hL b hb

/-- The account of `id`, as the helpers load it: `loadAccount(ltx, id).current().data.account()`. -/
def getAccount (L : Ledger) (id : AccountID) : Except String AccountEntry := do
  (← L.loadAccountEntry id).account

theorem getAccount_eq_ok (h : L.getAccount id = .ok a) :
    ∃ e, L.find (.ACCOUNT id) = some e ∧ e.data = .ACCOUNT a ∧ a.accountID = id := by
  obtain ⟨e, he, ha⟩ := Except.bind_eq_ok.mp h
  have hfind := loadAccountEntry_eq_ok he
  have hdata := account_eq_ok ha
  obtain ⟨b, hb, hbid⟩ := data_of_key_account (mem_of_find hfind).2
  rw [hb] at hdata
  cases hdata
  exact ⟨e, hfind, hb, hbid⟩

theorem getAccount_of_find (hf : L.find (.ACCOUNT id) = some e) (he : e.data = .ACCOUNT a) :
    L.getAccount id = .ok a := by
  simp [getAccount, loadAccountEntry, hf, LedgerEntry.account, he]

/-- `modifyAccount` through `getAccount`. -/
theorem modifyAccount_getAccount {f : AccountEntry → Except String AccountEntry}
    (h : L.modifyAccount id f = .ok L') :
    ∃ a a', L.getAccount id = .ok a ∧ f a = .ok a' ∧ L' = L.setAccount id a' := by
  obtain ⟨e, a, a', hf, he, -, hfa, rfl⟩ := modifyAccount_eq_ok h
  exact ⟨a, a', getAccount_of_find hf he, hfa, rfl⟩

theorem getAccount_setAccount_self (ha : L.getAccount id = .ok a) (hid : a'.accountID = a.accountID) :
    (L.setAccount id a').getAccount id = .ok a' := by
  obtain ⟨e, hf, -, haid⟩ := getAccount_eq_ok ha
  exact getAccount_of_find (find_setAccount_self hf (hid.trans haid)) rfl

theorem getAccount_setAccount_ne {id' : AccountID} (ha : L.getAccount id = .ok a)
    (hid : a'.accountID = a.accountID) (hne : id' ≠ id) :
    (L.setAccount id a').getAccount id' = L.getAccount id' := by
  obtain ⟨-, -, -, haid⟩ := getAccount_eq_ok ha
  have hk : LedgerKey.ACCOUNT id' ≠ .ACCOUNT id := by simpa using hne
  simp only [getAccount, loadAccountEntry, find_setAccount_ne (hid.trans haid) hk]

/-- Writing an account back changes the sums by the gaps of the account before and
after, with the extension it has. -/
theorem total_setAccount_gap (ha : L.getAccount id = .ok a) (hid : a'.accountID = a.accountID) :
    ∃ ext, ∀ A, total (L.setAccount id a').entries A + gap A ⟨.ACCOUNT a, ext⟩ =
      total L.entries A + gap A ⟨.ACCOUNT a', ext⟩ := by
  obtain ⟨e, hf, he, haid⟩ := getAccount_eq_ok ha
  refine ⟨e.ext, fun A => ?_⟩
  have h := total_setAccount hf (hid.trans haid) A
  rwa [show e = ⟨.ACCOUNT a, e.ext⟩ by rw [← he]] at h

theorem aligned_of_getAccount (hL : ∀ b ∈ L.entries, WellFormed b) (ha : L.getAccount id = .ok a) :
    SignersAligned a := by
  obtain ⟨e, hf, he, -⟩ := getAccount_eq_ok ha
  exact (hL e (mem_of_find hf).1).1 a he

theorem wellFormed_setAccount_of_getAccount (hL : ∀ b ∈ L.entries, WellFormed b)
    (ha : L.getAccount id = .ok a) (ha' : SignersAligned a') :
    ∀ b ∈ (L.setAccount id a').entries, WellFormed b := by
  obtain ⟨e, hf, -, -⟩ := getAccount_eq_ok ha
  exact wellFormed_setAccount hL hf ha'

end setAccount

end Ledger

/-! ### The invariant counts every account -/

theorem total_eq (es : List LedgerEntry) (A : AccountID) :
    total es A = (es.map (stored A)).sum - (es.map (counted A)).sum := by
  induction es with
  | nil => simp [total]
  | cons e es ih =>
    simp only [total, List.map_cons, List.sum_cons] at ih ⊢
    rw [ih, gap]
    abel

theorem sum_counted (es : List LedgerEntry) (A : AccountID) :
    (es.map (counted A)).sum = (((es.map (sponsoringCount A)).sum : ℤ),
      ((es.map (sponsoredCount A)).sum : ℤ), ((es.map (subEntryCount A)).sum : ℤ)) := by
  induction es with
  | nil => rfl
  | cons e es ih =>
    simp only [List.map_cons, List.sum_cons, ih, counted, Prod.mk_add_mk, Nat.cast_add]

/-- Only `A`'s account entry stores anything for `A`. -/
theorem stored_of_key_ne {A : AccountID} {e : LedgerEntry} (h : LedgerEntryKey e ≠ .ACCOUNT A) :
    stored A e = 0 := by
  obtain ⟨data, ext⟩ := e
  cases data with
  | ACCOUNT a =>
    have : a.accountID ≠ A := fun h' => h (by simp [LedgerEntryKey, h'])
    simp [stored, this]
  | _ => rfl

/-- In a ledger, what is stored for an account's ID is that account's counters: no
other entry has its key. -/
theorem sum_stored {L : Ledger} {e : LedgerEntry} {a : AccountEntry} (he : e ∈ L.entries)
    (hdata : e.data = .ACCOUNT a) : (L.entries.map (stored a.accountID)).sum = storedCounters a := by
  have hkey : LedgerEntryKey e = .ACCOUNT a.accountID := by simp [LedgerEntryKey, hdata]
  have hrest : ((KeyedList.erase LedgerEntryKey (LedgerEntryKey e) L.entries).map
      (stored a.accountID)).sum = 0 := by
    refine List.sum_eq_zero fun x hx => ?_
    obtain ⟨b, hb, rfl⟩ := List.mem_map.mp hx
    exact stored_of_key_ne (hkey ▸ (KeyedList.mem_erase.mp hb).2)
  rw [← KeyedList.sum_erase (stored a.accountID) L.nodup he, hrest, zero_add]
  simp [stored, hdata]

theorem mem_accounts {es : List LedgerEntry} {a : AccountEntry} (ha : a ∈ accounts es) :
    ∃ e ∈ es, e.data = .ACCOUNT a := by
  obtain ⟨e, he, hea⟩ := List.mem_filterMap.mp ha
  refine ⟨e, he, ?_⟩
  split at hea
  · next b hb =>
    cases hea
    exact hb
  · cases hea

/-- **The invariant counts every account**: balanced at an account's ID, the gaps say
that its counters are the sums `Counted` asks for. -/
theorem Inv.counted {L : Ledger} (h : Inv L) : Counted L := by
  intro a ha
  obtain ⟨e, he, hdata⟩ := mem_accounts ha
  have hbal := h.balanced a.accountID
  rw [total_eq, sum_stored he hdata, sub_eq_zero, sum_counted] at hbal
  simp only [storedCounters, Prod.mk.injEq, Nat.cast_inj] at hbal
  exact ⟨hbal.1, hbal.2.1, hbal.2.2, (h.wellFormed e he).1 a hdata⟩

/-! ### The view of a helper

A helper works on the entry the caller holds and on the ledger; `Ltx.total` sums the
gaps over both, and a reference's account is replaced by `Ltx.setAccount`. -/

namespace Ltx

/-- The gaps of `A` over the ledger and the entry the caller holds. -/
def total (w : Ltx) (A : AccountID) : ℤ × ℤ × ℤ := Sponsorship.total w.ledger.entries A + gap A w.le

/-- The account a reference names. -/
def refID (w : Ltx) : EntryRef → Option AccountID
  | .le => match w.le.data with
    | .ACCOUNT a => some a.accountID
    | _ => none
  | .account id => some id

/-- The account a reference points to replaced by `a'`. -/
def setAccount (w : Ltx) : EntryRef → AccountEntry → Ltx
  | .le, a' => { w with le := { w.le with data := .ACCOUNT a' } }
  | .account id, a' => { w with ledger := w.ledger.setAccount id a' }

variable {w w' : Ltx} {r r' : EntryRef} {a a' : AccountEntry}

theorem getAccount_le_eq_ok : w.getAccount .le = .ok a ↔ w.le.data = .ACCOUNT a := by
  constructor
  · exact account_eq_ok
  · intro h
    simp [getAccount, load, LedgerEntry.account, h]

theorem getAccount_account_eq_ok {id : AccountID} (h : w.getAccount (.account id) = .ok a) :
    ∃ e, w.ledger.find (.ACCOUNT id) = some e ∧ e.data = .ACCOUNT a ∧ a.accountID = id := by
  obtain ⟨e, he, ha⟩ := Except.bind_eq_ok.mp h
  have hfind := Ledger.loadAccountEntry_eq_ok he
  have hdata := account_eq_ok ha
  obtain ⟨b, hb, hbid⟩ := data_of_key_account (Ledger.mem_of_find hfind).2
  rw [hb] at hdata
  cases hdata
  exact ⟨e, hfind, hb, hbid⟩

theorem getAccount_of_find {id : AccountID} {e : LedgerEntry}
    (hf : w.ledger.find (.ACCOUNT id) = some e) (he : e.data = .ACCOUNT a) :
    w.getAccount (.account id) = .ok a := by
  simp [getAccount, load, Ledger.loadAccountEntry, hf, LedgerEntry.account, he]

/-- A reference that loads names its account's ID. -/
theorem refID_of_getAccount (h : w.getAccount r = .ok a) : w.refID r = some a.accountID := by
  cases r with
  | le => simp [refID, getAccount_le_eq_ok.mp h]
  | account id =>
    obtain ⟨-, -, -, hid⟩ := getAccount_account_eq_ok h
    simp [refID, hid]

/-- **What `modifyAccount` does**, through a reference. -/
theorem modifyAccount_eq_ok {f : AccountEntry → Except String AccountEntry}
    (h : w.modifyAccount r f = .ok w') :
    ∃ a a', w.getAccount r = .ok a ∧ f a = .ok a' ∧ w' = w.setAccount r a' := by
  cases r with
  | le =>
    obtain ⟨a, ha, h⟩ := Except.bind_eq_ok.mp h
    obtain ⟨a', hfa, h⟩ := Except.bind_eq_ok.mp h
    cases h
    exact ⟨a, a', ha, hfa, rfl⟩
  | account id =>
    obtain ⟨L, hL, h⟩ := Except.bind_eq_ok.mp h
    cases h
    obtain ⟨e, a, a', hf, he, -, hfa, rfl⟩ := Ledger.modifyAccount_eq_ok hL
    exact ⟨a, a', getAccount_of_find hf he, hfa, rfl⟩

@[simp] theorem setAccount_account_le (id : AccountID) : (w.setAccount (.account id) a').le = w.le :=
  rfl

@[simp] theorem setAccount_le_ledger : (w.setAccount .le a').ledger = w.ledger := rfl

theorem getAccount_setAccount_self (ha : w.getAccount r = .ok a) (hid : a'.accountID = a.accountID) :
    (w.setAccount r a').getAccount r = .ok a' := by
  cases r with
  | le => exact getAccount_le_eq_ok.mpr rfl
  | account id =>
    obtain ⟨e, hf, -, haid⟩ := getAccount_account_eq_ok ha
    exact getAccount_of_find (Ledger.find_setAccount_self hf (hid.trans haid)) rfl

/-- The other references load what they loaded before. -/
theorem getAccount_setAccount_ne (ha : w.getAccount r = .ok a) (hid : a'.accountID = a.accountID)
    (hne : r' ≠ r) : (w.setAccount r a').getAccount r' = w.getAccount r' := by
  cases r with
  | le =>
    cases r' with
    | le => exact absurd rfl hne
    | account id' => rfl
  | account id =>
    obtain ⟨e, hf, -, haid⟩ := getAccount_account_eq_ok ha
    cases r' with
    | le => rfl
    | account id' =>
      have hk : LedgerKey.ACCOUNT id' ≠ .ACCOUNT id := by
        simpa using hne
      simp only [getAccount, load, setAccount, Ledger.loadAccountEntry,
        Ledger.find_setAccount_ne (hid.trans haid) hk]

theorem refID_setAccount (ha : w.getAccount r = .ok a) (hid : a'.accountID = a.accountID) :
    (w.setAccount r a').refID = w.refID := by
  funext r'
  cases r with
  | account id => rfl
  | le =>
    cases r' with
    | account id' => rfl
    | le => simp [refID, getAccount_le_eq_ok.mp ha, setAccount, hid]

/-- The ledger keeps every key but the written account's. -/
theorem find_setAccount_ne {k : LedgerKey} (ha : w.getAccount r = .ok a)
    (hid : a'.accountID = a.accountID) (hk : ∀ id, r = .account id → k ≠ .ACCOUNT id) :
    (w.setAccount r a').ledger.find k = w.ledger.find k := by
  cases r with
  | le => rfl
  | account id =>
    obtain ⟨-, -, -, haid⟩ := getAccount_account_eq_ok ha
    exact Ledger.find_setAccount_ne (hid.trans haid) (hk id rfl)

/-- **Changing the counters of a reference's account** changes the sums by the change of
its counters, for its own ID only. -/
theorem total_setAccount (ha : w.getAccount r = .ok a) (hc : CountersOnly a a') (A : AccountID) :
    (w.setAccount r a').total A =
      w.total A + if a.accountID = A then storedCounters a' - storedCounters a else 0 := by
  cases r with
  | le =>
    have hle : w.le = ⟨.ACCOUNT a, w.le.ext⟩ := by
      rw [← getAccount_le_eq_ok.mp ha]
    simp only [total, setAccount]
    rw [gap_of_countersOnly hc, ← hle]
    abel
  | account id =>
    obtain ⟨e, hf, he, haid⟩ := getAccount_account_eq_ok ha
    have he' : e = ⟨.ACCOUNT a, e.ext⟩ := by
      rw [← he]
    have h1 := Ledger.total_setAccount hf (hc.accountID.trans haid) A
    rw [show ({ e with data := .ACCOUNT a' } : LedgerEntry) = ⟨.ACCOUNT a', e.ext⟩ from rfl,
      gap_of_countersOnly hc, ← he'] at h1
    simp only [total, setAccount]
    rw [eq_sub_of_add_eq h1]
    abel

/-- `total_setAccount` for a change that lowers the counters. -/
theorem total_setAccount_sub (ha : w.getAccount r = .ok a) (hc : CountersOnly a a')
    (A : AccountID) :
    (w.setAccount r a').total A + (if a.accountID = A then storedCounters a - storedCounters a' else 0) =
      w.total A := by
  rw [total_setAccount ha hc]
  by_cases hA : a.accountID = A
  · simp only [if_pos hA]
    abel
  · simp only [if_neg hA, add_zero]

end Ltx

end Sponsorship

end HcnetCore
