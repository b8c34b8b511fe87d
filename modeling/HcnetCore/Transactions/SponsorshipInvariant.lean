import HcnetCore.Transactions.SponsorshipSpec

/-!
# The sponsorship counters across the operations

The callers of the helpers of `SponsorshipUtils`: the operations that create or remove an
entry or a signer, and the three branches of `RevokeSponsorshipOpFrame` for entries and
for signers. Each keeps `Inv` (the gaps of every account ID add up to zero, and every
entry is well formed) when the operation calls it as the operations of the source do:
a created entry is new, a removed account has already lost its signers and
subentries, and a new signer goes at a position of the signer list. `Inv.counted` then
gives `Counted` after every call.

Each proof reads the caller's `do` block down to the helper it runs, applies the helper's
spec of `SponsorshipSpec`, and closes the ledger step (`create`, `write`, `erase`) with the
totals of `SponsorshipCounts`.
-/

namespace HcnetCore

namespace Sponsorship

open Ltx

/-! ### What the checks establish -/

theorem canRemoveEntryWithSponsorship_eq_ok {lh : LedgerHeader} {le : LedgerEntry}
    {sp : AccountEntry} {sdo : Option LedgerEntry} {u : Unit}
    (h : canRemoveEntryWithSponsorship lh le sp sdo = .ok u) :
    multiplier le.data ≤ getNumSponsoring sp ∧ ∀ s ∈ sdo, ∀ a, s.account = .ok a →
      multiplier le.data ≤ getNumSponsored a ∧
        (le.isAccount = false → multiplier le.data ≤ a.numSubEntries) := by
  unfold canRemoveEntryWithSponsorship at h
  simp only at h
  obtain ⟨-, h⟩ := Except.guard_eq_ok h
  obtain ⟨m, hm, h⟩ := Except.bind_eq_ok.mp h
  obtain ⟨hsp, h⟩ := Except.guard_eq_ok h
  obtain ⟨-, h⟩ := Except.guard_eq_ok h
  obtain rfl := computeMultiplier_eq_ok hm
  refine ⟨Nat.le_of_not_lt hsp, fun s hs a ha => ?_⟩
  obtain rfl : sdo = some s := hs
  obtain ⟨a', ha', h⟩ := Except.bind_eq_ok.mp h
  obtain rfl := Except.ok.inj (ha.symm.trans ha')
  split at h
  · cases h
  · next hc =>
    simp only [Bool.or_eq_true, Bool.and_eq_true, Bool.not_eq_true', decide_eq_true_eq, not_or,
      not_and, not_lt] at hc
    exact ⟨hc.2, hc.1⟩

theorem canRemoveEntryWithoutSponsorship_eq_ok {le : LedgerEntry} {a : AccountEntry} {u : Unit}
    (h : canRemoveEntryWithoutSponsorship le a = .ok u) (hacc : le.isAccount = false) :
    multiplier le.data ≤ a.numSubEntries := by
  unfold canRemoveEntryWithoutSponsorship at h
  rw [if_pos (by simp [hacc])] at h
  obtain ⟨m, hm, h⟩ := Except.bind_eq_ok.mp h
  obtain rfl := computeMultiplier_eq_ok hm
  split at h
  · cases h
  · omega

theorem canRemoveSponsorshipHelper_eq_ok {lh : LedgerHeader} {sp : AccountEntry}
    {sdo : Option AccountEntry} {mult : ℕ} {r : SponsorshipResult}
    (h : canRemoveSponsorshipHelper lh sp sdo mult = .ok r) :
    mult ≤ getNumSponsoring sp ∧ ∀ a ∈ sdo, mult ≤ getNumSponsored a := by
  unfold canRemoveSponsorshipHelper at h
  simp only at h
  obtain ⟨h1, h⟩ := Except.guard_eq_ok h
  obtain ⟨h2, -⟩ := Except.guard_eq_ok h
  refine ⟨Nat.le_of_not_lt h1, fun a ha => ?_⟩
  obtain rfl : sdo = some a := ha
  simpa using h2

theorem canEstablishEntrySponsorship_eq_ok {lh : LedgerHeader} {le : LedgerEntry}
    {sp : AccountEntry} {sdo : Option AccountEntry} {r : SponsorshipResult}
    (h : canEstablishEntrySponsorship lh le sp sdo = .ok r) : le.sponsoringID = none := by
  unfold canEstablishEntrySponsorship at h
  simp only at h
  obtain ⟨-, h⟩ := Except.guard_eq_ok h
  obtain ⟨h1, -⟩ := Except.guard_eq_ok h
  simpa using h1

theorem canRemoveEntrySponsorship_eq_ok {lh : LedgerHeader} {le : LedgerEntry}
    {sp : AccountEntry} {sdo : Option AccountEntry} {r : SponsorshipResult}
    (h : canRemoveEntrySponsorship lh le sp sdo = .ok r) :
    multiplier le.data ≤ getNumSponsoring sp ∧ ∀ a ∈ sdo, multiplier le.data ≤ getNumSponsored a := by
  unfold canRemoveEntrySponsorship at h
  simp only at h
  obtain ⟨-, h⟩ := Except.guard_eq_ok h
  obtain ⟨-, h⟩ := Except.guard_eq_ok h
  obtain ⟨u, -, h⟩ := Except.bind_eq_ok.mp h
  obtain ⟨m, hm, h⟩ := Except.bind_eq_ok.mp h
  obtain rfl := computeMultiplier_eq_ok hm
  exact canRemoveSponsorshipHelper_eq_ok h

theorem canTransferEntrySponsorship_eq_ok {lh : LedgerHeader} {le : LedgerEntry}
    {old new : AccountEntry} {r : SponsorshipResult}
    (h : canTransferEntrySponsorship lh le old new = .ok r) :
    multiplier le.data ≤ getNumSponsoring old := by
  unfold canTransferEntrySponsorship at h
  simp only at h
  obtain ⟨-, h⟩ := Except.guard_eq_ok h
  obtain ⟨-, h⟩ := Except.guard_eq_ok h
  obtain ⟨u, -, h⟩ := Except.bind_eq_ok.mp h
  obtain ⟨m, hm, h⟩ := Except.bind_eq_ok.mp h
  obtain rfl := computeMultiplier_eq_ok hm
  unfold canTransferSponsorshipHelper at h
  obtain ⟨r', hr', -⟩ := Except.bind_eq_ok.mp h
  exact (canRemoveSponsorshipHelper_eq_ok hr').1

/-- A signer that `isSignerSponsored` finds unsponsored exists and has no sponsor in the
prepared extension. -/
theorem isSignerSponsored_eq_notSponsored {n : ℕ} {sp a : AccountEntry}
    (h : isSignerSponsored n sp a = .ok .NOT_SPONSORED) :
    (prepareAccountEntryExtensionV2 a).signerSponsoringIDs[n]? = some none := by
  unfold isSignerSponsored at h
  split at h
  · cases h
  · next hn =>
    cases hx : a.extV2 with
    | none => simp [prepareAccountEntryExtensionV2, hx, Nat.lt_of_not_le hn]
    | some x =>
      simp only [hx] at h
      obtain ⟨sid, hsid, h⟩ := Except.bind_eq_ok.mp h
      cases sid with
      | none => simpa [prepareAccountEntryExtensionV2, hx] using vectorAt_eq_ok hsid
      | some s =>
        obtain ⟨u, -, h⟩ := Except.bind_eq_ok.mp h
        cases h

theorem canEstablishSignerSponsorship_eq_ok {lh : LedgerHeader} {n : ℕ} {sp a : AccountEntry}
    {r : SponsorshipResult} (h : canEstablishSignerSponsorship lh n sp a = .ok r) :
    (prepareAccountEntryExtensionV2 a).signerSponsoringIDs[n]? = some none := by
  unfold canEstablishSignerSponsorship at h
  simp only at h
  obtain ⟨-, h⟩ := Except.guard_eq_ok h
  obtain ⟨res, hres, h⟩ := Except.bind_eq_ok.mp h
  obtain ⟨hns, -⟩ := Except.guard_eq_ok h
  exact isSignerSponsored_eq_notSponsored (by simpa using hres.trans (congrArg _ (not_not.mp hns)))

theorem canCreateSignerWithSponsorship_eq_ok {lh : LedgerHeader} {n : ℕ} {sp a : AccountEntry}
    (h : canCreateSignerWithSponsorship lh n sp a = .ok .SUCCESS) :
    (prepareAccountEntryExtensionV2 a).signerSponsoringIDs[n]? = some none := by
  unfold canCreateSignerWithSponsorship at h
  simp only at h
  obtain ⟨-, h⟩ := Except.guard_eq_ok h
  split at h
  · cases h
  · exact canEstablishSignerSponsorship_eq_ok h

theorem canRemoveSignerWithSponsorship_eq_ok {lh : LedgerHeader} {sp a : AccountEntry} {u : Unit}
    (h : canRemoveSignerWithSponsorship lh sp a = .ok u) :
    1 ≤ getNumSponsoring sp ∧ 1 ≤ a.numSubEntries ∧ 1 ≤ getNumSponsored a := by
  unfold canRemoveSignerWithSponsorship at h
  simp only at h
  obtain ⟨-, h⟩ := Except.guard_eq_ok h
  obtain ⟨h1, h⟩ := Except.guard_eq_ok h
  split at h
  · cases h
  · next h2 =>
    simp only [Bool.or_eq_true, decide_eq_true_eq, not_or, not_lt] at h2
    exact ⟨Nat.le_of_not_lt h1, h2⟩

theorem canRemoveSignerWithoutSponsorship_eq_ok {a : AccountEntry} {u : Unit}
    (h : canRemoveSignerWithoutSponsorship a = .ok u) : 1 ≤ a.numSubEntries := by
  unfold canRemoveSignerWithoutSponsorship at h
  split at h
  · cases h
  · omega

theorem canRemoveSignerSponsorship_eq_ok {lh : LedgerHeader} {n : ℕ} {sp a : AccountEntry}
    {r : SponsorshipResult} (h : canRemoveSignerSponsorship lh n sp a = .ok r) :
    1 ≤ getNumSponsoring sp ∧ 1 ≤ getNumSponsored a := by
  unfold canRemoveSignerSponsorship at h
  simp only at h
  obtain ⟨-, h⟩ := Except.guard_eq_ok h
  obtain ⟨res, -, h⟩ := Except.bind_eq_ok.mp h
  obtain ⟨-, h⟩ := Except.guard_eq_ok h
  obtain ⟨h1, h2⟩ := canRemoveSponsorshipHelper_eq_ok h
  exact ⟨h1, h2 a rfl⟩

theorem canTransferSignerSponsorship_eq_ok {lh : LedgerHeader} {n : ℕ} {old new a : AccountEntry}
    {r : SponsorshipResult} (h : canTransferSignerSponsorship lh n old new a = .ok r) :
    1 ≤ getNumSponsoring old := by
  unfold canTransferSignerSponsorship at h
  simp only at h
  obtain ⟨-, h⟩ := Except.guard_eq_ok h
  obtain ⟨res, -, h⟩ := Except.bind_eq_ok.mp h
  obtain ⟨-, h⟩ := Except.guard_eq_ok h
  unfold canTransferSponsorshipHelper at h
  obtain ⟨r', hr', -⟩ := Except.bind_eq_ok.mp h
  exact (canRemoveSponsorshipHelper_eq_ok hr').1

/-! ### New entries -/

/-- An entry as an operation creates it: no sponsor yet; a new account has no signers,
no subentries and no extension v2; a trustline, an offer or a data entry belongs to the
operation's account; liquidity pools are not created through the sponsorship helpers. -/
def NewEntry (le : LedgerEntry) (acc : Option AccountID) : Prop :=
  le.sponsoringID = none ∧
    match le.data with
    | .ACCOUNT a => a.signers = [] ∧ a.numSubEntries = 0 ∧ a.extV2 = none
    | .LIQUIDITY_POOL _ => False
    | .CLAIMABLE_BALANCE .. => True
    | d => owner d = acc

/-- An entry other than an account, with no sponsor, counts nothing but its reserve in
its owner's `numSubEntries`. -/
theorem gap_unsponsored {e : LedgerEntry} (hs : e.sponsoringID = none) (he : e.isAccount = false)
    (A : AccountID) : gap A e + subEntryReserve A e.data = 0 := by
  obtain ⟨data, ext⟩ := e
  cases data with
  | ACCOUNT a => cases he
  | _ =>
    simp only [gap, stored, counted, sponsoringCount, sponsoredCount, subEntryCount, subEntryReserve,
      hs]
    split_ifs <;> simp_all

/-- A new entry counts nothing but its reserve in its owner's `numSubEntries`. -/
theorem gap_new {le : LedgerEntry} {acc : Option AccountID} (h : NewEntry le acc) (A : AccountID) :
    gap A le + subEntryReserve A le.data = 0 := by
  obtain ⟨hs, hd⟩ := h
  obtain ⟨data, ext⟩ := le
  cases data with
  | ACCOUNT a =>
    obtain ⟨hsig, hsub, hx⟩ := hd
    simp [gap, stored, counted, sponsoringCount, sponsoredCount, subEntryCount, storedCounters,
      getNumSponsoring, getNumSponsored, signersSponsoredBy, sponsoredSigners, subEntryReserve,
      subentry, hs, hsig, hsub, hx]
    split_ifs <;> rfl
  | _ => exact gap_unsponsored hs rfl A

/-- The reserve an entry takes from its owner's `numSubEntries` depends on its key only. -/
theorem subEntryReserve_eq_of_key {e e' : LedgerEntry} (h : LedgerEntryKey e = LedgerEntryKey e')
    (A : AccountID) : subEntryReserve A e.data = subEntryReserve A e'.data := by
  obtain ⟨d, x⟩ := e
  obtain ⟨d', x'⟩ := e'
  cases d <;> cases d' <;> simp_all [LedgerEntryKey, subEntryReserve, owner, subentry]

variable {w w' : Ltx}

/-- The account whose reserve a new entry takes, as `createEntryWithPossibleSponsorship`
finds it, is the entry's owner. -/
theorem refID_sponsoredRef {acc : Option AccountID} {sr : EntryRef} (hnew : NewEntry w.le acc)
    (hsr : (if w.le.isAccount = true then pure EntryRef.le else accHandle acc) = .ok sr) :
    (if w.le.isClaimableBalance = true then none else some sr).bind w.refID = owner w.le.data := by
  obtain ⟨⟨data, ext⟩, L⟩ := w
  obtain ⟨-, hd⟩ := hnew
  cases data with
  | ACCOUNT a =>
    cases hsr
    rfl
  | CLAIMABLE_BALANCE => rfl
  | LIQUIDITY_POOL => exact hd.elim
  | _ =>
    -- a subentry's reserve is taken from the operation's account, its owner
    cases acc with
    | none => cases hsr
    | some id =>
      cases hsr
      exact hd.symm

/-- The last step of a helper that looks for a sponsor: the result of the checks decides
whether the helper runs. -/
theorem eq_ok_of_success {α : Type} {x : Except String α} {v v' : α} {r res : SponsorshipResult}
    (h : (if r = .SUCCESS then (do let v2 ← x; pure (r, v2)) else pure (r, v)) = .ok (res, v'))
    (hres : res = .SUCCESS) : x = .ok v' := by
  split at h
  · obtain ⟨v2, hv2, h⟩ := Except.bind_eq_ok.mp h
    obtain ⟨-, rfl⟩ := Prod.mk.inj (Except.ok.inj h)
    exact hv2
  · obtain ⟨rfl, -⟩ := Prod.mk.inj (Except.ok.inj h)
    contradiction

theorem createEntryWithPossibleSponsorship_spec {lh : LedgerHeader} {acc : Option AccountID}
    {res : SponsorshipResult} (h : createEntryWithPossibleSponsorship lh w acc = .ok (res, w'))
    (hnew : NewEntry w.le acc) (hres : res = .SUCCESS) :
    (∀ A, w'.total A = w.total A + subEntryReserve A w.le.data) ∧ (∃ ids, Frame ids w w') ∧
      (w'.le.isClaimableBalance = true → w'.le.sponsoringID.isSome = true) := by
  unfold createEntryWithPossibleSponsorship at h
  simp only at h
  obtain ⟨sr, hsr, h⟩ := Except.ite_bind_eq_ok h
  obtain ⟨sa, -, h⟩ := Except.bind_eq_ok.mp h
  have hsd := refID_sponsoredRef hnew hsr
  split at h
  · -- a sponsorship of future reserves: the sponsor pays
    obtain ⟨S, -, h⟩ := Except.bind_eq_ok.mp h
    obtain ⟨sp, -, h⟩ := Except.bind_eq_ok.mp h
    obtain ⟨osa, -, h⟩ := Except.bind_eq_ok.mp h
    obtain ⟨r, -, h⟩ := Except.bind_eq_ok.mp h
    obtain ⟨htot, hs, hframe⟩ :=
      createEntryWithSponsorship_spec (eq_ok_of_success h hres) hnew.1 hsd
    exact ⟨htot, ⟨_, hframe⟩, fun _ => by simp [hs]⟩
  · split at h
    · -- a claimable balance: the operation's account sponsors it
      next hcb =>
      obtain ⟨accRef, hacc, h⟩ := Except.bind_eq_ok.mp h
      obtain ⟨sp, -, h⟩ := Except.bind_eq_ok.mp h
      obtain ⟨r, -, h⟩ := Except.bind_eq_ok.mp h
      rw [hcb] at hsd
      cases acc with
      | none => cases hacc
      | some S =>
        cases hacc
        obtain ⟨htot, hs, hframe⟩ :=
          createEntryWithSponsorship_spec (eq_ok_of_success h hres) hnew.1 hsd
        exact ⟨htot, ⟨_, hframe⟩, fun _ => by simp [hs]⟩
    · -- no sponsor: the entry's owner pays
      next r' hsome =>
      obtain ⟨a, -, h⟩ := Except.bind_eq_ok.mp h
      obtain ⟨r, -, h⟩ := Except.bind_eq_ok.mp h
      rw [hsome] at hsd
      obtain ⟨htot, hle, hframe⟩ :=
        createEntryWithoutSponsorship_spec (eq_ok_of_success h hres) fun _ => hsd
      refine ⟨htot, ⟨_, hframe⟩, fun hcb => ?_⟩
      rw [hle] at hcb
      simp [hcb] at hsome


theorem aligned_of_new {le : LedgerEntry} {acc : Option AccountID} (hnew : NewEntry le acc) :
    ∀ a, le.data = .ACCOUNT a → SignersAligned a := by
  intro a ha x hx
  obtain ⟨-, hd⟩ := hnew
  rw [ha] at hd
  rw [hd.2.2] at hx
  cases hx

/-- **Creating an entry keeps the invariant.** -/
theorem createEntry_inv {lh : LedgerHeader} {L L' : Ledger} {le : LedgerEntry}
    {acc : Option AccountID} (h : createEntry lh L le acc = .ok L') (hL : Inv L)
    (hnew : NewEntry le acc) : Inv L' := by
  unfold createEntry at h
  obtain ⟨⟨res, w'⟩, hw, h⟩ := Except.bind_eq_ok.mp h
  simp only at h
  split at h
  · next hres =>
    obtain ⟨htot, ⟨ids, hframe⟩, hcb⟩ := createEntryWithPossibleSponsorship_spec hw hnew hres
    refine ⟨fun A => ?_, fun b hb => ?_⟩
    · calc total L'.entries A = w'.total A := Ledger.total_create h A
        _ = Ltx.total ⟨le, L⟩ A + subEntryReserve A le.data := htot A
        _ = 0 := by rw [Ltx.total, hL.balanced, zero_add, gap_new hnew]
    · rcases Ledger.mem_create h hb with rfl | hb
      · exact ⟨hframe.aligned (aligned_of_new hnew), hcb⟩
      · exact hframe.wellFormed hL.wellFormed b hb
  · cases h
    exact hL


/-! ### Removed entries -/

/-- An entry as an operation removes it through `removeEntryWithPossibleSponsorship` with
its account `acc`: a trustline, an offer or a data entry of `acc`, a claimable balance, or
the account `acc` itself, once `AccountMerge` has removed its signers and found that it
has no subentries and sponsors nothing. Liquidity pools go without the helpers. -/
def RemovableEntry (le : LedgerEntry) (acc : AccountID) : Prop :=
  match le.data with
  | .ACCOUNT a => a.accountID = acc ∧ a.signers = [] ∧ a.numSubEntries = 0 ∧ getNumSponsoring a = 0
  | .LIQUIDITY_POOL _ => False
  | .CLAIMABLE_BALANCE .. => True
  | d => owner d = some acc

/-- `removeEntryWithSponsorship` after the check `canRemoveEntryWithSponsorship` passed on
the accounts it names. -/
theorem removeEntryWithSponsorship_of_check {lh : LedgerHeader} {S : AccountID}
    {sd : Option EntryRef} {sp : AccountEntry} {sdo : Option LedgerEntry} {u : Unit}
    (h : removeEntryWithSponsorship w (.account S) sd = .ok w')
    (hsp : w.getAccount (.account S) = .ok sp) (hsdo : sd.mapM w.load = .ok sdo)
    (hcheck : canRemoveEntryWithSponsorship lh w.le sp sdo = .ok u)
    (hcb : ∀ r ∈ sd, w.le.isClaimableBalance = false) (hsd : sd.bind w.refID = owner w.le.data)
    (hne : ∀ r ∈ sd, r ≠ .account S) :
    (∀ A, w'.total A + subEntryReserve A w.le.data = w.total A) ∧ w'.le.sponsoringID = none ∧
      ∃ ids, Frame ids w w' := by
  obtain ⟨hnum, hsdo'⟩ := canRemoveEntryWithSponsorship_eq_ok hcheck
  have hsd' : ∀ r ∈ sd, ∀ a, w.getAccount r = .ok a → multiplier w.le.data ≤ getNumSponsored a ∧
      (w.le.isAccount = false → multiplier w.le.data ≤ a.numSubEntries) := by
    intro r hr a ha
    obtain rfl : sd = some r := hr
    obtain ⟨s, hs, ha⟩ := Except.bind_eq_ok.mp ha
    simp only [Option.mapM_some, hs] at hsdo
    exact hsdo' s (Except.ok.inj hsdo).symm a ha
  obtain ⟨htot, -, hnone, hframe⟩ := removeEntryWithSponsorship_spec h hcb hsd
    (fun a ha => (Except.ok.inj (hsp.symm.trans ha)) ▸ hnum) hsd' hne
  exact ⟨htot, hnone, _, hframe⟩


theorem owner_of_removable {le : LedgerEntry} {acc : AccountID} (hrem : RemovableEntry le acc)
    (hacc : le.isAccount = false) (hcb : le.isClaimableBalance = false) : owner le.data = some acc := by
  obtain ⟨data, ext⟩ := le
  cases data with
  | ACCOUNT => cases hacc
  | CLAIMABLE_BALANCE => cases hcb
  | LIQUIDITY_POOL => exact hrem.elim
  | _ => exact hrem

theorem owner_of_isClaimableBalance {le : LedgerEntry} (hcb : le.isClaimableBalance = true) :
    owner le.data = none := by
  obtain ⟨data, ext⟩ := le
  cases data <;> first | rfl | cases hcb

theorem removeEntryWithPossibleSponsorship_spec {lh : LedgerHeader} {acc : AccountID}
    (h : removeEntryWithPossibleSponsorship lh w acc = .ok w') (hrem : RemovableEntry w.le acc)
    (hacc : w.le.isAccount = false)
    (hcbs : w.le.isClaimableBalance = true → w.le.sponsoringID.isSome = true) :
    (∀ A, w'.total A + subEntryReserve A w.le.data = w.total A) ∧ w'.le.sponsoringID = none ∧
      ∃ ids, Frame ids w w' := by
  unfold removeEntryWithPossibleSponsorship at h
  split at h
  · next S hS =>
    obtain ⟨a, ha, h⟩ := Except.bind_eq_ok.mp h
    split at h
    · -- the operation's account sponsors the entry: only a claimable balance
      simp only at h
      obtain ⟨hcb, h⟩ := Except.guard_eq_ok h
      obtain ⟨a2, ha2, h⟩ := Except.bind_eq_ok.mp h
      obtain ⟨sdo, hsdo, h⟩ := Except.bind_eq_ok.mp h
      obtain ⟨u, hu, h⟩ := Except.bind_eq_ok.mp h
      have hcb' : w.le.isClaimableBalance = true := by simpa using hcb
      simp only [hcb', if_true] at h hsdo
      exact removeEntryWithSponsorship_of_check h ha2 hsdo hu (by simp) (by
        simp [owner_of_isClaimableBalance hcb']) (by simp)
    · -- another account sponsors it
      next hid =>
      -- (a substitution would bring the block back as the last `h`)
      obtain ⟨S', hS', h2⟩ := Except.bind_eq_ok.mp h
      obtain ⟨rfl, hSacc, -⟩ := Ledger.loadAccount_eq_ok hS'
      obtain ⟨sp, hsp, h3⟩ := Except.bind_eq_ok.mp h2
      obtain ⟨sdo, hsdo, h4⟩ := Except.bind_eq_ok.mp h3
      obtain ⟨u, hu, h5⟩ := Except.bind_eq_ok.mp h4
      refine removeEntryWithSponsorship_of_check h5 hsp hsdo hu ?_ ?_ ?_
      · intro r hr
        cases hcb : w.le.isClaimableBalance
        · rfl
        · simp [hcb] at hr
      · cases hcb : w.le.isClaimableBalance
        · simp [refID, owner_of_removable hrem hacc hcb]
        · simp [owner_of_isClaimableBalance hcb]
      · intro r hr
        cases hcb : w.le.isClaimableBalance <;> simp only [hcb] at hr
        · cases hr
          simpa [eq_comm] using hSacc
        · cases hr
  · -- no sponsor: the entry is no claimable balance, and its owner pays
    next hS =>
    obtain ⟨a, ha, h⟩ := Except.bind_eq_ok.mp h
    obtain ⟨u, hu, h⟩ := Except.bind_eq_ok.mp h
    have hcb : w.le.isClaimableBalance = false := by
      cases hc : w.le.isClaimableBalance
      · rfl
      · simpa [hS] using hcbs hc
    obtain ⟨htot, hle, hframe, -⟩ := removeEntryWithoutSponsorship_spec h hcb
      (fun _ => (owner_of_removable hrem hacc hcb).symm) (fun _ a' ha' => by
        obtain rfl := Except.ok.inj (ha.symm.trans ha')
        exact canRemoveEntryWithoutSponsorship_eq_ok hu hacc)
    exact ⟨htot, hle ▸ hS, _, hframe⟩


/-! ### A merged account -/

/-- Outside an account's own entry, what counts in its `numSponsored` counts in its
`numSubEntries` too: a sponsored trustline, offer or data entry of its. -/
theorem sponsoredCount_le_subEntryCount {A : AccountID} {e : LedgerEntry}
    (h : LedgerEntryKey e ≠ .ACCOUNT A) : sponsoredCount A e ≤ subEntryCount A e := by
  obtain ⟨data, ext⟩ := e
  cases data with
  | ACCOUNT a =>
    have ha : a.accountID ≠ A := fun h' => h (by simp [LedgerEntryKey, h'])
    simp [sponsoredCount, owner, ha]
  | _ =>
    -- a sponsored entry of `A`'s is a subentry of `A`'s, or has no owner
    simp only [sponsoredCount, subEntryCount]
    split_ifs with h1 h2
    · exact le_rfl
    · first | exact (h2 ⟨h1.1, rfl⟩).elim | simp [owner] at h1
    · exact Nat.zero_le _
    · exact le_rfl

/-- **The gap of an account `AccountMerge` removes**: with no signers, no subentries and
nothing it sponsors, its `numSponsored` is its own sponsorship, and what is left is the
reserve its sponsor pays for it. -/
theorem gap_of_removable {L : Ledger} {e : LedgerEntry} {x : AccountEntry} (hL : Inv L)
    (he : e ∈ L.entries) (hdata : e.data = .ACCOUNT x) (hsig : x.signers = [])
    (hsub : x.numSubEntries = 0) (hsp : getNumSponsoring x = 0) (A : AccountID) :
    gap A e = -(if e.sponsoringID = some A then (2, 0, 0) else 0) := by
  obtain ⟨hsg, hsd, hse, hal⟩ := hL.counted x (List.mem_filterMap.mpr ⟨e, he, by simp [hdata]⟩)
  -- nothing counts in its `numSponsoring` or its `numSubEntries`
  have hsg0 : sponsoringCount x.accountID e = 0 :=
    List.sum_eq_zero_iff.mp (hsp ▸ hsg).symm _ (List.mem_map_of_mem he)
  have hse0 : ∀ b ∈ L.entries, subEntryCount x.accountID b = 0 := fun b hb =>
    List.sum_eq_zero_iff.mp (hsub ▸ hse).symm _ (List.mem_map_of_mem hb)
  -- so its `numSponsored` is what its own entry counts
  have hns : getNumSponsored x = sponsoredCount x.accountID e := by
    have hkey : LedgerEntryKey e = .ACCOUNT x.accountID := by simp [LedgerEntryKey, hdata]
    rw [hsd, ← KeyedList.sum_erase _ L.nodup he, hkey, List.sum_eq_zero fun n hn => ?_, zero_add]
    obtain ⟨b, hb, rfl⟩ := List.mem_map.mp hn
    obtain ⟨hbL, hbk⟩ := KeyedList.mem_erase.mp hb
    exact Nat.eq_zero_of_le_zero ((sponsoredCount_le_subEntryCount hbk).trans (hse0 b hbL).le)
  -- and its signer vector is empty
  have hids : ∀ y ∈ x.extV2, y.signerSponsoringIDs = [] := fun y hy =>
    List.eq_nil_of_length_eq_zero (by rw [hal y hy, hsig]; rfl)
  obtain ⟨data, ext⟩ := e
  subst hdata
  have hsby : ∀ B, signersSponsoredBy B x = 0 := by
    intro B
    cases hx : x.extV2 with
    | none => simp [signersSponsoredBy, hx]
    | some y => simp [signersSponsoredBy, hx, hids y hx]
  have hself : (⟨.ACCOUNT x, ext⟩ : LedgerEntry).sponsoringID ≠ some x.accountID := by
    intro hs
    simp [sponsoringCount, hs, multiplier] at hsg0
  rw [gap_account]
  by_cases hA : x.accountID = A
  · subst hA
    simp only [if_true, storedCounters, hns, hsp, hsub, hsig, hself, hsby]
    simp [sponsoredCount, owner, multiplier]
  · simp only [hA, if_false, hsby, add_zero]
    split_ifs <;> simp


/-- `removeEntryWithPossibleSponsorship` on an account `X`: without a sponsor it writes
nothing; with one it takes the reserve off the sponsor's `numSponsoring` and writes the
account `X`. -/
theorem removeEntryWithPossibleSponsorship_account {lh : LedgerHeader} {X : AccountID}
    {x : AccountEntry} (h : removeEntryWithPossibleSponsorship lh w X = .ok w')
    (hdata : w.le.data = .ACCOUNT x) :
    (w.le.sponsoringID = none ∧ w'.ledger = w.ledger) ∨
      ∃ S s s' x', w.le.sponsoringID = some S ∧ S ≠ X ∧ w.ledger.getAccount S = .ok s ∧
        CountersOnly s s' ∧ storedCounters s - storedCounters s' = (2, 0, 0) ∧
        x'.accountID = X ∧ w'.ledger = (w.ledger.setAccount S s').setAccount X x' := by
  have hacc : w.le.isAccount = true := by simp [LedgerEntry.isAccount, hdata]
  have hcb : w.le.isClaimableBalance = false := by simp [LedgerEntry.isClaimableBalance, hdata]
  unfold removeEntryWithPossibleSponsorship at h
  split at h
  · next S hS =>
    obtain ⟨a, ha, h⟩ := Except.bind_eq_ok.mp h
    split at h
    · -- an account cannot sponsor itself
      simp only at h
      obtain ⟨hc, -⟩ := Except.guard_eq_ok h
      simp [hcb] at hc
    · obtain ⟨S', hS', h2⟩ := Except.bind_eq_ok.mp h
      obtain ⟨rfl, hSX, -⟩ := Ledger.loadAccount_eq_ok hS'
      obtain ⟨sp, hsp, h3⟩ := Except.bind_eq_ok.mp h2
      obtain ⟨sdo, -, h4⟩ := Except.bind_eq_ok.mp h3
      obtain ⟨u, hu, h5⟩ := Except.bind_eq_ok.mp h4
      -- the account's own counters are not written through `removeEntryWithoutSponsorship`
      simp only [hcb, removeEntryWithSponsorship, removeEntryWithoutSponsorship, hacc,
        Bool.false_eq_true, Bool.not_true, ↓reduceIte, pure_bind] at h5
      -- `removeEntrySponsorship`: the sponsor's count, then the account's own
      obtain ⟨sid, -, h6⟩ := Except.bind_eq_ok.mp h5
      obtain ⟨a1, -, h7⟩ := Except.bind_eq_ok.mp h6
      obtain ⟨u1, -, h8⟩ := Except.bind_eq_ok.mp h7
      obtain ⟨m, hm, h9⟩ := Except.bind_eq_ok.mp h8
      obtain ⟨w1, hw1, h10⟩ := Except.bind_eq_ok.mp h9
      obtain ⟨b, b', hb, hfb, rfl⟩ := Ltx.modifyAccount_eq_ok (w := w.setSponsor none) hw1
      obtain ⟨c, c', hc, hfc, rfl⟩ := Ltx.modifyAccount_eq_ok h10
      rw [getAccount_setSponsor, hsp] at hb
      obtain rfl := Except.ok.inj hb
      obtain rfl : m = 2 := by simpa [hdata, multiplier] using computeMultiplier_eq_ok hm
      have hnum := (canRemoveEntryWithSponsorship_eq_ok hu).1
      rw [hdata] at hnum
      have hcc := countersOnly_updateExtV2 (fun _ _ h => by cases h; rfl) hfc
      obtain ⟨-, -, -, hcid⟩ := getAccount_account_eq_ok hc
      right
      exact ⟨S', sp, b', c', hS, by simpa using hSX, hsp,
        countersOnly_updateExtV2 (fun _ _ h => by cases h; rfl) hfb,
        storedCounters_subSponsoring hfb hnum, hcc.accountID.trans hcid, rfl⟩
  · next hS =>
    obtain ⟨a, -, h⟩ := Except.bind_eq_ok.mp h
    obtain ⟨u, -, h⟩ := Except.bind_eq_ok.mp h
    simp only [removeEntryWithoutSponsorship, hacc] at h
    left
    exact ⟨hS, by cases h; rfl⟩


theorem loadEntry_eq_ok {L : Ledger} {key : LedgerKey} {le : LedgerEntry}
    (h : loadEntry L key = .ok le) : L.find key = some le := by
  unfold loadEntry at h
  split at h
  · cases h
    assumption
  · cases h

theorem isAccount_of_key {e e' : LedgerEntry} (h : LedgerEntryKey e = LedgerEntryKey e') :
    e.isAccount = e'.isAccount := by
  obtain ⟨d, x⟩ := e
  obtain ⟨d', x'⟩ := e'
  cases d <;> cases d' <;> simp_all [LedgerEntryKey, LedgerEntry.isAccount]

theorem isClaimableBalance_of_key {e e' : LedgerEntry} (h : LedgerEntryKey e = LedgerEntryKey e') :
    e.isClaimableBalance = e'.isClaimableBalance := by
  obtain ⟨d, x⟩ := e
  obtain ⟨d', x'⟩ := e'
  cases d <;> cases d' <;> simp_all [LedgerEntryKey, LedgerEntry.isClaimableBalance]

theorem isAccount_of_key_account {e : LedgerEntry} {id : AccountID}
    (h : LedgerEntryKey e = .ACCOUNT id) : e.isAccount = true := by
  obtain ⟨d, x⟩ := e
  cases d <;> simp_all [LedgerEntryKey, LedgerEntry.isAccount]

theorem exists_account_of_isAccount {e : LedgerEntry} (h : e.isAccount = true) :
    ∃ x, e.data = .ACCOUNT x := by
  obtain ⟨d, ext⟩ := e
  cases d with
  | ACCOUNT x => exact ⟨x, rfl⟩
  | _ => cases h

/-- **Removing an entry keeps the invariant.** -/
theorem removeEntry_inv {lh : LedgerHeader} {L L' : Ledger} {key : LedgerKey} {acc : AccountID}
    (h : removeEntry lh L key acc = .ok L') (hL : Inv L)
    (hrem : ∀ le, L.find key = some le → RemovableEntry le acc) : Inv L' := by
  unfold removeEntry at h
  obtain ⟨le, hle, h⟩ := Except.bind_eq_ok.mp h
  obtain ⟨w', hw, h⟩ := Except.bind_eq_ok.mp h
  have hf := loadEntry_eq_ok hle
  obtain ⟨hmem, hkey⟩ := Ledger.mem_of_find hf
  have hrm := hrem le hf
  cases hacc : le.isAccount
  · -- a subentry or a claimable balance: the ledger keeps it until the erase
    obtain ⟨htot, hnone, ids, hframe⟩ :=
      removeEntryWithPossibleSponsorship_spec hw hrm hacc (hL.wellFormed le hmem).2
    have hk : ∀ id ∈ ids, key ≠ .ACCOUNT id := by
      rintro id - rfl
      rw [isAccount_of_key_account hkey] at hacc
      cases hacc
    have hf' : w'.ledger.find key = some le := (hframe.find key hk).trans hf
    have hacc' : w'.le.isAccount = false := (isAccount_of_key hframe.key).trans hacc
    have h3 := gap_unsponsored hnone hacc'
    refine ⟨fun A => ?_, fun b hb => hframe.wellFormed hL.wellFormed b (Ledger.mem_erase h hb)⟩
    have h4 : total L'.entries A + gap A le + (gap A w'.le + subEntryReserve A w'.le.data) =
        0 + gap A le := by
      rw [Ledger.total_erase h hf' A, ← hL.balanced A, ← add_assoc,
        subEntryReserve_eq_of_key hframe.key]
      exact htot A
    rw [h3 A, add_zero, zero_add, add_eq_right] at h4
    exact h4
  · -- the account `acc` itself
    obtain ⟨x, hdata⟩ := exists_account_of_isAccount hacc
    simp only [RemovableEntry, hdata] at hrm
    obtain ⟨hid, hsig, hsub, hsp⟩ := hrm
    have hgap := gap_of_removable hL hmem hdata hsig hsub hsp
    have hkey' : key = .ACCOUNT acc := by rw [← hkey, ← hid]; simp [LedgerEntryKey, hdata]
    subst hkey'
    rcases removeEntryWithPossibleSponsorship_account hw hdata with
      ⟨hnone, hL'⟩ | ⟨S, s, s', x', hS, hSX, hs, hcs, hst, hx'id, hL'⟩
    · -- no sponsor: the erased account counted nothing
      rw [hL'] at h
      refine ⟨fun A => ?_, fun b hb => hL.wellFormed b (Ledger.mem_erase h hb)⟩
      have h1 := Ledger.total_erase h hf A
      rwa [hgap, hnone, hL.balanced, if_neg (by simp), neg_zero, add_zero] at h1
    · -- the sponsor's count goes down with the erased account's reserve
      rw [hL'] at h
      obtain ⟨-, -, -, hsid⟩ := Ledger.getAccount_eq_ok hs
      have hf' : (L.setAccount S s').find (.ACCOUNT acc) = some le :=
        (Ledger.find_setAccount_ne (hcs.accountID.trans hsid) (by simpa using hSX.symm)).trans hf
      refine ⟨fun A => ?_, fun b hb => ?_⟩
      · have h1 := Ledger.total_erase_setAccount h hx'id hf' A
        rw [Ledger.total_setAccount_countersOnly hs hcs A, hL.balanced, zero_add, hgap, hS, hsid,
          ← neg_sub, hst] at h1
        rw [eq_sub_of_add_eq h1]
        split_ifs <;> simp_all
      · exact Ledger.wellFormed_setAccount_of_getAccount hL.wellFormed hs
          (hcs.aligned (Ledger.aligned_of_getAccount hL.wellFormed hs)) b
          (Ledger.mem_erase_setAccount h hx'id hb)


/-! ### Revoking an entry's sponsorship -/

/-- An account an operation holds loaded while it works on `le` other than `le`'s own. -/
theorem key_ne_of_not_active {le : LedgerEntry} {S : AccountID} (hS : S ∉ activeAccounts le) :
    LedgerEntryKey le ≠ .ACCOUNT S := by
  obtain ⟨data, ext⟩ := le
  cases data with
  | ACCOUNT a =>
    have : a.accountID ≠ S := fun h => hS (by simp [activeAccounts, h])
    simpa [LedgerEntryKey] using this
  | _ => simp [LedgerEntryKey]

/-- The account `RevokeSponsorshipOpFrame` loads as the one whose reserve `le` takes is
`le`'s owner, and none of the accounts it already holds. -/
theorem loadSponsoredAccount_eq_ok {L : Ledger} {active : List AccountID} {le : LedgerEntry}
    {sd : Option EntryRef} (h : loadSponsoredAccount L active le = .ok sd) :
    sd.bind (⟨le, L⟩ : Ltx).refID = owner le.data ∧ ∀ id ∈ sd.bind EntryRef.ledgerID, id ∉ active := by
  obtain ⟨data, ext⟩ := le
  unfold loadSponsoredAccount at h
  cases data with
  | ACCOUNT a =>
    cases h
    exact ⟨rfl, by simp⟩
  | CLAIMABLE_BALANCE => cases h; simp [owner]
  | LIQUIDITY_POOL => cases h; simp [owner]
  | _ =>
    -- the owner, loaded through `loadAccount`
    obtain ⟨id, hid, h2⟩ := Except.bind_eq_ok.mp h
    obtain ⟨rfl, hact, -⟩ := Ledger.loadAccount_eq_ok hid
    cases h2
    exact ⟨rfl, by simpa using hact⟩

/-- **Writing the entry back** after a helper that kept the totals of the view: the
ledger keeps the invariant, when the helper wrote no account with the entry's key. -/
theorem inv_write {L : Ledger} {le : LedgerEntry} {ids : List AccountID} (hL : Inv L)
    (hf : L.find (LedgerEntryKey le) = some le) (htot : ∀ A, w'.total A = Ltx.total ⟨le, L⟩ A)
    (hframe : Frame ids ⟨le, L⟩ w') (hk : ∀ id ∈ ids, LedgerEntryKey le ≠ .ACCOUNT id)
    (hcb : w'.le.isClaimableBalance = true → w'.le.sponsoringID.isSome = true) :
    Inv (w'.ledger.write w'.le) := by
  have hf' : w'.ledger.find (LedgerEntryKey le) = some le := (hframe.find _ hk).trans hf
  have hmem := (Ledger.mem_of_find hf').1
  have hwf := hL.wellFormed le (Ledger.mem_of_find hf).1
  refine ⟨fun A => ?_, fun b hb => ?_⟩
  · have h1 := Ledger.total_write hmem hframe.key.symm A
    rw [← Ltx.total, htot A, Ltx.total, hL.balanced, zero_add] at h1
    exact add_eq_right.mp h1
  · rcases Ledger.mem_write hb with rfl | hb
    · exact ⟨hframe.aligned hwf.1, hcb⟩
    · exact hframe.wellFormed hL.wellFormed b hb


/-- The accounts a helper writes for an entry are not the entry's own, when the
operation loaded them while it held the entry's accounts. -/
theorem key_ne_of_sponsor {le : LedgerEntry} {S : AccountID} {sd : Option EntryRef}
    (hS : S ∉ activeAccounts le) (hsd : ∀ id ∈ sd.bind EntryRef.ledgerID, id ∉ S :: activeAccounts le) :
    ∀ id ∈ S :: (sd.bind EntryRef.ledgerID).toList, LedgerEntryKey le ≠ .ACCOUNT id := by
  intro id hid
  rcases List.mem_cons.mp hid with rfl | hid
  · exact key_ne_of_not_active hS
  · exact key_ne_of_not_active fun h => hsd id (Option.mem_toList.mp hid) (List.mem_cons_of_mem _ h)

/-- **Establishing an entry's sponsorship keeps the invariant.** -/
theorem tryEstablishEntrySponsorship_inv {lh : LedgerHeader} {L L' : Ledger} {key : LedgerKey}
    {S : AccountID} (h : tryEstablishEntrySponsorship lh L key S = .ok L') (hL : Inv L) : Inv L' := by
  unfold tryEstablishEntrySponsorship at h
  obtain ⟨le, hle, h1⟩ := Except.bind_eq_ok.mp h
  obtain ⟨S', hS', h2⟩ := Except.bind_eq_ok.mp h1
  obtain ⟨rfl, hact, -⟩ := Ledger.loadAccount_eq_ok hS'
  obtain ⟨sd, hsd, h3⟩ := Except.bind_eq_ok.mp h2
  obtain ⟨sp, -, h4⟩ := Except.bind_eq_ok.mp h3
  obtain ⟨sdo, -, h5⟩ := Except.bind_eq_ok.mp h4
  obtain ⟨res, hres, h6⟩ := Except.bind_eq_ok.mp h5
  split at h6
  · obtain ⟨w', hw, h7⟩ := Except.bind_eq_ok.mp h6
    cases h7
    have hf := loadEntry_eq_ok hle
    rw [← (Ledger.mem_of_find hf).2] at hf
    obtain ⟨hown, hnot⟩ := loadSponsoredAccount_eq_ok hsd
    obtain ⟨htot, hsome, hframe⟩ :=
      establishEntrySponsorship_spec hw (canEstablishEntrySponsorship_eq_ok hres) hown
    exact inv_write hL hf htot hframe (key_ne_of_sponsor hact hnot) fun _ => by simp [hsome]
  · cases h6
    exact hL


/-- **Removing an entry's sponsorship keeps the invariant.** -/
theorem tryRemoveEntrySponsorship_inv {lh : LedgerHeader} {L L' : Ledger} {key : LedgerKey}
    (h : tryRemoveEntrySponsorship lh L key = .ok L') (hL : Inv L) : Inv L' := by
  unfold tryRemoveEntrySponsorship at h
  obtain ⟨le, hle, h1⟩ := Except.bind_eq_ok.mp h
  split at h1
  · cases h1
    exact hL
  · next S hS =>
    split at h1
    · cases h1
      exact hL
    · next hcb =>
      obtain ⟨S', hS', h2⟩ := Except.bind_eq_ok.mp h1
      obtain ⟨rfl, hact, -⟩ := Ledger.loadAccount_eq_ok hS'
      obtain ⟨sd, hsd, h3⟩ := Except.bind_eq_ok.mp h2
      obtain ⟨sp, hsp, h4⟩ := Except.bind_eq_ok.mp h3
      obtain ⟨sdo, hsdo, h5⟩ := Except.bind_eq_ok.mp h4
      obtain ⟨res, hres, h6⟩ := Except.bind_eq_ok.mp h5
      split at h6
      · obtain ⟨w', hw, h7⟩ := Except.bind_eq_ok.mp h6
        cases h7
        have hf := loadEntry_eq_ok hle
        rw [← (Ledger.mem_of_find hf).2] at hf
        obtain ⟨hown, hnot⟩ := loadSponsoredAccount_eq_ok hsd
        obtain ⟨hnum, hnum'⟩ := canRemoveEntrySponsorship_eq_ok hres
        -- the checks read the accounts the helper writes
        have hsd' : ∀ r ∈ sd, ∀ a, Ltx.getAccount ⟨le, L⟩ r = .ok a →
            multiplier le.data ≤ getNumSponsored a := by
          intro r hr a ha
          obtain rfl : sd = some r := hr
          simp only [Option.mapM_some, ha] at hsdo
          exact hnum' a (Except.ok.inj hsdo).symm
        have hne : ∀ r ∈ sd, r ≠ .account S' := by
          rintro r hr rfl
          obtain rfl : sd = some (.account S') := hr
          exact hnot S' rfl (List.mem_cons_self ..)
        obtain ⟨htot, -, hnone, hframe⟩ := removeEntrySponsorship_spec hw hown
          (fun a ha => (Except.ok.inj (hsp.symm.trans ha)) ▸ hnum) hsd' hne
        refine inv_write hL hf htot hframe (key_ne_of_sponsor hact hnot) fun hc => ?_
        rw [isClaimableBalance_of_key hframe.key] at hc
        simp [hc] at hcb
      · cases h6
        exact hL

/-- **Transferring an entry's sponsorship keeps the invariant.** -/
theorem tryTransferEntrySponsorship_inv {lh : LedgerHeader} {L L' : Ledger} {key : LedgerKey}
    {N : AccountID} (h : tryTransferEntrySponsorship lh L key N = .ok L') (hL : Inv L) :
    Inv L' := by
  unfold tryTransferEntrySponsorship at h
  obtain ⟨le, hle, h1⟩ := Except.bind_eq_ok.mp h
  split at h1
  · cases h1
    exact hL
  · next O hO =>
    obtain ⟨O', hO', h2⟩ := Except.bind_eq_ok.mp h1
    obtain ⟨rfl, hactO, -⟩ := Ledger.loadAccount_eq_ok hO'
    obtain ⟨N', hN', h3⟩ := Except.bind_eq_ok.mp h2
    obtain ⟨rfl, hactN, -⟩ := Ledger.loadAccount_eq_ok hN'
    obtain ⟨old, hold, h4⟩ := Except.bind_eq_ok.mp h3
    obtain ⟨new, -, h5⟩ := Except.bind_eq_ok.mp h4
    obtain ⟨res, hres, h6⟩ := Except.bind_eq_ok.mp h5
    split at h6
    · obtain ⟨w', hw, h7⟩ := Except.bind_eq_ok.mp h6
      cases h7
      have hf := loadEntry_eq_ok hle
      rw [← (Ledger.mem_of_find hf).2] at hf
      have hnum := canTransferEntrySponsorship_eq_ok hres
      obtain ⟨htot, -, hsome, hframe⟩ := transferEntrySponsorship_spec hw
        (fun a ha => (Except.ok.inj (hold.symm.trans ha)) ▸ hnum)
        (fun hNO => hactN (by simp [hNO]))
      refine inv_write hL hf htot hframe ?_ fun _ => by simp [hsome]
      intro id hid
      rcases List.mem_pair.mp hid with rfl | rfl
      · exact key_ne_of_not_active fun h' => hactN (List.mem_cons_of_mem _ h')
      · exact key_ne_of_not_active hactO
    · cases h6
      exact hL


/-! ### Signers -/

section signers

variable {lh : LedgerHeader} {L L' : Ledger} {acc : AccountID} {n : ℕ}

/-- A helper that keeps the totals and the well-formed entries keeps the invariant. -/
theorem Inv.of_total (hL : Inv L) (htot : ∀ A, total L'.entries A = total L.entries A)
    (hwf : ∀ b ∈ L'.entries, WellFormed b) : Inv L' :=
  ⟨fun A => (htot A).trans (hL.balanced A), hwf⟩

theorem createSignerWithPossibleSponsorship_spec {res : SponsorshipResult}
    (h : createSignerWithPossibleSponsorship lh L n acc = .ok (res, L')) (hres : res = .SUCCESS)
    (hL : ∀ b ∈ L.entries, WellFormed b) :
    (∀ A, total L'.entries A = total L.entries A + if acc = A then (0, 0, 1) else 0) ∧
      ∀ b ∈ L'.entries, WellFormed b := by
  unfold createSignerWithPossibleSponsorship at h
  obtain ⟨e, he, h1⟩ := Except.bind_eq_ok.mp h
  obtain ⟨a, ha, h2⟩ := Except.bind_eq_ok.mp h1
  have haL : L.getAccount acc = .ok a := Except.bind_eq_ok.mpr ⟨e, he, ha⟩
  split at h2
  · -- a sponsorship of future reserves: the sponsor pays the new signer's reserve
    obtain ⟨S, -, h3⟩ := Except.bind_eq_ok.mp h2
    obtain ⟨e2, -, h4⟩ := Except.bind_eq_ok.mp h3
    obtain ⟨sp, -, h5⟩ := Except.bind_eq_ok.mp h4
    obtain ⟨r, hr, h6⟩ := Except.bind_eq_ok.mp h5
    have hr' : r = .SUCCESS := by
      split at h6
      · assumption
      · obtain ⟨rfl, -⟩ := Prod.mk.inj (Except.ok.inj h6)
        contradiction
    subst hr'
    refine createSignerWithSponsorship_spec (eq_ok_of_success h6 hres) (fun a' ha' => ?_) hL
    obtain rfl := Except.ok.inj (haL.symm.trans ha')
    exact canCreateSignerWithSponsorship_eq_ok hr
  · -- the account pays it
    obtain ⟨r, -, h3⟩ := Except.bind_eq_ok.mp h2
    obtain ⟨a', -, -, htot, hwf⟩ := createSignerWithoutSponsorship_spec (eq_ok_of_success h3 hres) hL
    exact ⟨htot, hwf⟩

/-- **Adding a signer keeps the invariant**, at a position of the signer list. -/
theorem createSigner_inv {signer : SignerKey} (h : createSigner lh L acc n signer = .ok L')
    (hL : Inv L) (hn : ∀ a, L.getAccount acc = .ok a → n ≤ a.signers.length) : Inv L' := by
  unfold createSigner at h
  obtain ⟨L1, h1, h2⟩ := Except.bind_eq_ok.mp h
  obtain ⟨⟨res, L2⟩, hc, h3⟩ := Except.bind_eq_ok.mp h2
  simp only at h3
  split at h3
  · next hres =>
    cases h3
    -- the signer goes in with no sponsor: the account's gap lacks one subentry
    obtain ⟨a, a', ha, hfa, rfl⟩ := Ledger.modifyAccount_getAccount h1
    have hid : a'.accountID = a.accountID := by cases hfa; rfl
    obtain ⟨ext, htot1⟩ := Ledger.total_setAccount_gap ha hid
    obtain ⟨-, -, -, haid⟩ := Ledger.getAccount_eq_ok ha
    have halign := Ledger.aligned_of_getAccount hL.wellFormed ha
    have hal : SignersAligned a' := by
      cases hfa
      intro x hx
      simp only [Option.mem_def, Option.map_eq_some_iff] at hx
      obtain ⟨y, hy, rfl⟩ := hx
      simp [List.length_insertIdx_of_le_length (hn a ha), halign y hy,
        List.length_insertIdx_of_le_length ((halign y hy).symm ▸ hn a ha)]
    have hL1 := Ledger.wellFormed_setAccount_of_getAccount hL.wellFormed ha hal
    cases hfa
    obtain ⟨htot2, hwf⟩ := createSignerWithPossibleSponsorship_spec hc hres hL1
    refine ⟨fun A => ?_, hwf⟩
    have h4 := gap_insertSigner A a ext (s := signer) halign (hn a ha)
    rw [htot2 A, eq_sub_of_add_eq (htot1 A), ← h4, haid, hL.balanced]
    abel
  · cases h3
    exact hL

/-- The branch of `removeSignerWithPossibleSponsorship` for a signer with no sponsor. -/
theorem removeSigner_unsponsored_inv {a : AccountEntry}
    (h : (do canRemoveSignerWithoutSponsorship a; removeSignerWithoutSponsorship L n acc) = .ok L')
    (haL : L.getAccount acc = .ok a) (hn : n < a.signers.length)
    (hnone : (prepareAccountEntryExtensionV2 a).signerSponsoringIDs[n]? = some none) (hL : Inv L) :
    Inv L' := by
  obtain ⟨u, hu, h1⟩ := Except.bind_eq_ok.mp h
  obtain ⟨htot, hwf⟩ := removeSignerWithoutSponsorship_spec h1 (fun a' ha' => by
      obtain rfl := Except.ok.inj (haL.symm.trans ha')
      exact ⟨hn, hnone, canRemoveSignerWithoutSponsorship_eq_ok hu⟩) hL.wellFormed
  exact hL.of_total htot hwf

/-- **Removing a signer keeps the invariant**, at a position of the signer list. -/
theorem removeSignerWithPossibleSponsorship_inv
    (h : removeSignerWithPossibleSponsorship lh L n acc = .ok L') (hL : Inv L)
    (hn : ∀ a, L.getAccount acc = .ok a → n < a.signers.length) : Inv L' := by
  unfold removeSignerWithPossibleSponsorship at h
  obtain ⟨e, he, h1⟩ := Except.bind_eq_ok.mp h
  obtain ⟨a, ha, h2⟩ := Except.bind_eq_ok.mp h1
  have haL : L.getAccount acc = .ok a := Except.bind_eq_ok.mpr ⟨e, he, ha⟩
  simp only at h2
  split at h2
  · next x hx =>
    obtain ⟨sid, hsid, h3⟩ := Except.bind_eq_ok.mp h2
    cases sid with
    | none =>
      refine removeSigner_unsponsored_inv h3 haL (hn a haL) ?_ hL
      simpa [prepareAccountEntryExtensionV2, hx] using vectorAt_eq_ok hsid
    | some S =>
      -- a sponsored signer: its sponsor and the account both give the reserve back
      obtain ⟨S', hS, h4⟩ := Except.bind_eq_ok.mp h3
      obtain ⟨rfl, hact, -⟩ := Ledger.loadAccount_eq_ok hS
      obtain ⟨e2, he2, h5⟩ := Except.bind_eq_ok.mp h4
      obtain ⟨sp, hsp, h6⟩ := Except.bind_eq_ok.mp h5
      have hspL : L.getAccount S' = .ok sp := Except.bind_eq_ok.mpr ⟨e2, he2, hsp⟩
      obtain ⟨u, hu, h7⟩ := Except.bind_eq_ok.mp h6
      obtain ⟨hnum, hsub, hsd⟩ := canRemoveSignerWithSponsorship_eq_ok hu
      obtain ⟨htot, hwf⟩ := removeSignerWithSponsorship_spec h7 (by simpa using hact)
        (fun a' ha' => by
          obtain rfl := Except.ok.inj (haL.symm.trans ha')
          exact ⟨hn a haL, hsd, hsub⟩)
        (fun b hb => by
          obtain rfl := Except.ok.inj (hspL.symm.trans hb)
          exact hnum) hL.wellFormed
      exact hL.of_total htot hwf
  · next hx =>
    simp only [pure_bind] at h2
    exact removeSigner_unsponsored_inv h2 haL (hn a haL)
      (by simp [prepareAccountEntryExtensionV2, hx, hn a haL]) hL

/-- **Establishing a signer's sponsorship keeps the invariant.** -/
theorem tryEstablishSignerSponsorship_inv {S : AccountID}
    (h : tryEstablishSignerSponsorship lh L acc n S = .ok L') (hL : Inv L) : Inv L' := by
  unfold tryEstablishSignerSponsorship at h
  obtain ⟨e, he, h1⟩ := Except.bind_eq_ok.mp h
  obtain ⟨a, ha, h2⟩ := Except.bind_eq_ok.mp h1
  have haL : L.getAccount acc = .ok a := Except.bind_eq_ok.mpr ⟨e, he, ha⟩
  split at h2
  · cases h2
    exact hL
  · obtain ⟨S', -, h3⟩ := Except.bind_eq_ok.mp h2
    obtain ⟨e2, -, h4⟩ := Except.bind_eq_ok.mp h3
    obtain ⟨sp, -, h5⟩ := Except.bind_eq_ok.mp h4
    obtain ⟨res, hres, h6⟩ := Except.bind_eq_ok.mp h5
    split at h6
    · obtain ⟨htot, hwf⟩ := establishSignerSponsorship_spec h6 (fun a' ha' => by
        obtain rfl := Except.ok.inj (haL.symm.trans ha')
        exact canEstablishSignerSponsorship_eq_ok hres) hL.wellFormed
      exact hL.of_total htot hwf
    · cases h6
      exact hL

/-- **Removing a signer's sponsorship keeps the invariant.** -/
theorem tryRemoveSignerSponsorship_inv (h : tryRemoveSignerSponsorship lh L acc n = .ok L')
    (hL : Inv L) : Inv L' := by
  unfold tryRemoveSignerSponsorship at h
  obtain ⟨e, he, h1⟩ := Except.bind_eq_ok.mp h
  obtain ⟨a, ha, h2⟩ := Except.bind_eq_ok.mp h1
  have haL : L.getAccount acc = .ok a := Except.bind_eq_ok.mpr ⟨e, he, ha⟩
  split at h2
  · cases h2
    exact hL
  · obtain ⟨sid, -, h3⟩ := Except.bind_eq_ok.mp h2
    split at h3
    · cases h3
      exact hL
    · obtain ⟨S, hS, h4⟩ := Except.bind_eq_ok.mp h3
      obtain ⟨rfl, hact, -⟩ := Ledger.loadAccount_eq_ok hS
      obtain ⟨e2, he2, h5⟩ := Except.bind_eq_ok.mp h4
      obtain ⟨sp, hsp, h6⟩ := Except.bind_eq_ok.mp h5
      have hspL : L.getAccount S = .ok sp := Except.bind_eq_ok.mpr ⟨e2, he2, hsp⟩
      obtain ⟨res, hres, h7⟩ := Except.bind_eq_ok.mp h6
      obtain ⟨hnum, hsd⟩ := canRemoveSignerSponsorship_eq_ok hres
      split at h7
      · obtain ⟨htot, hwf, -⟩ := removeSignerSponsorship_spec h7 (by simpa using hact)
          (fun a' ha' => by
            obtain rfl := Except.ok.inj (haL.symm.trans ha')
            exact hsd)
          (fun b hb => by
            obtain rfl := Except.ok.inj (hspL.symm.trans hb)
            exact hnum) hL.wellFormed
        exact hL.of_total htot hwf
      · cases h7
        exact hL

/-- **Transferring a signer's sponsorship keeps the invariant.** -/
theorem tryTransferSignerSponsorship_inv {N : AccountID}
    (h : tryTransferSignerSponsorship lh L acc n N = .ok L') (hL : Inv L) : Inv L' := by
  unfold tryTransferSignerSponsorship at h
  obtain ⟨e, he, h1⟩ := Except.bind_eq_ok.mp h
  obtain ⟨a, ha, h2⟩ := Except.bind_eq_ok.mp h1
  split at h2
  · cases h2
    exact hL
  · obtain ⟨sid, -, h3⟩ := Except.bind_eq_ok.mp h2
    split at h3
    · cases h3
      exact hL
    · obtain ⟨O, hO, h4⟩ := Except.bind_eq_ok.mp h3
      obtain ⟨rfl, hactO, -⟩ := Ledger.loadAccount_eq_ok hO
      obtain ⟨N', hN, h5⟩ := Except.bind_eq_ok.mp h4
      obtain ⟨rfl, hactN, -⟩ := Ledger.loadAccount_eq_ok hN
      obtain ⟨e2, he2, h6⟩ := Except.bind_eq_ok.mp h5
      obtain ⟨old, hold, h7⟩ := Except.bind_eq_ok.mp h6
      have holdL : L.getAccount O = .ok old := Except.bind_eq_ok.mpr ⟨e2, he2, hold⟩
      obtain ⟨e3, -, h8⟩ := Except.bind_eq_ok.mp h7
      obtain ⟨new, -, h9⟩ := Except.bind_eq_ok.mp h8
      obtain ⟨res, hres, h10⟩ := Except.bind_eq_ok.mp h9
      split at h10
      · obtain ⟨htot, hwf⟩ := transferSignerSponsorship_spec h10 (by simpa using hactO)
          (fun hNO => hactN (by simp [hNO]))
          (fun b hb => by
            obtain rfl := Except.ok.inj (holdL.symm.trans hb)
            exact canTransferSignerSponsorship_eq_ok hres) hL.wellFormed
        exact hL.of_total htot hwf
      · cases h10
        exact hL

end signers

/-! ### The calls -/

/-- The calls of the sponsorship helpers the operations make: creating and removing an
entry or a signer, and the six branches of `RevokeSponsorshipOpFrame`. -/
inductive SponsorshipCall
  | createEntry (le : LedgerEntry) (acc : Option AccountID)
  | removeEntry (key : LedgerKey) (acc : AccountID)
  | createSigner (acc : AccountID) (n : ℕ) (signer : SignerKey)
  | removeSigner (acc : AccountID) (n : ℕ)
  | establishEntrySponsorship (key : LedgerKey) (sponsoringID : AccountID)
  | removeEntrySponsorship (key : LedgerKey)
  | transferEntrySponsorship (key : LedgerKey) (newSponsoringID : AccountID)
  | establishSignerSponsorship (acc : AccountID) (n : ℕ) (sponsoringID : AccountID)
  | removeSignerSponsorship (acc : AccountID) (n : ℕ)
  | transferSignerSponsorship (acc : AccountID) (n : ℕ) (newSponsoringID : AccountID)
deriving DecidableEq, Repr

namespace SponsorshipCall

/-- The ledger a call leaves. -/
def run (lh : LedgerHeader) (L : Ledger) : SponsorshipCall → Except String Ledger
  | createEntry le acc => HcnetCore.Sponsorship.createEntry lh L le acc
  | removeEntry key acc => HcnetCore.Sponsorship.removeEntry lh L key acc
  | createSigner acc n signer => HcnetCore.Sponsorship.createSigner lh L acc n signer
  | removeSigner acc n => removeSignerWithPossibleSponsorship lh L n acc
  | establishEntrySponsorship key s => tryEstablishEntrySponsorship lh L key s
  | removeEntrySponsorship key => tryRemoveEntrySponsorship lh L key
  | transferEntrySponsorship key s => tryTransferEntrySponsorship lh L key s
  | establishSignerSponsorship acc n s => tryEstablishSignerSponsorship lh L acc n s
  | removeSignerSponsorship acc n => tryRemoveSignerSponsorship lh L acc n
  | transferSignerSponsorship acc n s => tryTransferSignerSponsorship lh L acc n s

/-- What the operations make sure of before a call: a created entry is new, a removed one
is removable, and a signer's position is in the signer list. The revoke branches check
what they need themselves. -/
def Allowed (L : Ledger) : SponsorshipCall → Prop
  | createEntry le acc => NewEntry le acc
  | removeEntry key acc => ∀ le, L.find key = some le → RemovableEntry le acc
  | createSigner acc n _ => ∀ a, L.getAccount acc = .ok a → n ≤ a.signers.length
  | removeSigner acc n => ∀ a, L.getAccount acc = .ok a → n < a.signers.length
  | _ => True

/-- Every allowed call keeps the invariant. -/
theorem inv_run {lh : LedgerHeader} {L L' : Ledger} {c : SponsorshipCall} (hL : Inv L)
    (hc : c.Allowed L) (h : c.run lh L = .ok L') : Inv L' := by
  cases c with
  | createEntry le acc => exact createEntry_inv h hL hc
  | removeEntry key acc => exact removeEntry_inv h hL hc
  | createSigner acc n signer => exact createSigner_inv h hL hc
  | removeSigner acc n => exact removeSignerWithPossibleSponsorship_inv h hL hc
  | establishEntrySponsorship key s => exact tryEstablishEntrySponsorship_inv h hL
  | removeEntrySponsorship key => exact tryRemoveEntrySponsorship_inv h hL
  | transferEntrySponsorship key s => exact tryTransferEntrySponsorship_inv h hL
  | establishSignerSponsorship acc n s => exact tryEstablishSignerSponsorship_inv h hL
  | removeSignerSponsorship acc n => exact tryRemoveSignerSponsorship_inv h hL
  | transferSignerSponsorship acc n s => exact tryTransferSignerSponsorship_inv h hL

end SponsorshipCall

/-- A ledger with no entries, with `sp` as its sponsorships of future reserves. -/
def Ledger.empty (sp : AccountID → Option AccountID) : Ledger := ⟨[], List.nodup_nil, sp⟩

theorem inv_empty (sp : AccountID → Option AccountID) : Inv (Ledger.empty sp) :=
  ⟨fun _ => rfl, fun _ h => nomatch h⟩

/-- **Every call keeps the counters exact.** From a ledger with the invariant (its gaps
balanced and its entries well formed, in particular counted), every call of the helpers
made as the operations make it leaves a ledger with the invariant, so a counted one. -/
theorem sponsorship_counters_exact (lh : LedgerHeader) (L L' : Ledger) (c : SponsorshipCall)
    (hL : Inv L) (hc : c.Allowed L) (h : c.run lh L = .ok L') : Inv L' ∧ Counted L' :=
  have hL' := SponsorshipCall.inv_run hL hc h
  ⟨hL', hL'.counted⟩

theorem sponsorship_counters_exact_newAccount :
    ∃ L', (SponsorshipCall.createEntry ⟨.ACCOUNT ⟨1, 100000000, 0, [], 0, none⟩, .v1 none⟩ none).run
        ⟨20, 5000000⟩ (Ledger.empty fun _ => none) = .ok L' ∧ Inv L' ∧ Counted L' :=
  ⟨⟨[⟨.ACCOUNT ⟨1, 100000000, 0, [], 0, none⟩, .v1 none⟩], List.nodup_singleton _, fun _ => none⟩,
    rfl, sponsorship_counters_exact ⟨20, 5000000⟩ (Ledger.empty fun _ => none) _
    (.createEntry ⟨.ACCOUNT ⟨1, 100000000, 0, [], 0, none⟩, .v1 none⟩ none) (inv_empty _)
    ⟨rfl, rfl, rfl, rfl⟩ rfl⟩

/-- Counted is not enough: removing a claimable balance with no sponsor lowers the
`numSubEntries` of the operation's account, which the balance never counted in. Every
claimable balance the operations create has a sponsor (`WellFormed`). -/
theorem removeEntry_unsponsored_claimableBalance :
    ∃ (lh : LedgerHeader) (L L' : Ledger) (key : LedgerKey) (acc : AccountID),
      Counted L ∧ removeEntry lh L key acc = .ok L' ∧ ¬ Counted L' :=
  ⟨⟨20, 5000000⟩,
    ⟨[⟨.ACCOUNT ⟨1, 100000000, 1, [5], 0, none⟩, .v1 none⟩, ⟨.CLAIMABLE_BALANCE 0 1, .v1 none⟩],
      by decide, fun _ => none⟩,
    _, .CLAIMABLE_BALANCE 0, 1, by decide, rfl, by decide⟩

/-! ### Whole runs -/

/-- The ledgers the operations reach from an empty one, through allowed calls and changes
of the sponsorships of future reserves (`BeginSponsoringFutureReserves` and its end). -/
inductive Reachable (lh : LedgerHeader) : Ledger → Prop
  | empty (sp : AccountID → Option AccountID) : Reachable lh (Ledger.empty sp)
  | call {L L' : Ledger} (c : SponsorshipCall) :
      Reachable lh L → c.Allowed L → c.run lh L = .ok L' → Reachable lh L'
  | sponsorships {L : Ledger} (sp : AccountID → Option AccountID) :
      Reachable lh L → Reachable lh { L with sponsorships := sp }

/-- Every reachable ledger has the invariant: induction on the run, one call at a time. -/
theorem Reachable.inv {lh : LedgerHeader} {L : Ledger} (h : Reachable lh L) : Inv L := by
  induction h with
  | empty sp => exact inv_empty sp
  | call c _ hc hrun ih => exact SponsorshipCall.inv_run ih hc hrun
  | sponsorships sp _ ih => exact ⟨ih.balanced, ih.wellFormed⟩

/-- **Every reachable ledger is counted.** -/
theorem Reachable.counted {lh : LedgerHeader} {L : Ledger} (h : Reachable lh L) : Counted L :=
  h.inv.counted

end Sponsorship

end HcnetCore
