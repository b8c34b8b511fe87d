import HcnetCore.Transactions.SponsorshipCounts

/-!
# What each sponsorship helper does to the counts

One spec lemma for each helper of `SponsorshipUtils.cpp`: how much the gaps of every
account change (`Ltx.total` for the helpers that work on the caller's entry, `total`
for the signer helpers), and what else is left alone (`Ltx.Frame`).

The changes are of three kinds:

* a counter of one account goes up or down by a multiplier (`storedCounters_*`); a
  decrement is exact because the `can*` check of the caller, or the helper itself,
  throws when the counter is too small;
* the entry's sponsor changes, which moves the entry's reserve between the gaps of
  the old and the new sponsor and of the owner (`gap_sponsored`);
* a signer, or a signer's sponsor, is added or removed (`gap_insertSigner`,
  `gap_eraseSigner`, `gap_establishSigner`, `gap_removeSigner`, `gap_transferSigner`).

A helper keeps every gap sum when its changes of these kinds cancel, which is what
each spec lemma states. The callers in `SponsorshipInvariant.lean` add the entry the
operation creates or erases.
-/

namespace HcnetCore

namespace Sponsorship

/-! ### Counter changes -/

section counters

variable {a a' : AccountEntry} {m : ℕ}

theorem storedCounters_addSponsoring (a : AccountEntry) (m : ℕ) :
    storedCounters (updatePreparedExtV2 (fun x => { x with numSponsoring := x.numSponsoring + m }) a) -
      storedCounters a = ((m : ℤ), 0, 0) := by
  cases hx : a.extV2 <;>
    simp [storedCounters, updatePreparedExtV2, prepareAccountEntryExtensionV2, getNumSponsoring,
      getNumSponsored, hx, Prod.mk_zero_zero]

theorem storedCounters_addSponsored (a : AccountEntry) (m : ℕ) :
    storedCounters (updatePreparedExtV2 (fun x => { x with numSponsored := x.numSponsored + m }) a) -
      storedCounters a = (0, (m : ℤ), 0) := by
  cases hx : a.extV2 <;>
    simp [storedCounters, updatePreparedExtV2, prepareAccountEntryExtensionV2, getNumSponsoring,
      getNumSponsored, hx]

theorem storedCounters_addSubEntries (a : AccountEntry) (m : ℕ) :
    storedCounters { a with numSubEntries := a.numSubEntries + m } - storedCounters a =
      (0, 0, (m : ℤ)) := by
  simp [storedCounters, getNumSponsoring, getNumSponsored]

theorem storedCounters_subSubEntries (hm : m ≤ a.numSubEntries) :
    storedCounters a - storedCounters { a with numSubEntries := a.numSubEntries - m } =
      (0, 0, (m : ℤ)) := by
  simp [storedCounters, getNumSponsoring, getNumSponsored, Nat.cast_sub hm]

/-- An update of the extension goes through only on an account that has it. -/
theorem updateExtV2_eq_ok {g : AccountEntryExtensionV2 → Except String AccountEntryExtensionV2}
    (h : updateExtV2 g a = .ok a') :
    ∃ x y, a.extV2 = some x ∧ g x = .ok y ∧ a' = { a with extV2 := some y } := by
  cases hx : a.extV2 with
  | none =>
    simp only [updateExtV2, getAccountEntryExtensionV2, hx] at h
    cases h
  | some x =>
    simp only [updateExtV2, getAccountEntryExtensionV2, hx, pure_bind] at h
    obtain ⟨y, hy, h⟩ := Except.bind_eq_ok.mp h
    exact ⟨x, y, rfl, hy, (Except.ok.inj h).symm⟩

theorem vectorAt_eq_ok {α : Type} {v : List α} {n : ℕ} {x : α} (h : vectorAt v n = .ok x) :
    v[n]? = some x := by
  unfold vectorAt at h
  split at h
  · cases h
    assumption
  · cases h

/-- An update of the extension that exists. -/
theorem updateExtV2_pure_eq_ok {g : AccountEntryExtensionV2 → AccountEntryExtensionV2}
    (h : updateExtV2 (fun x => pure (g x)) a = .ok a') :
    ∃ x, a.extV2 = some x ∧ a' = { a with extV2 := some (g x) } := by
  obtain ⟨x, y, hx, hy, rfl⟩ := updateExtV2_eq_ok h
  exact ⟨x, hx, by rw [Except.ok.inj hy]⟩

theorem storedCounters_subSponsoring
    (h : updateExtV2 (fun x => pure { x with numSponsoring := x.numSponsoring - m }) a = .ok a')
    (hm : m ≤ getNumSponsoring a) : storedCounters a - storedCounters a' = ((m : ℤ), 0, 0) := by
  obtain ⟨x, hx, rfl⟩ := updateExtV2_pure_eq_ok h
  simp only [getNumSponsoring, hx] at hm
  simp [storedCounters, getNumSponsoring, getNumSponsored, hx, Nat.cast_sub hm, Prod.mk_zero_zero]

theorem storedCounters_subSponsored
    (h : updateExtV2 (fun x => pure { x with numSponsored := x.numSponsored - m }) a = .ok a')
    (hm : m ≤ getNumSponsored a) : storedCounters a - storedCounters a' = (0, (m : ℤ), 0) := by
  obtain ⟨x, hx, rfl⟩ := updateExtV2_pure_eq_ok h
  simp only [getNumSponsored, hx] at hm
  simp [storedCounters, getNumSponsoring, getNumSponsored, hx, Nat.cast_sub hm]

/-- The decrements leave the other counters as they were. -/
theorem getNumSponsored_subSponsoring
    (h : updateExtV2 (fun x => pure { x with numSponsoring := x.numSponsoring - m }) a = .ok a') :
    getNumSponsored a' = getNumSponsored a := by
  obtain ⟨x, hx, rfl⟩ := updateExtV2_pure_eq_ok h
  simp [getNumSponsored, hx]

end counters

/-! ### Moving an entry's reserve to a sponsor -/

/-- What the sponsorship of an entry with data `d` by `s` counts for `A`: the entry's
multiplier in `numSponsoring` of the sponsor and in `numSponsored` of its owner. -/
def sponsoredReserve (A : AccountID) : Option AccountID → LedgerEntryData → ℤ × ℤ × ℤ
  | some S, d =>
    (if S = A then ((multiplier d : ℤ), 0, 0) else 0) +
      (if owner d = some A then (0, (multiplier d : ℤ), 0) else 0)
  | none, _ => 0

/-- The gap of an entry depends on its data and its sponsor only. -/
theorem gap_congr {A : AccountID} {e e' : LedgerEntry} (hd : e.data = e'.data)
    (hs : e.sponsoringID = e'.sponsoringID) : gap A e = gap A e' := by
  simp only [gap, stored, counted, sponsoringCount, sponsoredCount, subEntryCount, hd, hs]

/-- **Sponsoring an entry** moves its reserve from its gap to the gaps of its sponsor
and its owner. -/
theorem gap_sponsored (A : AccountID) (s : Option AccountID) (d : LedgerEntryData) :
    gap A ⟨d, .v1 s⟩ + sponsoredReserve A s d = gap A ⟨d, .v1 none⟩ := by
  cases s with
  | none => simp [sponsoredReserve]
  | some S =>
    have hstored : stored A ⟨d, .v1 (some S)⟩ = stored A ⟨d, .v1 none⟩ := rfl
    simp only [gap, hstored, counted, sponsoringCount, sponsoredCount, subEntryCount,
      sponsoredReserve, LedgerEntry.sponsoringID, Option.some.injEq, Option.isSome_some,
      Option.isSome_none, and_true, and_false, if_false, Bool.false_eq_true]
    -- the three counters, each with or without the sponsor and the owner being `A`
    refine Prod.ext ?_ (Prod.ext ?_ ?_) <;> by_cases hS : S = A <;>
      by_cases hO : owner d = some A <;> simp [hS, hO] <;> ring

theorem computeMultiplier_eq_ok {le : LedgerEntry} {m : ℕ} (h : computeMultiplier le = .ok m) :
    m = multiplier le.data := by
  obtain ⟨data, ext⟩ := le
  cases data with
  | TRUSTLINE id asset => cases asset <;> simp_all [computeMultiplier, multiplier]
  | _ => simp_all [computeMultiplier, multiplier]

theorem accountIsSponsor_eq_ok {s : Option AccountID} {a : AccountEntry} {u : Unit}
    (h : accountIsSponsor s a = .ok u) : s = some a.accountID := by
  unfold accountIsSponsor at h
  split at h
  · assumption
  · cases h

theorem getLedgerEntryExtensionV1_eq_ok {le : LedgerEntry} {s : Option AccountID}
    (h : getLedgerEntryExtensionV1 le = .ok s) : le.sponsoringID = s := by
  unfold getLedgerEntryExtensionV1 at h
  split at h
  · next s' hext =>
    cases h
    simp [LedgerEntry.sponsoringID, hext]
  · cases h

theorem isSubentry_eq_ok {le : LedgerEntry} {b : Bool} (h : isSubentry le = .ok b) :
    b = subentry le.data := by
  obtain ⟨data, ext⟩ := le
  cases data <;> simp_all [isSubentry, subentry]

/-- The reserve a trustline, an offer or a data entry takes from its owner's
`numSubEntries`. -/
def subEntryReserve (A : AccountID) (d : LedgerEntryData) : ℤ × ℤ × ℤ :=
  if owner d = some A ∧ subentry d = true then (0, 0, (multiplier d : ℤ)) else 0

theorem subentry_of_isAccount {e : LedgerEntry} (h : e.isAccount = true) : subentry e.data = false := by
  obtain ⟨data, ext⟩ := e
  cases data <;> simp_all [LedgerEntry.isAccount, subentry]

/-- An entry with a multiplier that is neither an account nor a claimable balance is a
trustline, an offer or a data entry. -/
theorem subentry_of_computeMultiplier {e : LedgerEntry} {m : ℕ} (ha : e.isAccount = false)
    (hcb : e.isClaimableBalance = false) (hm : computeMultiplier e = .ok m) : subentry e.data = true := by
  obtain ⟨data, ext⟩ := e
  cases data <;> simp_all [LedgerEntry.isAccount, LedgerEntry.isClaimableBalance, subentry,
    computeMultiplier]

/-! ### The frame of a helper -/

/-- The account a reference writes in the ledger: none for the entry the caller holds. -/
def EntryRef.ledgerID : EntryRef → Option AccountID
  | .le => none
  | .account id => some id

@[simp] theorem EntryRef.ledgerID_le : EntryRef.le.ledgerID = none := rfl

@[simp] theorem EntryRef.ledgerID_account (id : AccountID) :
    (EntryRef.account id).ledgerID = some id := rfl

namespace Ltx

variable {w w' w'' : Ltx} {r : EntryRef} {a a' : AccountEntry} {ids ids' : List AccountID}

/-- `w` with the caller's entry sponsored by `s`, as the helpers write it. -/
def setSponsor (w : Ltx) (s : Option AccountID) : Ltx := { w with le := { w.le with ext := .v1 s } }

@[simp] theorem setSponsor_ledger (s : Option AccountID) : (w.setSponsor s).ledger = w.ledger := rfl

@[simp] theorem setSponsor_sponsoringID (s : Option AccountID) :
    (w.setSponsor s).le.sponsoringID = s := rfl

@[simp] theorem getAccount_setSponsor (s : Option AccountID) (r : EntryRef) :
    (w.setSponsor s).getAccount r = w.getAccount r := by
  cases r <;> rfl

@[simp] theorem refID_setSponsor (s : Option AccountID) : (w.setSponsor s).refID = w.refID := rfl

/-- **Changing the sponsor of the entry** from `s` to `s'` trades the reserve one
sponsorship counts for the other's. -/
theorem total_setSponsor {s : Option AccountID} (hs : w.le.sponsoringID = s) (s' : Option AccountID)
    (A : AccountID) :
    (w.setSponsor s').total A + sponsoredReserve A s' w.le.data =
      w.total A + sponsoredReserve A s w.le.data := by
  have hle : gap A w.le = gap A ⟨w.le.data, .v1 s⟩ := gap_congr rfl hs
  simp only [total, setSponsor, add_assoc]
  rw [hle, gap_sponsored, gap_sponsored]

/-- What a helper leaves alone while it changes the counters of the accounts `ids`
and the sponsor of the entry: the entry keeps its key and its alignment, the ledger
keeps its other keys and its well-formed entries, and references name the accounts
they named. -/
structure Frame (ids : List AccountID) (w w' : Ltx) : Prop where
  key : LedgerEntryKey w'.le = LedgerEntryKey w.le
  aligned : (∀ a, w.le.data = .ACCOUNT a → SignersAligned a) →
    ∀ a, w'.le.data = .ACCOUNT a → SignersAligned a
  wellFormed : (∀ b ∈ w.ledger.entries, WellFormed b) → ∀ b ∈ w'.ledger.entries, WellFormed b
  find : ∀ k, (∀ id ∈ ids, k ≠ .ACCOUNT id) → w'.ledger.find k = w.ledger.find k
  refID : w'.refID = w.refID

theorem Frame.refl (ids : List AccountID) (w : Ltx) : Frame ids w w :=
  ⟨rfl, id, id, fun _ _ => rfl, rfl⟩

theorem Frame.trans (h : Frame ids w w') (h' : Frame ids' w' w'') : Frame (ids ++ ids') w w'' where
  key := h'.key.trans h.key
  aligned hw := h'.aligned (h.aligned hw)
  wellFormed hw := h'.wellFormed (h.wellFormed hw)
  find k hk := by
    rw [h'.find k fun id hid => hk id (List.mem_append_right _ hid),
      h.find k fun id hid => hk id (List.mem_append_left _ hid)]
  refID := h'.refID.trans h.refID

theorem Frame.mono (h : Frame ids w w') (hsub : ids ⊆ ids') : Frame ids' w w' :=
  { h with find := fun k hk => h.find k fun id hid => hk id (hsub hid) }

theorem frame_setSponsor (s : Option AccountID) : Frame [] w (w.setSponsor s) :=
  ⟨rfl, id, id, fun _ _ => rfl, rfl⟩

/-- Changing the counters of a reference's account is in the frame of the ledger account
it writes. -/
theorem frame_setAccount (ha : w.getAccount r = .ok a) (hc : CountersOnly a a') :
    Frame r.ledgerID.toList w (w.setAccount r a') := by
  cases r with
  | le =>
    have hle := getAccount_le_eq_ok.mp ha
    refine ⟨?_, ?_, id, fun _ _ => rfl, refID_setAccount ha hc.accountID⟩
    · simp [setAccount, LedgerEntryKey, hle, hc.accountID]
    · intro hw b hb
      cases hb
      exact hc.aligned (hw a hle)
  | account i =>
    obtain ⟨e, hf, he, haid⟩ := getAccount_account_eq_ok ha
    refine ⟨rfl, fun h => h, fun hw => ?_, fun k hk => ?_, refID_setAccount ha hc.accountID⟩
    · have hmem := (Ledger.mem_of_find hf).1
      exact Ledger.wellFormed_setAccount hw hf (hc.aligned ((hw e hmem).1 a he))
    · refine find_setAccount_ne ha hc.accountID fun j hj => ?_
      cases hj
      exact hk _ (List.mem_singleton_self _)

end Ltx

/-! ### The entry helpers -/

open Ltx

variable {w w' : Ltx}

/-- **`establishEntrySponsorship`** moves the reserve of an unsponsored entry to its
new sponsor `S` and to its owner, the account `sponsoredAcc` names. -/
theorem establishEntrySponsorship_spec {S : AccountID} {sd : Option EntryRef}
    (h : establishEntrySponsorship w (.account S) sd = .ok w')
    (hnone : w.le.sponsoringID = none) (hsd : sd.bind w.refID = owner w.le.data) :
    (∀ A, w'.total A = w.total A) ∧ w'.le.sponsoringID = some S ∧
      Frame (S :: (sd.bind EntryRef.ledgerID).toList) w w' := by
  obtain ⟨m, hm, h⟩ := Except.bind_eq_ok.mp h
  obtain ⟨a, ha, h⟩ := Except.bind_eq_ok.mp h
  obtain ⟨w1, h1, h⟩ := Except.bind_eq_ok.mp h
  obtain ⟨a1, a1', ha1, hf1, rfl⟩ := modifyAccount_eq_ok (w := w.setSponsor (some a.accountID)) h1
  rw [getAccount_setSponsor, ha] at ha1
  cases ha1
  cases hf1
  obtain ⟨-, -, -, hS⟩ := getAccount_account_eq_ok ha
  subst hS
  have hm' := computeMultiplier_eq_ok hm
  subst hm'
  have ha1 : (w.setSponsor (some a.accountID)).getAccount (.account a.accountID) = .ok a := by
    rw [getAccount_setSponsor, ha]
  have hc := countersOnly_updatePreparedExtV2 a
    (g := fun x => { x with numSponsoring := x.numSponsoring + multiplier w.le.data }) fun _ => rfl
  -- the sponsor is set and its count goes up: what is left is the owner's count
  have htot1 : ∀ A, ((w.setSponsor (some a.accountID)).setAccount (.account a.accountID)
      (updatePreparedExtV2 (fun x => { x with numSponsoring := x.numSponsoring + multiplier w.le.data }) a)).total A +
      (if owner w.le.data = some A then (0, (multiplier w.le.data : ℤ), 0) else 0) = w.total A := by
    intro A
    have h1 := total_setAccount ha1 hc A
    have h2 := total_setSponsor hnone (some a.accountID) A
    rw [storedCounters_addSponsoring] at h1
    simp only [sponsoredReserve, add_zero] at h2
    rw [h1, ← h2]
    abel
  have hfr1 := (frame_setSponsor (w := w) (some a.accountID)).trans (frame_setAccount ha1 hc)
  cases sd with
  | none =>
    cases h
    refine ⟨fun A => ?_, rfl, hfr1.mono (by simp)⟩
    rw [← htot1 A]
    simp [← hsd]
  | some r =>
    obtain ⟨a2, a2', ha2, hf2, rfl⟩ := modifyAccount_eq_ok h
    cases hf2
    have hc2 := countersOnly_updatePreparedExtV2 a2
      (g := fun x => { x with numSponsored := x.numSponsored + multiplier w.le.data }) fun _ => rfl
    have hown : owner w.le.data = some a2.accountID := by
      rw [← hsd, Option.bind_some, ← hfr1.refID]
      exact refID_of_getAccount ha2
    refine ⟨fun A => ?_, ?_, ?_⟩
    · rw [total_setAccount ha2 hc2, storedCounters_addSponsored, ← htot1 A, hown]
      by_cases hA : a2.accountID = A <;> simp [hA]
    · cases r <;> rfl
    · refine (hfr1.trans (frame_setAccount ha2 hc2)).mono ?_
      simp

/-- **`removeEntrySponsorship`** gives the reserve of an entry sponsored by `S` back to
the entry; the counters it lowers hold the reserve, as the callers' checks make sure. -/
theorem removeEntrySponsorship_spec {S : AccountID} {sd : Option EntryRef}
    (h : removeEntrySponsorship w (.account S) sd = .ok w')
    (hsd : sd.bind w.refID = owner w.le.data)
    (hsp : ∀ a, w.getAccount (.account S) = .ok a → multiplier w.le.data ≤ getNumSponsoring a)
    (hsd' : ∀ r ∈ sd, ∀ a, w.getAccount r = .ok a → multiplier w.le.data ≤ getNumSponsored a)
    (hne : ∀ r ∈ sd, r ≠ .account S) :
    (∀ A, w'.total A = w.total A) ∧ w.le.sponsoringID = some S ∧ w'.le.sponsoringID = none ∧
      Frame (S :: (sd.bind EntryRef.ledgerID).toList) w w' := by
  obtain ⟨s, hs, h⟩ := Except.bind_eq_ok.mp h
  obtain ⟨a, ha, h⟩ := Except.bind_eq_ok.mp h
  obtain ⟨u, hu, h⟩ := Except.bind_eq_ok.mp h
  obtain ⟨m, hm, h⟩ := Except.bind_eq_ok.mp h
  obtain ⟨w1, h1, h⟩ := Except.bind_eq_ok.mp h
  obtain ⟨a1, a1', ha1, hf1, rfl⟩ := modifyAccount_eq_ok (w := w.setSponsor none) h1
  rw [getAccount_setSponsor, ha] at ha1
  cases ha1
  obtain ⟨-, -, -, hS⟩ := getAccount_account_eq_ok ha
  subst hS
  have hsp' : w.le.sponsoringID = some a.accountID :=
    (getLedgerEntryExtensionV1_eq_ok hs).trans (accountIsSponsor_eq_ok hu)
  have hm' : m = multiplier w.le.data := computeMultiplier_eq_ok hm
  subst hm'
  have ha1 : (w.setSponsor none).getAccount (.account a.accountID) = .ok a := by
    rw [getAccount_setSponsor, ha]
  have hc := countersOnly_updateExtV2 (fun _ _ h => by cases h; rfl) hf1
  -- the sponsorship is gone and the sponsor's count goes down: what is left is the owner's
  have htot1 : ∀ A, ((w.setSponsor none).setAccount (.account a.accountID) a1').total A =
      w.total A + (if owner w.le.data = some A then (0, (multiplier w.le.data : ℤ), 0) else 0) := by
    intro A
    have h1 := total_setAccount_sub ha1 hc A
    have h2 := total_setSponsor hsp' none A
    rw [storedCounters_subSponsoring hf1 (hsp a ha)] at h1
    simp only [sponsoredReserve, add_zero] at h2
    rw [← h1] at h2
    rw [eq_sub_of_add_eq h2]
    abel
  have hfr1 := (frame_setSponsor (w := w) none).trans (frame_setAccount ha1 hc)
  cases sd with
  | none =>
    cases h
    refine ⟨fun A => ?_, hsp', rfl, hfr1.mono (by simp)⟩
    rw [htot1 A]
    simp [← hsd]
  | some r =>
    obtain ⟨a2, a2', ha2, hf2, rfl⟩ := modifyAccount_eq_ok h
    have hc2 := countersOnly_updateExtV2 (fun _ _ h => by cases h; rfl) hf2
    have ha2w : w.getAccount r = .ok a2 := by
      rwa [getAccount_setAccount_ne ha1 hc.accountID (hne r rfl), getAccount_setSponsor] at ha2
    have hown : owner w.le.data = some a2.accountID := by
      rw [← hsd, Option.bind_some, ← hfr1.refID]
      exact refID_of_getAccount ha2
    refine ⟨fun A => ?_, hsp', ?_, ?_⟩
    · have h2 := total_setAccount_sub ha2 hc2 A
      rw [storedCounters_subSponsored hf2 (hsd' r rfl a2 ha2w), htot1 A, hown] at h2
      simp only [Option.some.injEq] at h2
      rw [eq_sub_of_add_eq h2]
      abel
    · cases r <;> rfl
    · refine (hfr1.trans (frame_setAccount ha2 hc2)).mono ?_
      simp

/-- **`transferEntrySponsorship`** moves the reserve of an entry from its sponsor `S` to
`N`; the owner's count stays. -/
theorem transferEntrySponsorship_spec {S N : AccountID}
    (h : transferEntrySponsorship w (.account S) (.account N) = .ok w')
    (hsp : ∀ a, w.getAccount (.account S) = .ok a → multiplier w.le.data ≤ getNumSponsoring a)
    (hne : N ≠ S) :
    (∀ A, w'.total A = w.total A) ∧ w.le.sponsoringID = some S ∧ w'.le.sponsoringID = some N ∧
      Frame [N, S] w w' := by
  obtain ⟨s, hs, h⟩ := Except.bind_eq_ok.mp h
  obtain ⟨a, ha, h⟩ := Except.bind_eq_ok.mp h
  obtain ⟨u, hu, h⟩ := Except.bind_eq_ok.mp h
  obtain ⟨m, hm, h⟩ := Except.bind_eq_ok.mp h
  obtain ⟨b, hb, h⟩ := Except.bind_eq_ok.mp h
  obtain ⟨w1, h1, h⟩ := Except.bind_eq_ok.mp h
  obtain ⟨b1, b1', hb1, hf1, rfl⟩ := modifyAccount_eq_ok (w := w.setSponsor (some b.accountID)) h1
  obtain ⟨a2, a2', ha2, hf2, rfl⟩ := modifyAccount_eq_ok h
  rw [getAccount_setSponsor, hb] at hb1
  cases hb1
  cases hf1
  obtain ⟨-, -, -, hS⟩ := getAccount_account_eq_ok ha
  obtain ⟨-, -, -, hN⟩ := getAccount_account_eq_ok hb
  subst hS hN
  have hsp' : w.le.sponsoringID = some a.accountID :=
    (getLedgerEntryExtensionV1_eq_ok hs).trans (accountIsSponsor_eq_ok hu)
  have hm' : m = multiplier w.le.data := computeMultiplier_eq_ok hm
  subst hm'
  have hb1 : (w.setSponsor (some b.accountID)).getAccount (.account b.accountID) = .ok b := by
    rw [getAccount_setSponsor, hb]
  have hc1 := countersOnly_updatePreparedExtV2 b
    (g := fun x => { x with numSponsoring := x.numSponsoring + multiplier w.le.data }) fun _ => rfl
  -- the old sponsor's account is loaded after the new one's is written: it is unchanged
  have ha2w : a2 = a := by
    rw [getAccount_setAccount_ne hb1 hc1.accountID (by simpa using hne.symm),
      getAccount_setSponsor, ha] at ha2
    cases ha2
    rfl
  subst ha2w
  have hc2 := countersOnly_updateExtV2 (fun _ _ h => by cases h; rfl) hf2
  refine ⟨fun A => ?_, hsp', rfl, ?_⟩
  · have h1 := total_setAccount hb1 hc1 A
    have h2 := total_setAccount_sub ha2 hc2 A
    have h3 := total_setSponsor hsp' (some b.accountID) A
    rw [storedCounters_addSponsoring] at h1
    rw [storedCounters_subSponsoring hf2 (hsp a2 ha)] at h2
    simp only [sponsoredReserve] at h3
    rw [h1, eq_sub_of_add_eq h3] at h2
    rw [eq_sub_of_add_eq h2]
    abel
  · exact ((frame_setSponsor _).trans (frame_setAccount hb1 hc1)).trans (frame_setAccount ha2 hc2)

/-- **`createEntryWithoutSponsorship`** charges a new subentry's reserve to its owner,
the account `acc` names. -/
theorem createEntryWithoutSponsorship_spec {r : EntryRef}
    (h : createEntryWithoutSponsorship w r = .ok w')
    (hr : subentry w.le.data = true → w.refID r = owner w.le.data) :
    (∀ A, w'.total A = w.total A + subEntryReserve A w.le.data) ∧ w'.le = w.le ∧
      Frame r.ledgerID.toList w w' := by
  obtain ⟨b, hb, h⟩ := Except.bind_eq_ok.mp h
  rw [isSubentry_eq_ok hb] at h
  cases hsub : subentry w.le.data with
  | false =>
    rw [hsub] at h
    cases h
    refine ⟨fun A => ?_, rfl, Frame.refl _ _⟩
    simp [subEntryReserve, hsub]
  | true =>
    rw [hsub, if_pos rfl] at h
    obtain ⟨m, hm, h⟩ := Except.bind_eq_ok.mp h
    obtain ⟨a, a', ha, hf, rfl⟩ := modifyAccount_eq_ok h
    cases hf
    have hm' := computeMultiplier_eq_ok hm
    subst hm'
    have hc := countersOnly_numSubEntries a (a.numSubEntries + multiplier w.le.data)
    have hown : owner w.le.data = some a.accountID := (hr hsub).symm.trans (refID_of_getAccount ha)
    refine ⟨fun A => ?_, ?_, ?_⟩
    · rw [total_setAccount ha hc, storedCounters_addSubEntries]
      simp only [subEntryReserve, hown, hsub, Option.some.injEq, and_true]
    · have : r ≠ .le := by
        rintro rfl
        -- a subentry is not an account, so `.le` does not load
        have hle := getAccount_le_eq_ok.mp ha
        simp [hle, subentry] at hsub
      cases r
      · exact absurd rfl this
      · rfl
    · exact frame_setAccount ha hc

/-- **`removeEntryWithoutSponsorship`** gives a subentry's reserve back from its owner's
`numSubEntries`. The helper lowers `acc`'s count for every entry that is not an
account, so the statement is for entries that are not claimable balances. -/
theorem removeEntryWithoutSponsorship_spec {r : EntryRef}
    (h : removeEntryWithoutSponsorship w r = .ok w')
    (hcb : w.le.isClaimableBalance = false)
    (hr : w.le.isAccount = false → w.refID r = owner w.le.data)
    (hsub : w.le.isAccount = false → ∀ a, w.getAccount r = .ok a →
      multiplier w.le.data ≤ a.numSubEntries) :
    (∀ A, w'.total A + subEntryReserve A w.le.data = w.total A) ∧ w'.le = w.le ∧
      Frame r.ledgerID.toList w w' ∧
      (w' = w ∨ ∃ a, w.getAccount r = .ok a ∧
        w' = w.setAccount r { a with numSubEntries := a.numSubEntries - multiplier w.le.data }) := by
  cases hacc : w.le.isAccount with
  | true =>
    simp only [removeEntryWithoutSponsorship, hacc, Bool.not_true, Bool.false_eq_true, if_false,
      Except.pure_eq_ok] at h
    cases h
    refine ⟨fun A => by simp [subEntryReserve, subentry_of_isAccount hacc], rfl, Frame.refl _ _,
      .inl rfl⟩
  | false =>
    simp only [removeEntryWithoutSponsorship, hacc, Bool.not_false, if_true] at h
    obtain ⟨m, hm, h⟩ := Except.bind_eq_ok.mp h
    obtain ⟨a, a', ha, hf, rfl⟩ := modifyAccount_eq_ok h
    cases hf
    have hm' := computeMultiplier_eq_ok hm
    subst hm'
    have hc := countersOnly_numSubEntries a (a.numSubEntries - multiplier w.le.data)
    -- neither an account nor a claimable balance: a subentry of the account `r` names
    have hsubentry := subentry_of_computeMultiplier hacc hcb hm
    have hown : owner w.le.data = some a.accountID := (hr hacc).symm.trans (refID_of_getAccount ha)
    refine ⟨fun A => ?_, ?_, ?_, .inr ⟨a, ha, rfl⟩⟩
    · rw [← total_setAccount_sub ha hc A, storedCounters_subSubEntries (hsub hacc a ha)]
      simp only [subEntryReserve, hown, hsubentry, Option.some.injEq, and_true]
    · have : r ≠ .le := by
        rintro rfl
        have hle := getAccount_le_eq_ok.mp ha
        simp [hle, LedgerEntry.isAccount] at hacc
      cases r
      · exact absurd rfl this
      · rfl
    · exact frame_setAccount ha hc

/-- **`createEntryWithSponsorship`**: a new entry's reserve is paid by its sponsor `S`
and counted for its owner. -/
theorem createEntryWithSponsorship_spec {S : AccountID} {sd : Option EntryRef}
    (h : createEntryWithSponsorship w (.account S) sd = .ok w')
    (hnone : w.le.sponsoringID = none) (hsd : sd.bind w.refID = owner w.le.data) :
    (∀ A, w'.total A = w.total A + subEntryReserve A w.le.data) ∧ w'.le.sponsoringID = some S ∧
      Frame (S :: (sd.bind EntryRef.ledgerID).toList) w w' := by
  unfold createEntryWithSponsorship at h
  cases sd with
  | none =>
    -- a claimable balance: no owner, only the sponsorship
    simp only [pure_bind] at h
    have hown : owner w.le.data = none := hsd.symm
    obtain ⟨htot, hsp, hfr⟩ := establishEntrySponsorship_spec h hnone hsd
    exact ⟨fun A => by simp [htot, subEntryReserve, hown], hsp, hfr⟩
  | some r =>
    -- the reserve the subentry takes from its owner, then the sponsorship
    obtain ⟨w1, h1, h⟩ := Except.bind_eq_ok.mp h
    obtain ⟨htot1, hle1, hfr1⟩ := createEntryWithoutSponsorship_spec h1 fun _ => hsd
    obtain ⟨htot2, hsp2, hfr2⟩ := establishEntrySponsorship_spec h (hle1 ▸ hnone)
      (by rw [hfr1.refID, hle1, hsd])
    refine ⟨fun A => by rw [htot2, htot1], hsp2, (hfr1.trans hfr2).mono ?_⟩
    intro x hx
    simp only [Option.bind_some, List.mem_append, List.mem_cons] at hx ⊢
    tauto

/-- **`removeEntryWithSponsorship`**: the reserve of an entry sponsored by `S` leaves
`S`'s and its owner's counts. -/
theorem removeEntryWithSponsorship_spec {S : AccountID} {sd : Option EntryRef}
    (h : removeEntryWithSponsorship w (.account S) sd = .ok w')
    (hcb : ∀ r ∈ sd, w.le.isClaimableBalance = false)
    (hsd : sd.bind w.refID = owner w.le.data)
    (hsp : ∀ a, w.getAccount (.account S) = .ok a → multiplier w.le.data ≤ getNumSponsoring a)
    (hsd' : ∀ r ∈ sd, ∀ a, w.getAccount r = .ok a → multiplier w.le.data ≤ getNumSponsored a ∧
      (w.le.isAccount = false → multiplier w.le.data ≤ a.numSubEntries))
    (hne : ∀ r ∈ sd, r ≠ .account S) :
    (∀ A, w'.total A + subEntryReserve A w.le.data = w.total A) ∧ w.le.sponsoringID = some S ∧
      w'.le.sponsoringID = none ∧ Frame (S :: (sd.bind EntryRef.ledgerID).toList) w w' := by
  unfold removeEntryWithSponsorship at h
  cases sd with
  | none =>
    simp only [pure_bind] at h
    have hown : owner w.le.data = none := hsd.symm
    obtain ⟨htot, hsp', hnone, hfr⟩ := removeEntrySponsorship_spec h hsd hsp (by simp) (by simp)
    exact ⟨fun A => by simp [htot, subEntryReserve, hown], hsp', hnone, hfr⟩
  | some r =>
    obtain ⟨w1, h1, h⟩ := Except.bind_eq_ok.mp h
    obtain ⟨htot1, hle1, hfr1, hw1⟩ := removeEntryWithoutSponsorship_spec h1 (hcb r rfl)
      (fun _ => hsd) fun hacc a ha => (hsd' r rfl a ha).2 hacc
    -- the sponsor's account is not `r`'s, and `r`'s keeps its `numSponsored`
    have hS : w1.getAccount (.account S) = w.getAccount (.account S) := by
      rcases hw1 with rfl | ⟨a, ha, rfl⟩
      · rfl
      · exact getAccount_setAccount_ne ha rfl (hne r rfl).symm
    have hr : ∀ a1, w1.getAccount r = .ok a1 → multiplier w.le.data ≤ getNumSponsored a1 := by
      intro a1 ha1
      rcases hw1 with rfl | ⟨a, ha, rfl⟩
      · exact (hsd' r rfl a1 ha1).1
      · set a2 : AccountEntry := { a with numSubEntries := a.numSubEntries - multiplier w.le.data }
        have hself : (w.setAccount r a2).getAccount r = .ok a2 := getAccount_setAccount_self ha rfl
        rw [hself] at ha1
        rw [← Except.ok.inj ha1]
        exact (hsd' r rfl a ha).1
    obtain ⟨htot2, hsp2, hnone, hfr2⟩ := removeEntrySponsorship_spec h
      (by rw [hfr1.refID, hle1, hsd]) (fun a ha => hle1 ▸ hsp a (hS ▸ ha))
      (fun r' hr' a ha => by cases hr'; exact hle1 ▸ hr a ha) (fun r' hr' => by cases hr'; exact hne r rfl)
    refine ⟨fun A => by rw [htot2]; exact htot1 A, hle1 ▸ hsp2, hnone, (hfr1.trans hfr2).mono ?_⟩
    intro x hx
    simp only [Option.bind_some, List.mem_append, List.mem_cons] at hx ⊢
    tauto

/-! ### Signers

A signer's sponsor sits at the signer's position in `signerSponsoringIDs`; the helpers
set, insert and erase at that position. -/

section signerLists

variable {α : Type*} {l : List α} {n : ℕ}

theorem count_set_add [BEq α] [LawfulBEq α] {o v : α} (hn : l[n]? = some o) (b : α) :
    (l.set n v).count b + (if (o == b) = true then 1 else 0) =
      l.count b + (if (v == b) = true then 1 else 0) := by
  obtain ⟨hlt, rfl⟩ := List.getElem?_eq_some_iff.mp hn
  rw [List.count_set hlt]
  by_cases hb : (l[n] == b) = true
  · have hpos : 0 < l.count b :=
      List.count_pos_iff.mpr (beq_iff_eq.mp hb ▸ List.getElem_mem hlt)
    simp only [hb, if_true]
    omega
  · simp [hb]

theorem countP_set_add {p : α → Bool} {o v : α} (hn : l[n]? = some o) :
    (l.set n v).countP p + (if p o then 1 else 0) = l.countP p + (if p v then 1 else 0) := by
  obtain ⟨hlt, rfl⟩ := List.getElem?_eq_some_iff.mp hn
  rw [List.countP_set hlt]
  by_cases hb : p l[n] = true
  · have hpos : 0 < l.countP p := List.countP_pos_iff.mpr ⟨l[n], List.getElem_mem hlt, hb⟩
    simp only [hb, if_true]
    omega
  · simp [hb]

theorem count_insertIdx [BEq α] [LawfulBEq α] {x : α} (hn : n ≤ l.length) (b : α) :
    (l.insertIdx n x).count b = l.count b + if (x == b) = true then 1 else 0 := by
  rw [(List.perm_insertIdx x l hn).count_eq, List.count_cons]

theorem countP_insertIdx {p : α → Bool} {x : α} (hn : n ≤ l.length) :
    (l.insertIdx n x).countP p = l.countP p + if p x then 1 else 0 := by
  rw [(List.perm_insertIdx x l hn).countP_eq, List.countP_cons]

theorem count_eraseIdx [BEq α] [LawfulBEq α] {o : α} (hn : l[n]? = some o) (b : α) :
    (l.eraseIdx n).count b + (if (o == b) = true then 1 else 0) = l.count b := by
  obtain ⟨hlt, rfl⟩ := List.getElem?_eq_some_iff.mp hn
  rw [← (List.getElem_cons_eraseIdx_perm hlt).count_eq b, List.count_cons]

theorem countP_eraseIdx {p : α → Bool} {o : α} (hn : l[n]? = some o) :
    (l.eraseIdx n).countP p + (if p o then 1 else 0) = l.countP p := by
  obtain ⟨hlt, rfl⟩ := List.getElem?_eq_some_iff.mp hn
  rw [← (List.getElem_cons_eraseIdx_perm hlt).countP_eq p, List.countP_cons]

end signerLists

section prepared

variable (a : AccountEntry)

theorem signersSponsoredBy_eq_prepared (B : AccountID) :
    signersSponsoredBy B a = (prepareAccountEntryExtensionV2 a).signerSponsoringIDs.count (some B) := by
  cases hx : a.extV2 <;>
    simp [signersSponsoredBy, prepareAccountEntryExtensionV2, hx, List.count_replicate]

theorem sponsoredSigners_eq_prepared :
    sponsoredSigners a = (prepareAccountEntryExtensionV2 a).signerSponsoringIDs.countP Option.isSome := by
  cases hx : a.extV2 <;>
    simp [sponsoredSigners, prepareAccountEntryExtensionV2, hx, List.countP_replicate]

theorem getNumSponsored_eq_prepared :
    getNumSponsored a = (prepareAccountEntryExtensionV2 a).numSponsored := by
  cases hx : a.extV2 <;> simp [getNumSponsored, prepareAccountEntryExtensionV2, hx]

theorem getNumSponsoring_eq_prepared :
    getNumSponsoring a = (prepareAccountEntryExtensionV2 a).numSponsoring := by
  cases hx : a.extV2 <;> simp [getNumSponsoring, prepareAccountEntryExtensionV2, hx]

/-! The counts of an account whose extension is `x`. -/

@[simp] theorem getNumSponsoring_withExt (x : AccountEntryExtensionV2) :
    getNumSponsoring { a with extV2 := some x } = x.numSponsoring := rfl

@[simp] theorem getNumSponsored_withExt (x : AccountEntryExtensionV2) :
    getNumSponsored { a with extV2 := some x } = x.numSponsored := rfl

@[simp] theorem sponsoredSigners_withExt (x : AccountEntryExtensionV2) :
    sponsoredSigners { a with extV2 := some x } = x.signerSponsoringIDs.countP Option.isSome := rfl

@[simp] theorem signersSponsoredBy_withExt (B : AccountID) (x : AccountEntryExtensionV2) :
    signersSponsoredBy B { a with extV2 := some x } = x.signerSponsoringIDs.count (some B) := rfl

theorem length_prepared {a : AccountEntry} (h : SignersAligned a) :
    (prepareAccountEntryExtensionV2 a).signerSponsoringIDs.length = a.signers.length := by
  cases hx : a.extV2 with
  | none => simp [prepareAccountEntryExtensionV2, hx]
  | some x => simpa [prepareAccountEntryExtensionV2, hx] using h x hx

end prepared

/-- **The gap of an account that changes**: the change of its counters, less the
change of the reserves of its signers it counts. -/
theorem gap_account_sub (A : AccountID) (a a' : AccountEntry) (ext : LedgerEntryExt)
    (hid : a'.accountID = a.accountID) :
    gap A ⟨.ACCOUNT a', ext⟩ - gap A ⟨.ACCOUNT a, ext⟩ =
      (if a.accountID = A then storedCounters a' - storedCounters a -
        (0, (sponsoredSigners a' : ℤ) - sponsoredSigners a, (a'.signers.length : ℤ) - a.signers.length)
        else 0) -
      ((signersSponsoredBy A a' : ℤ) - signersSponsoredBy A a, 0, 0) := by
  -- both entries carry the sponsor of `ext`
  have hs : (⟨.ACCOUNT a', ext⟩ : LedgerEntry).sponsoringID =
      (⟨.ACCOUNT a, ext⟩ : LedgerEntry).sponsoringID := rfl
  rw [gap_account, gap_account, hid]
  simp only [hs]
  by_cases h : a.accountID = A
  · simp only [if_pos h]
    refine Prod.ext ?_ (Prod.ext ?_ ?_) <;> simp <;> abel
  · -- only the signers of `a` that `A` sponsors
    simp only [if_neg h]
    refine Prod.ext ?_ (Prod.ext ?_ ?_)
    · simp
      abel
    · simp
    · simp

/-- **Sponsoring signer `n`** of `a` by `S`: `a` counts one more sponsored signer and
`S` is counted one more sponsored signer. -/
theorem gap_establishSigner (A : AccountID) (a : AccountEntry) (ext : LedgerEntryExt) {n : ℕ}
    {S : AccountID} (hn : (prepareAccountEntryExtensionV2 a).signerSponsoringIDs[n]? = some none) :
    gap A ⟨.ACCOUNT { a with extV2 := some { prepareAccountEntryExtensionV2 a with
        signerSponsoringIDs := (prepareAccountEntryExtensionV2 a).signerSponsoringIDs.set n (some S)
        numSponsored := (prepareAccountEntryExtensionV2 a).numSponsored + 1 } }, ext⟩ +
      (if S = A then (1, 0, 0) else 0) = gap A ⟨.ACCOUNT a, ext⟩ := by
  have hsig := countP_set_add (p := Option.isSome) (v := some S) hn
  have hby := count_set_add (v := some S) hn (some A)
  rw [← sub_eq_zero, add_sub_right_comm]
  refine (congrArg (· + _) (gap_account_sub A a _ ext ?_)).trans ?_
  · rfl
  simp only [Option.isSome_none, Option.isSome_some, Bool.false_eq_true, if_false, if_true,
    add_zero, beq_iff_eq, reduceCtorEq, Option.some.injEq] at hsig hby
  simp only [storedCounters, getNumSponsoring_eq_prepared a, getNumSponsored_eq_prepared a,
    sponsoredSigners_eq_prepared a, signersSponsoredBy_eq_prepared a, getNumSponsoring_withExt,
    getNumSponsored_withExt, sponsoredSigners_withExt, signersSponsoredBy_withExt, hsig, hby]
  by_cases hS : S = A <;> simp [hS]

/-- **Ending the sponsorship of signer `n`** of `a` by `S`. -/
theorem gap_removeSigner (A : AccountID) (a : AccountEntry) (ext : LedgerEntryExt)
    {x : AccountEntryExtensionV2} {n : ℕ} {S : AccountID} (hx : a.extV2 = some x)
    (hn : x.signerSponsoringIDs[n]? = some (some S)) (hsd : 1 ≤ x.numSponsored) :
    gap A ⟨.ACCOUNT { a with extV2 := some { x with
        signerSponsoringIDs := x.signerSponsoringIDs.set n none
        numSponsored := x.numSponsored - 1 } }, ext⟩ =
      gap A ⟨.ACCOUNT a, ext⟩ + (if S = A then (1, 0, 0) else 0) := by
  have hsig := countP_set_add (p := Option.isSome) (v := none) hn
  have hby := count_set_add (v := none) hn (some A)
  simp only [Option.isSome_none, Option.isSome_some, Bool.false_eq_true, if_false, if_true,
    add_zero, beq_iff_eq, reduceCtorEq, Option.some.injEq] at hsig hby
  rw [← sub_eq_zero, sub_add_eq_sub_sub]
  refine (congrArg (· - _) (gap_account_sub A a _ ext ?_)).trans ?_
  · rfl
  simp only [storedCounters, getNumSponsoring, getNumSponsored, sponsoredSigners,
    signersSponsoredBy, hx]
  by_cases hS : S = A <;> by_cases hA : a.accountID = A <;>
    simp [hS, hA, Nat.cast_sub hsd] at hby ⊢ <;> omega

/-- **Moving the sponsorship of signer `n`** of `a` from `O` to `N`. -/
theorem gap_transferSigner (A : AccountID) (a : AccountEntry) (ext : LedgerEntryExt)
    {x : AccountEntryExtensionV2} {n : ℕ} {O N : AccountID} (hx : a.extV2 = some x)
    (hn : x.signerSponsoringIDs[n]? = some (some O)) :
    gap A ⟨.ACCOUNT { a with extV2 := some { x with
        signerSponsoringIDs := x.signerSponsoringIDs.set n (some N) } }, ext⟩ +
        (if N = A then (1, 0, 0) else 0) =
      gap A ⟨.ACCOUNT a, ext⟩ + (if O = A then (1, 0, 0) else 0) := by
  have hsig := countP_set_add (p := Option.isSome) (v := some N) hn
  have hby := count_set_add (v := some N) hn (some A)
  simp only [Option.isSome_some, if_true, add_left_inj, beq_iff_eq, Option.some.injEq] at hsig hby
  rw [← sub_eq_zero, add_sub_add_comm]
  refine (congrArg (· + _) (gap_account_sub A a _ ext ?_)).trans ?_
  · rfl
  simp only [storedCounters, getNumSponsoring, getNumSponsored, sponsoredSigners,
    signersSponsoredBy, hx]
  by_cases hN : N = A <;> by_cases hO : O = A <;> by_cases hA : a.accountID = A <;>
    simp [hN, hO, hA] at hby hsig ⊢ <;> omega

/-- **Adding signer `n`** to `a`, with no sponsor: one more subentry to count. -/
theorem gap_insertSigner (A : AccountID) (a : AccountEntry) (ext : LedgerEntryExt) {n : ℕ}
    {s : SignerKey} (ha : SignersAligned a) (hn : n ≤ a.signers.length) :
    gap A ⟨.ACCOUNT { a with
        signers := a.signers.insertIdx n s
        extV2 := a.extV2.map fun x =>
          { x with signerSponsoringIDs := x.signerSponsoringIDs.insertIdx n none } }, ext⟩ +
        (if a.accountID = A then (0, 0, 1) else 0) = gap A ⟨.ACCOUNT a, ext⟩ := by
  rw [← sub_eq_zero, add_sub_right_comm]
  refine (congrArg (· + _) (gap_account_sub A a _ ext ?_)).trans ?_
  · rfl
  cases hx : a.extV2 with
  | none =>
    by_cases hA : a.accountID = A <;>
      simp [hA, hx, hn, storedCounters, getNumSponsoring, getNumSponsored, sponsoredSigners,
        signersSponsoredBy, List.length_insertIdx]
  | some x =>
    have hlen : n ≤ x.signerSponsoringIDs.length := (ha x hx).symm ▸ hn
    by_cases hA : a.accountID = A <;>
      simp [hA, hx, hn, storedCounters, getNumSponsoring, getNumSponsoring, getNumSponsored,
        sponsoredSigners, signersSponsoredBy, List.length_insertIdx, count_insertIdx hlen,
        countP_insertIdx hlen]

/-- **Removing an unsponsored signer `n`** of `a`, with its subentry. -/
theorem gap_eraseSigner (A : AccountID) (a : AccountEntry) (ext : LedgerEntryExt) {n : ℕ}
    (hn : n < a.signers.length)
    (hnone : (prepareAccountEntryExtensionV2 a).signerSponsoringIDs[n]? = some none)
    (hsub : 1 ≤ a.numSubEntries) :
    gap A ⟨.ACCOUNT { a with
        numSubEntries := a.numSubEntries - 1
        extV2 := a.extV2.map fun x =>
          { x with signerSponsoringIDs := x.signerSponsoringIDs.eraseIdx n }
        signers := a.signers.eraseIdx n }, ext⟩ = gap A ⟨.ACCOUNT a, ext⟩ := by
  rw [← sub_eq_zero]
  refine (gap_account_sub A a _ ext ?_).trans ?_
  · rfl
  cases hx : a.extV2 with
  | none =>
    by_cases hA : a.accountID = A
    · simp [hA, hx, hn, storedCounters, getNumSponsoring, getNumSponsored, sponsoredSigners,
        signersSponsoredBy, List.length_eraseIdx, Nat.cast_sub hsub]
      omega
    · simp [hA, hx, signersSponsoredBy]
  | some x =>
    simp only [prepareAccountEntryExtensionV2, hx, Option.getD_some] at hnone
    have hby := count_eraseIdx hnone (some A)
    have hsig := countP_eraseIdx (p := Option.isSome) hnone
    simp at hby hsig
    by_cases hA : a.accountID = A
    · simp [hA, hx, hn, storedCounters, getNumSponsoring, getNumSponsored, sponsoredSigners,
        signersSponsoredBy, List.length_eraseIdx, Nat.cast_sub hsub, hby, hsig]
      omega
    · simp [hA, hx, signersSponsoredBy, hby]

/-! ### Signer helpers

`establishSignerSponsorship`, `removeSignerSponsorship`, `transferSignerSponsorship` and
the four ways of creating or removing a signer, each as the change it makes to the totals
of `gap`. Every caller loads the accounts it names through `loadAccount`, so the accounts
are distinct where a statement asks it. -/

section signerHelpers

variable {L L' : Ledger}

theorem Ledger.total_setAccount_countersOnly {id : AccountID} {a a' : AccountEntry}
    (ha : L.getAccount id = .ok a) (hc : CountersOnly a a') (A : AccountID) :
    total (L.setAccount id a').entries A =
      total L.entries A + if a.accountID = A then storedCounters a' - storedCounters a else 0 := by
  obtain ⟨ext, h⟩ := Ledger.total_setAccount_gap ha hc.accountID
  have h' := h A
  rw [gap_of_countersOnly hc] at h'
  rw [eq_sub_of_add_eq h']
  abel

theorem establishSignerSponsorship_spec {n : ℕ} {S X : AccountID}
    (h : establishSignerSponsorship L n S X = .ok L')
    (hX : ∀ a, L.getAccount X = .ok a →
      (prepareAccountEntryExtensionV2 a).signerSponsoringIDs[n]? = some none)
    (hL : ∀ b ∈ L.entries, WellFormed b) :
    (∀ A, total L'.entries A = total L.entries A) ∧ ∀ b ∈ L'.entries, WellFormed b := by
  obtain ⟨L1, h1, h⟩ := Except.bind_eq_ok.mp h
  obtain ⟨a, a', ha, hfa, rfl⟩ := Ledger.modifyAccount_getAccount h1
  obtain ⟨u, hu, hfa⟩ := Except.bind_eq_ok.mp hfa
  obtain ⟨ext, htot1⟩ := Ledger.total_setAccount_gap ha (by cases hfa; rfl : a'.accountID = a.accountID)
  have hL1 := Ledger.wellFormed_setAccount_of_getAccount hL ha (show SignersAligned a' by
    cases hfa
    intro x hx
    simp only [Option.mem_def, Option.some.injEq] at hx
    subst hx
    simp [length_prepared (Ledger.aligned_of_getAccount hL ha)])
  cases hfa
  obtain ⟨b, b', hb, hfb, rfl⟩ := Ledger.modifyAccount_getAccount h
  cases hfb
  obtain ⟨-, -, -, hbid⟩ := Ledger.getAccount_eq_ok hb
  subst hbid
  have hc := countersOnly_updatePreparedExtV2 b
    (g := fun x => { x with numSponsoring := x.numSponsoring + 1 }) fun _ => rfl
  refine ⟨fun A => ?_, ?_⟩
  · -- the sponsored account counts one more sponsored signer, the sponsor one more sponsoring
    have h2 := Ledger.total_setAccount_countersOnly hb hc A
    have h3 := gap_establishSigner A a ext (S := b.accountID) (hX a ha)
    rw [storedCounters_addSponsoring] at h2
    rw [h2, eq_sub_of_add_eq (htot1 A), ← h3]
    push_cast
    abel
  · exact Ledger.wellFormed_setAccount_of_getAccount hL1 hb
      (hc.aligned (Ledger.aligned_of_getAccount hL1 hb))

theorem createSignerWithoutSponsorship_spec {X : AccountID}
    (h : createSignerWithoutSponsorship L X = .ok L') (hL : ∀ b ∈ L.entries, WellFormed b) :
    ∃ a, L.getAccount X = .ok a ∧ L' = L.setAccount X { a with numSubEntries := a.numSubEntries + 1 } ∧
      (∀ A, total L'.entries A = total L.entries A + if X = A then (0, 0, 1) else 0) ∧
      ∀ b ∈ L'.entries, WellFormed b := by
  obtain ⟨a, a', ha, hfa, rfl⟩ := Ledger.modifyAccount_getAccount h
  cases hfa
  have hc := countersOnly_numSubEntries a (a.numSubEntries + 1)
  obtain ⟨-, -, -, hid⟩ := Ledger.getAccount_eq_ok ha
  refine ⟨a, ha, rfl, fun A => ?_, Ledger.wellFormed_setAccount_of_getAccount hL ha
    (hc.aligned (Ledger.aligned_of_getAccount hL ha))⟩
  rw [Ledger.total_setAccount_countersOnly ha hc, storedCounters_addSubEntries, hid]
  rfl

theorem removeSignerWithoutSponsorship_spec {n : ℕ} {X : AccountID}
    (h : removeSignerWithoutSponsorship L n X = .ok L')
    (hX : ∀ a, L.getAccount X = .ok a → n < a.signers.length ∧
      (prepareAccountEntryExtensionV2 a).signerSponsoringIDs[n]? = some none ∧ 1 ≤ a.numSubEntries)
    (hL : ∀ b ∈ L.entries, WellFormed b) :
    (∀ A, total L'.entries A = total L.entries A) ∧ ∀ b ∈ L'.entries, WellFormed b := by
  obtain ⟨a, a', ha, hfa, rfl⟩ := Ledger.modifyAccount_getAccount h
  have hid : a'.accountID = a.accountID := by cases hfa; rfl
  obtain ⟨ext, htot⟩ := Ledger.total_setAccount_gap ha hid
  cases hfa
  obtain ⟨hn, hnone, hsub⟩ := hX a ha
  have halign := Ledger.aligned_of_getAccount hL ha
  refine ⟨fun A => ?_, Ledger.wellFormed_setAccount_of_getAccount hL ha ?_⟩
  · have h' := htot A
    rwa [gap_eraseSigner A a ext hn hnone hsub, add_left_inj] at h'
  · -- both vectors lose position `n`
    intro x hx
    simp only [Option.mem_def, Option.map_eq_some_iff] at hx
    obtain ⟨y, hy, rfl⟩ := hx
    simp [List.length_eraseIdx, halign y hy, hn]

/-- The sponsored account's update in `removeSignerSponsorship` and
`transferSignerSponsorship`: it goes through only when signer `n` is sponsored by
`sponsoring`. -/
theorem updateExtV2_ofSponsor_eq_ok {n : ℕ} {sponsoring a a' : AccountEntry}
    {g : AccountEntryExtensionV2 → AccountEntryExtensionV2}
    (h : updateExtV2 (fun x => do
      let sponsoringID ← vectorAt x.signerSponsoringIDs n
      accountIsSponsor sponsoringID sponsoring
      pure (g x)) a = .ok a') :
    ∃ x, a.extV2 = some x ∧ x.signerSponsoringIDs[n]? = some (some sponsoring.accountID) ∧
      a' = { a with extV2 := some (g x) } := by
  obtain ⟨x, y, hx, hg, rfl⟩ := updateExtV2_eq_ok h
  obtain ⟨sid, hsid, hg⟩ := Except.bind_eq_ok.mp hg
  obtain ⟨u, hu, hg⟩ := Except.bind_eq_ok.mp hg
  cases hg
  exact ⟨x, hx, (vectorAt_eq_ok hsid).trans (congrArg some (accountIsSponsor_eq_ok hu)), rfl⟩

theorem removeSignerSponsorship_spec {n : ℕ} {S X : AccountID}
    (h : removeSignerSponsorship L n S X = .ok L') (hne : S ≠ X)
    (hX : ∀ a, L.getAccount X = .ok a → 1 ≤ getNumSponsored a)
    (hS : ∀ b, L.getAccount S = .ok b → 1 ≤ getNumSponsoring b)
    (hL : ∀ b ∈ L.entries, WellFormed b) :
    (∀ A, total L'.entries A = total L.entries A) ∧ (∀ b ∈ L'.entries, WellFormed b) ∧
      ∀ a', L'.getAccount X = .ok a' → ∃ a, L.getAccount X = .ok a ∧ a'.signers = a.signers ∧
        a'.numSubEntries = a.numSubEntries ∧
        (prepareAccountEntryExtensionV2 a').signerSponsoringIDs[n]? = some none := by
  obtain ⟨e, he, h⟩ := Except.bind_eq_ok.mp h
  obtain ⟨sp, hsp, h⟩ := Except.bind_eq_ok.mp h
  have hspL : L.getAccount S = .ok sp := Except.bind_eq_ok.mpr ⟨e, he, hsp⟩
  obtain ⟨L1, h1, h⟩ := Except.bind_eq_ok.mp h
  -- the sponsored account forgets the sponsor of signer `n`
  obtain ⟨a, a', ha, hfa, rfl⟩ := Ledger.modifyAccount_getAccount h1
  obtain ⟨x, hx, hn, ha'⟩ := updateExtV2_ofSponsor_eq_ok hfa
  have hid : a'.accountID = a.accountID := by rw [ha']
  obtain ⟨ext, htot1⟩ := Ledger.total_setAccount_gap ha hid
  have hL1 := Ledger.wellFormed_setAccount_of_getAccount hL ha (show SignersAligned a' by
    rw [ha']
    intro z hz
    simp only [Option.mem_def, Option.some.injEq] at hz
    subst hz
    simpa using Ledger.aligned_of_getAccount hL ha x hx)
  subst ha'
  obtain ⟨-, -, -, hspid⟩ := Ledger.getAccount_eq_ok hspL
  rw [hspid] at hn
  have hsd : 1 ≤ x.numSponsored := by simpa [getNumSponsored, hx] using hX a ha
  -- the sponsor pays one reserve less
  obtain ⟨b, b', hb, hfb, rfl⟩ := Ledger.modifyAccount_getAccount h
  have hbS : L.getAccount S = .ok b := by rwa [Ledger.getAccount_setAccount_ne ha hid hne] at hb
  obtain ⟨-, -, -, hbid⟩ := Ledger.getAccount_eq_ok hbS
  have hc := countersOnly_updateExtV2 (fun _ _ h => by cases h; rfl) hfb
  refine ⟨fun A => ?_, Ledger.wellFormed_setAccount_of_getAccount hL1 hb
    (hc.aligned (Ledger.aligned_of_getAccount hL1 hb)), fun a2 ha2 => ?_⟩
  · have h2 := Ledger.total_setAccount_countersOnly hb hc A
    rw [← neg_sub, storedCounters_subSponsoring hfb (hS b hbS), hbid] at h2
    rw [h2, eq_sub_of_add_eq (htot1 A), gap_removeSigner A a ext hx hn hsd]
    split_ifs <;> abel
  · rw [Ledger.getAccount_setAccount_ne hb hc.accountID hne.symm,
      Ledger.getAccount_setAccount_self ha hid] at ha2
    obtain rfl := Except.ok.inj ha2
    refine ⟨a, ha, rfl, rfl, ?_⟩
    simp [prepareAccountEntryExtensionV2, (List.getElem?_eq_some_iff.mp hn).1]

theorem transferSignerSponsorship_spec {n : ℕ} {O N X : AccountID}
    (h : transferSignerSponsorship L n O N X = .ok L') (hOX : O ≠ X) (hNO : N ≠ O)
    (hO : ∀ b, L.getAccount O = .ok b → 1 ≤ getNumSponsoring b)
    (hL : ∀ b ∈ L.entries, WellFormed b) :
    (∀ A, total L'.entries A = total L.entries A) ∧ ∀ b ∈ L'.entries, WellFormed b := by
  obtain ⟨e, he, h⟩ := Except.bind_eq_ok.mp h
  obtain ⟨sp, hsp, h⟩ := Except.bind_eq_ok.mp h
  have hspL : L.getAccount O = .ok sp := Except.bind_eq_ok.mpr ⟨e, he, hsp⟩
  obtain ⟨L1, h1, h⟩ := Except.bind_eq_ok.mp h
  -- the sponsored account's signer `n` changes sponsor
  obtain ⟨a, a', ha, hfa, rfl⟩ := Ledger.modifyAccount_getAccount h1
  obtain ⟨x, hx, hn, ha'⟩ := updateExtV2_ofSponsor_eq_ok hfa
  have hid : a'.accountID = a.accountID := by rw [ha']
  obtain ⟨ext, htot1⟩ := Ledger.total_setAccount_gap ha hid
  have hL1 := Ledger.wellFormed_setAccount_of_getAccount hL ha (show SignersAligned a' by
    rw [ha']
    intro z hz
    simp only [Option.mem_def, Option.some.injEq] at hz
    subst hz
    simpa using Ledger.aligned_of_getAccount hL ha x hx)
  subst ha'
  obtain ⟨-, -, -, hspid⟩ := Ledger.getAccount_eq_ok hspL
  rw [hspid] at hn
  -- the new sponsor pays one reserve more
  obtain ⟨L2, h2, h⟩ := Except.bind_eq_ok.mp h
  obtain ⟨b, b', hb, hfb, rfl⟩ := Ledger.modifyAccount_getAccount h2
  cases hfb
  obtain ⟨-, -, -, hbid⟩ := Ledger.getAccount_eq_ok hb
  have hcb := countersOnly_updatePreparedExtV2 b
    (g := fun x => { x with numSponsoring := x.numSponsoring + 1 }) fun _ => rfl
  have hL2 := Ledger.wellFormed_setAccount_of_getAccount hL1 hb
    (hcb.aligned (Ledger.aligned_of_getAccount hL1 hb))
  -- and the old one one reserve less
  obtain ⟨c, c', hc, hfc, rfl⟩ := Ledger.modifyAccount_getAccount h
  have hcO : L.getAccount O = .ok c := by
    rwa [Ledger.getAccount_setAccount_ne hb hcb.accountID hNO.symm,
      Ledger.getAccount_setAccount_ne ha hid hOX] at hc
  obtain ⟨-, -, -, hcid⟩ := Ledger.getAccount_eq_ok hcO
  have hcc := countersOnly_updateExtV2 (fun _ _ h => by cases h; rfl) hfc
  refine ⟨fun A => ?_, Ledger.wellFormed_setAccount_of_getAccount hL2 hc
    (hcc.aligned (Ledger.aligned_of_getAccount hL2 hc))⟩
  have h3 := Ledger.total_setAccount_countersOnly hc hcc A
  have h2 := Ledger.total_setAccount_countersOnly hb hcb A
  rw [← neg_sub, storedCounters_subSponsoring hfc (hO c hcO), hcid] at h3
  rw [storedCounters_addSponsoring, hbid] at h2
  rw [h3, h2, eq_sub_of_add_eq (htot1 A), eq_sub_of_add_eq (gap_transferSigner A a ext hx hn)]
  push_cast
  split_ifs <;> abel

theorem createSignerWithSponsorship_spec {n : ℕ} {S X : AccountID}
    (h : createSignerWithSponsorship L n S X = .ok L')
    (hX : ∀ a, L.getAccount X = .ok a →
      (prepareAccountEntryExtensionV2 a).signerSponsoringIDs[n]? = some none)
    (hL : ∀ b ∈ L.entries, WellFormed b) :
    (∀ A, total L'.entries A = total L.entries A + if X = A then (0, 0, 1) else 0) ∧
      ∀ b ∈ L'.entries, WellFormed b := by
  obtain ⟨L1, h1, h⟩ := Except.bind_eq_ok.mp h
  obtain ⟨a, ha, rfl, htot1, hL1⟩ := createSignerWithoutSponsorship_spec h1 hL
  -- the new subentry count leaves the signer vectors alone
  have hX1 : ∀ a1, (L.setAccount X { a with numSubEntries := a.numSubEntries + 1 }).getAccount X =
      .ok a1 → (prepareAccountEntryExtensionV2 a1).signerSponsoringIDs[n]? = some none := by
    intro a1 ha1
    rw [Ledger.getAccount_setAccount_self ha (countersOnly_numSubEntries a _).accountID] at ha1
    obtain rfl := Except.ok.inj ha1
    exact hX a ha
  obtain ⟨htot2, hL2⟩ := establishSignerSponsorship_spec h hX1 hL1
  exact ⟨fun A => (htot2 A).trans (htot1 A), hL2⟩

theorem removeSignerWithSponsorship_spec {n : ℕ} {S X : AccountID}
    (h : removeSignerWithSponsorship L n S X = .ok L') (hne : S ≠ X)
    (hX : ∀ a, L.getAccount X = .ok a →
      n < a.signers.length ∧ 1 ≤ getNumSponsored a ∧ 1 ≤ a.numSubEntries)
    (hS : ∀ b, L.getAccount S = .ok b → 1 ≤ getNumSponsoring b)
    (hL : ∀ b ∈ L.entries, WellFormed b) :
    (∀ A, total L'.entries A = total L.entries A) ∧ ∀ b ∈ L'.entries, WellFormed b := by
  obtain ⟨L1, h1, h⟩ := Except.bind_eq_ok.mp h
  obtain ⟨htot1, hL1, hX1⟩ :=
    removeSignerSponsorship_spec h1 hne (fun a ha => (hX a ha).2.1) hS hL
  -- the signer is now unsponsored, so it goes as one without a sponsor
  have hX2 : ∀ a1, L1.getAccount X = .ok a1 → n < a1.signers.length ∧
      (prepareAccountEntryExtensionV2 a1).signerSponsoringIDs[n]? = some none ∧
      1 ≤ a1.numSubEntries := by
    intro a1 ha1
    obtain ⟨a, ha, hsig, hsub, hnone⟩ := hX1 a1 ha1
    obtain ⟨hn, -, hs⟩ := hX a ha
    exact ⟨hsig ▸ hn, hnone, hsub ▸ hs⟩
  obtain ⟨htot2, hL2⟩ := removeSignerWithoutSponsorship_spec h hX2 hL1
  exact ⟨fun A => (htot2 A).trans (htot1 A), hL2⟩

end signerHelpers

end Sponsorship

end HcnetCore
