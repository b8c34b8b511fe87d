import HcnetCore.Scp.Nomination
import HcnetCore.Systems.Reach
import HcnetCore.Systems.ExceptSpec

/-!
# The nomination state invariant

The sets `Z ⊆ Y ⊆ X` of a slot only grow, every recorded nomination is only ever
replaced by a newer one, and `emitNomination` never throws "moved to a bad state",
as long as the node is only fed statements of other nodes
(`nomination_state_invariant`). The herder guarantees the latter
(`HerderImpl::recvSCPEnvelope` skips envelopes signed by the local node); without
it, a statement under the node's own name that is newer than its real one makes
the next emission stale (`nomination_selfEnvelope_throws`).

## The argument

Everything rests on one invariant about the node's own entry in
`mLatestNominations` (`SelfSync`): between calls it is exactly the sorted
serialisation of `(X, Y)` (or absent while `X` is empty). A call that changes `X`
or `Y` does so strictly (every `modified` flag is raised by an insertion of a new
element, `VotesStep`) and only then emits, so at the moment of emission the own
entry is superseded by the new serialisation (`SelfBehind`). The re-entrant
`processEnvelope` of the own statement therefore accepts and records it,
restoring `SelfSync`.

Each entry point has a specification in the shape of `Except.Spec`: it never throws
`movedToBadState`, and when it returns, the invariants hold again of a state that
grew from the one it was called in (`Kept`). The recursion of `processEnvelope`
through `emitNomination` is handled by induction on the fuel
(`processEnvelope_spec`); `nominate_spec` and `slotCall_spec` build on it, and the
run-level statements follow by the invariant rule of `System`.

Statements are compared through `Supersedes`, set inclusion of both lists with
strict growth. On sane statements it is what `isNewerStatement` computes
(`isNewerStatement_iff_supersedes`); unlike the code's size-based test it is
transitive without any sortedness assumption.
-/

namespace HcnetCore
namespace Scp
namespace NominationProtocol

variable {N V H σ E : Type} [LinearOrder N] [LinearOrder V]

/-! ### Comparing statements -/

/-- Both lists of `new` contain those of `old`, and not conversely. -/
def Supersedes (old new : SCPNomination V H) : Prop :=
  old.votes ⊆ new.votes ∧ old.accepted ⊆ new.accepted ∧
    ¬ (new.votes ⊆ old.votes ∧ new.accepted ⊆ old.accepted)

omit [LinearOrder N] [LinearOrder V] in
theorem Supersedes.trans {a b c : SCPNomination V H} (hab : Supersedes a b)
    (hbc : Supersedes b c) : Supersedes a c := by
  refine ⟨List.Subset.trans hab.1 hbc.1, List.Subset.trans hab.2.1 hbc.2.1, ?_⟩
  rintro ⟨hv, ha⟩
  -- `c ⊆ a` and `a ⊆ b` give `c ⊆ b`, which `hbc` forbids
  exact hbc.2.2 ⟨List.Subset.trans hv hab.1, List.Subset.trans ha hab.2.1⟩

/-- `isSane` in terms of sortedness. -/
theorem isSane_iff (nom : SCPNomination V H) :
    isSane nom = true ↔
      (nom.votes ≠ [] ∨ nom.accepted ≠ []) ∧ nom.votes.Pairwise (· < ·) ∧
        nom.accepted.Pairwise (· < ·) := by
  unfold isSane
  simp only [Bool.and_eq_true, decide_eq_true_eq, Option.isNone_iff_eq_none,
    SortedList.adjacentFind_not_lt_eq_none, ne_eq, Nat.add_eq_zero_iff,
    List.length_eq_zero_iff, not_and_or, and_assoc]

/-- `isSubsetHelper` on sorted lists: inclusion, and whether the sizes differ. -/
theorem isSubsetHelper_of_sorted {p v : List V} (hp : p.Pairwise (· < ·))
    (hv : v.Pairwise (· < ·)) :
    (isSubsetHelper p v).1 = true ↔ p ⊆ v := by
  unfold isSubsetHelper
  split_ifs with hlen
  · exact SortedList.includes_iff_subset hv hp
  · -- a longer duplicate-free list is never included
    simp only [false_iff]
    intro hsub
    exact hlen ((List.Pairwise.nodup hp).length_le_of_subset hsub)

/-- For duplicate-free lists, inclusion with a size change is strict inclusion. -/
theorem length_ne_iff_not_subset {p v : List V} (hp : p.Pairwise (· < ·))
    (hv : v.Pairwise (· < ·)) (hsub : p ⊆ v) :
    p.length ≠ v.length ↔ ¬ v ⊆ p := by
  constructor
  · intro hne hvp
    exact hne (le_antisymm ((List.Pairwise.nodup hp).length_le_of_subset hsub)
      ((List.Pairwise.nodup hv).length_le_of_subset hvp))
  · intro hvp heq
    -- same length and included: the lists are permutations of each other
    have hperm := ((List.Pairwise.nodup hp).subperm hsub).perm_of_length_le heq.ge
    exact hvp fun x hx => hperm.mem_iff.mpr hx

/-- **`isNewerStatement` on sane statements** is `Supersedes`. -/
theorem isNewerStatement_iff_supersedes {old new : SCPNomination V H}
    (hold : isSane old = true) (hnew : isSane new = true) :
    isNewerStatement old new = true ↔ Supersedes old new := by
  obtain ⟨-, hov, hoa⟩ := (isSane_iff old).mp hold
  obtain ⟨-, hnv, hna⟩ := (isSane_iff new).mp hnew
  have hvotes := isSubsetHelper_of_sorted hov hnv
  have hacc := isSubsetHelper_of_sorted hoa hna
  unfold isNewerStatement Supersedes
  cases h₁ : (isSubsetHelper old.votes new.votes).1 with
  | false =>
    -- the votes are not included
    have : ¬ old.votes ⊆ new.votes := fun h => by simp [hvotes.mpr h] at h₁
    simp [h₁, this]
  | true =>
    have hv : old.votes ⊆ new.votes := hvotes.mp h₁
    cases h₂ : (isSubsetHelper old.accepted new.accepted).1 with
    | false =>
      have : ¬ old.accepted ⊆ new.accepted := fun h => by simp [hacc.mpr h] at h₂
      simp [h₁, h₂, this]
    | true =>
      have ha : old.accepted ⊆ new.accepted := hacc.mp h₂
      -- both included: the second components report the size changes
      have e₁ : (isSubsetHelper old.votes new.votes).2 =
          decide (old.votes.length ≠ new.votes.length) := by
        unfold isSubsetHelper at h₁ ⊢; split_ifs at h₁ ⊢; simp_all
      have e₂ : (isSubsetHelper old.accepted new.accepted).2 =
          decide (old.accepted.length ≠ new.accepted.length) := by
        unfold isSubsetHelper at h₂ ⊢; split_ifs at h₂ ⊢; simp_all
      simp only [h₁, h₂, e₁, e₂, ↓reduceIte, Bool.or_eq_true, decide_eq_true_eq, hv, ha,
        true_and, length_ne_iff_not_subset hov hnv hv, length_ne_iff_not_subset hoa hna ha,
        not_and_or]

/-! ### The invariants -/

section Invariants

variable (ctx : SlotContext N V H)

/-- The structural invariant of the nomination state: `Z ⊆ Y ⊆ X`, and every
recorded nomination passed `isSane`. -/
structure Inv (p : NominationProtocol N V H) : Prop where
  /-- `Z ⊆ Y`. -/
  candidates_subset : p.mCandidates ⊆ p.mAccepted
  /-- `Y ⊆ X`. -/
  accepted_subset : p.mAccepted ⊆ p.mVotes
  /-- Only sane statements are recorded. -/
  recorded_sane : ∀ n nom, p.mLatestNominations.lookup n = some nom → isSane nom = true

/-- Between calls, the node's own recorded nomination is the serialisation of
`(X, Y)`; before the first vote there is none. -/
def SelfSync (p : NominationProtocol N V H) : Prop :=
  p.mLatestNominations.lookup ctx.localNodeID =
    if p.mVotes = ∅ then none else some (nominationStatement ctx p)

/-- When `emitNomination` is called: there is something to emit, and the node's own
recorded nomination is superseded by the serialisation of `(X, Y)`. -/
structure SelfBehind (p : NominationProtocol N V H) : Prop where
  votes_nonempty : p.mVotes ≠ ∅
  superseded : ∀ old, p.mLatestNominations.lookup ctx.localNodeID = some old →
    Supersedes old (nominationStatement ctx p)

end Invariants

/-- Growth of the nomination state between two moments of a run: the three sets
grow, and a recorded nomination stays or is superseded. -/
structure Grows (q p : NominationProtocol N V H) : Prop where
  votes : q.mVotes ⊆ p.mVotes
  accepted : q.mAccepted ⊆ p.mAccepted
  candidates : q.mCandidates ⊆ p.mCandidates
  latest : ∀ n old, q.mLatestNominations.lookup n = some old →
    ∃ new, p.mLatestNominations.lookup n = some new ∧ (new = old ∨ Supersedes old new)

omit [LinearOrder V] in
theorem Grows.refl (p : NominationProtocol N V H) : Grows p p :=
  ⟨subset_rfl, subset_rfl, subset_rfl, fun _ old h => ⟨old, h, .inl rfl⟩⟩

omit [LinearOrder V] in
theorem Grows.trans {p q r : NominationProtocol N V H} (hpq : Grows p q) (hqr : Grows q r) :
    Grows p r := by
  refine ⟨hpq.votes.trans hqr.votes, hpq.accepted.trans hqr.accepted,
    hpq.candidates.trans hqr.candidates, fun n old h => ?_⟩
  obtain ⟨mid, hmid, hmo⟩ := hpq.latest n old h
  obtain ⟨new, hnew, hnm⟩ := hqr.latest n mid hmid
  refine ⟨new, hnew, ?_⟩
  -- chain the two replacements
  rcases hmo with rfl | hmo <;> rcases hnm with rfl | hnm
  · exact .inl rfl
  · exact .inr hnm
  · exact .inr hmo
  · exact .inr (hmo.trans hnm)

omit [LinearOrder N] in
/-- The sorted serialisation of a nonempty vote set is sane. -/
theorem nominationStatement_sane (ctx : SlotContext N V H) {p : NominationProtocol N V H}
    (hX : p.mVotes ≠ ∅) : isSane (nominationStatement ctx p) = true := by
  rw [isSane_iff]
  refine ⟨.inl ?_, SortedList.pairwise_toSortedList _, SortedList.pairwise_toSortedList _⟩
  obtain ⟨x, hx⟩ := Finset.nonempty_iff_ne_empty.mpr hX
  exact List.ne_nil_of_mem (SortedList.mem_toSortedList.mpr hx)

omit [LinearOrder N] in
/-- Serialisations of a strictly grown pair of sets supersede each other. -/
theorem supersedes_nominationStatement (ctx : SlotContext N V H)
    {q p : NominationProtocol N V H} (hv : q.mVotes ⊆ p.mVotes) (ha : q.mAccepted ⊆ p.mAccepted)
    (hs : q.mVotes ≠ p.mVotes ∨ q.mAccepted ≠ p.mAccepted) :
    Supersedes (nominationStatement ctx q) (nominationStatement ctx p) := by
  refine ⟨SortedList.toSortedList_subset_iff.mpr hv, SortedList.toSortedList_subset_iff.mpr ha, ?_⟩
  rintro ⟨hv', ha'⟩
  -- the reverse inclusions would make both sets equal
  rcases hs with hs | hs
  · exact hs (Finset.Subset.antisymm hv (SortedList.toSortedList_subset_iff.mp hv'))
  · exact hs (Finset.Subset.antisymm ha (SortedList.toSortedList_subset_iff.mp ha'))

/-- **Strict growth from a synchronised state puts the own entry behind.** -/
theorem selfBehind_of_selfSync (ctx : SlotContext N V H) {q p : NominationProtocol N V H}
    (hsync : SelfSync ctx q) (hentry : p.mLatestNominations.lookup ctx.localNodeID =
      q.mLatestNominations.lookup ctx.localNodeID)
    (hYX : p.mAccepted ⊆ p.mVotes) (hv : q.mVotes ⊆ p.mVotes) (ha : q.mAccepted ⊆ p.mAccepted)
    (hs : q.mVotes ≠ p.mVotes ∨ q.mAccepted ≠ p.mAccepted) : SelfBehind ctx p := by
  have hX : p.mVotes ≠ ∅ := by
    intro hp
    rw [hp, Finset.subset_empty] at hv
    rw [hp, Finset.subset_empty] at hYX
    rw [hYX, Finset.subset_empty] at ha
    rcases hs with hs | hs
    · exact hs (hv.trans hp.symm)
    · exact hs (ha.trans hYX.symm)
  refine ⟨hX, fun old hold => ?_⟩
  rw [hentry, hsync] at hold
  split_ifs at hold with hq
  cases hold
  exact supersedes_nominationStatement ctx hv ha hs

/-! ### The loops that collect votes -/

/-- What the vote-collecting loops do: `X` and `Y` grow, keeping `Y ⊆ X`, nothing else
changes, and the `modified` flag is raised only by a strict change. -/
structure VotesStep (q p : NominationProtocol N V H) (modified : Bool) : Prop where
  votes_mono : q.mVotes ⊆ p.mVotes
  accepted_mono : q.mAccepted ⊆ p.mAccepted
  frame : p = { q with mVotes := p.mVotes, mAccepted := p.mAccepted }
  accepted_subset : q.mAccepted ⊆ q.mVotes → p.mAccepted ⊆ p.mVotes
  unmodified : modified = false → p = q
  modified_strict : modified = true → q.mVotes ≠ p.mVotes ∨ q.mAccepted ≠ p.mAccepted

omit [LinearOrder N] [LinearOrder V] in
theorem VotesStep.refl (p : NominationProtocol N V H) : VotesStep p p false :=
  ⟨subset_rfl, subset_rfl, rfl, id, fun _ => rfl, fun h => absurd h (by simp)⟩

omit [LinearOrder N] [LinearOrder V] in
theorem VotesStep.trans {q r p : NominationProtocol N V H} {m₁ m₂ : Bool}
    (h₁ : VotesStep q r m₁) (h₂ : VotesStep r p m₂) : VotesStep q p (m₁ || m₂) := by
  refine ⟨h₁.votes_mono.trans h₂.votes_mono, h₁.accepted_mono.trans h₂.accepted_mono, ?_,
    fun h => h₂.accepted_subset (h₁.accepted_subset h), fun h => ?_, fun h => ?_⟩
  · -- both frames together
    rw [h₂.frame, h₁.frame]
  · simp only [Bool.or_eq_false_iff] at h
    rw [h₂.unmodified h.2, h₁.unmodified h.1]
  · -- a strict change in either half survives the other, which only grows
    rcases Bool.or_eq_true_iff.mp h with h | h
    · rcases h₁.modified_strict h with hne | hne
      · exact .inl fun heq => hne (Finset.Subset.antisymm h₁.votes_mono
          (heq ▸ h₂.votes_mono))
      · exact .inr fun heq => hne (Finset.Subset.antisymm h₁.accepted_mono
          (heq ▸ h₂.accepted_mono))
    · rcases h₂.modified_strict h with hne | hne
      · exact .inl fun heq => hne (Finset.Subset.antisymm h₂.votes_mono
          (heq ▸ h₁.votes_mono))
      · exact .inr fun heq => hne (Finset.Subset.antisymm h₂.accepted_mono
          (heq ▸ h₁.accepted_mono))

omit [LinearOrder N] in
/-- Adding one value that is not a vote yet. -/
theorem VotesStep.insertVote {p : NominationProtocol N V H} {x : V} (hx : x ∉ p.mVotes) :
    VotesStep p { p with mVotes := insert x p.mVotes } true := by
  refine ⟨Finset.subset_insert _ _, subset_rfl, rfl, fun h => h.trans (Finset.subset_insert _ _),
    fun h => absurd h (by simp), fun _ => .inl fun heq => hx ?_⟩
  rw [heq]; exact Finset.mem_insert_self _ _

omit [LinearOrder N] in
/-- Accepting one value that is not accepted yet. -/
theorem VotesStep.insertAccepted {p : NominationProtocol N V H} {x : V} (hx : x ∉ p.mAccepted) :
    VotesStep p { p with mAccepted := insert x p.mAccepted, mVotes := insert x p.mVotes } true := by
  refine ⟨Finset.subset_insert _ _, Finset.subset_insert _ _, rfl,
    fun h => Finset.insert_subset_insert _ h, fun h => absurd h (by simp),
    fun _ => .inr fun heq => hx ?_⟩
  rw [heq]; exact Finset.mem_insert_self _ _

omit [LinearOrder N] in
/-- One step of the scan keeps only values that are not votes yet. -/
theorem newValueStep_not_mem (ctx : SlotContext N V H) (p : NominationProtocol N V H)
    {best : Option V × Nat} (value : V) (hb : ∀ y, best.1 = some y → y ∉ p.mVotes) :
    ∀ y, (newValueStep ctx p best value).1 = some y → y ∉ p.mVotes := by
  intro y hy
  unfold newValueStep at hy
  dsimp only at hy
  split at hy
  · split_ifs at hy with hmem hge
    · exact hb y hy
    · -- the scanned value becomes the best one
      simp only [Option.some.injEq] at hy
      subst hy
      exact hmem
    · exact hb y hy
  · exact hb y hy

omit [LinearOrder N] in
/-- The value `getNewValueFromNomination` picks is not a vote yet. -/
theorem getNewValueFromNomination_not_mem (ctx : SlotContext N V H)
    (p : NominationProtocol N V H) (nom : SCPNomination V H) {x : V}
    (h : getNewValueFromNomination ctx p nom = some x) : x ∉ p.mVotes := by
  -- the scan only ever holds a value that is not a vote
  have hscan : ∀ (l : List V) (best : Option V × Nat),
      (∀ y, best.1 = some y → y ∉ p.mVotes) →
      ∀ y, (l.foldl (newValueStep ctx p) best).1 = some y → y ∉ p.mVotes := by
    intro l
    induction l with
    | nil => exact fun best hb => hb
    | cons v vs ih => exact fun best hb => ih _ (newValueStep_not_mem ctx p v hb)
  exact hscan _ (none, 0) (fun y hy => by cases hy) x h

theorem acceptVote_spec (ctx : SlotContext N V H) (p : NominationProtocol N V H) (v : V) :
    VotesStep p (acceptVote ctx p v).1 (acceptVote ctx p v).2 := by
  unfold acceptVote
  split_ifs with hacc hfed hfull
  · exact VotesStep.refl p
  · -- accepted: `v` joins `Y` and `X`
    exact VotesStep.insertAccepted hacc
  · -- not fully valid: vote for an extracted variant, if it is new
    split
    · split_ifs with hmem
      · exact VotesStep.refl p
      · exact VotesStep.insertVote hmem
    · exact VotesStep.refl p
  · exact VotesStep.refl p

theorem acceptVotes_spec (ctx : SlotContext N V H) :
    ∀ (l : List V) (p : NominationProtocol N V H),
      VotesStep p (acceptVotes ctx p l).1 (acceptVotes ctx p l).2
  | [], p => VotesStep.refl p
  | v :: vs, p => (acceptVote_spec ctx p v).trans (acceptVotes_spec ctx vs _)

theorem leaderVote_spec (ctx : SlotContext N V H) (p : NominationProtocol N V H) (nodeID : N)
    (nom : SCPNomination V H) :
    VotesStep p (leaderVote ctx p nodeID nom).1 (leaderVote ctx p nodeID nom).2 := by
  unfold leaderVote
  split_ifs
  · split
    · next x hx => exact VotesStep.insertVote (getNewValueFromNomination_not_mem ctx p nom hx)
    · exact VotesStep.refl p
  · exact VotesStep.refl p

theorem leaderVotes_spec (ctx : SlotContext N V H) :
    ∀ (l : List N) (p : NominationProtocol N V H),
      VotesStep p (leaderVotes ctx p l).1 (leaderVotes ctx p l).2
  | [], p => VotesStep.refl p
  | leader :: ls, p => by
    refine VotesStep.trans ?_ (leaderVotes_spec ctx ls _)
    split
    · split
      · next x hx => exact VotesStep.insertVote (getNewValueFromNomination_not_mem ctx p _ hx)
      · exact VotesStep.refl p
    · exact VotesStep.refl p

/-- The candidates loop only adds accepted values to `Z`. -/
theorem promoteCandidates_spec (ctx : SlotContext N V H) (p : NominationProtocol N V H) :
    (promoteCandidates ctx p).1 =
        { p with mCandidates := (promoteCandidates ctx p).1.mCandidates } ∧
      p.mCandidates ⊆ (promoteCandidates ctx p).1.mCandidates ∧
      (p.mCandidates ⊆ p.mAccepted → (promoteCandidates ctx p).1.mCandidates ⊆ p.mAccepted) := by
  refine ⟨rfl, Finset.subset_union_left, fun h => Finset.union_subset h ?_⟩
  exact Finset.filter_subset _ _

/-! ### Recording a statement -/

section Record

variable (ctx : SlotContext N V H)

/-- Recording a sane statement that passed `isNewerStatement` keeps the invariant and
supersedes the node's previous one. -/
theorem recordEnvelope_spec {p : NominationProtocol N V H} {nodeID : N}
    {nom : SCPNomination V H} (hI : Inv p) (hsane : isSane nom = true)
    (hnew : isNewerStatementFrom p nodeID nom = true) :
    Inv (recordEnvelope p nodeID nom) ∧ Grows p (recordEnvelope p nodeID nom) := by
  refine ⟨⟨hI.candidates_subset, hI.accepted_subset, fun n st hst => ?_⟩,
    ⟨subset_rfl, subset_rfl, subset_rfl, fun n old hold => ?_⟩⟩
  · -- the new entry is sane, the others are unchanged
    unfold recordEnvelope at hst
    by_cases hn : n = nodeID
    · subst hn; rw [AList.lookup_insert] at hst; cases hst; exact hsane
    · rw [AList.lookup_insert_ne hn] at hst; exact hI.recorded_sane n st hst
  · unfold recordEnvelope
    by_cases hn : n = nodeID
    · -- the replaced entry is superseded by the new one
      subst hn
      refine ⟨nom, AList.lookup_insert _, .inr ?_⟩
      unfold isNewerStatementFrom at hnew
      rw [hold] at hnew
      exact (isNewerStatement_iff_supersedes (hI.recorded_sane n old hold) hsane).mp hnew
    · exact ⟨old, by rw [AList.lookup_insert_ne hn]; exact hold, .inl rfl⟩

/-- Recording another node's statement leaves the node's own entry alone. -/
theorem recordEnvelope_selfSync_other {p : NominationProtocol N V H} {nodeID : N}
    (nom : SCPNomination V H) (hne : nodeID ≠ ctx.localNodeID) (hS : SelfSync ctx p) :
    SelfSync ctx (recordEnvelope p nodeID nom) := by
  unfold SelfSync recordEnvelope at *
  rw [AList.lookup_insert_ne (Ne.symm hne)]
  exact hS

/-- Recording the node's own current serialisation synchronises its entry. -/
theorem recordEnvelope_selfSync_self {p : NominationProtocol N V H} (hB : SelfBehind ctx p) :
    SelfSync ctx (recordEnvelope p ctx.localNodeID (nominationStatement ctx p)) := by
  unfold SelfSync recordEnvelope
  rw [AList.lookup_insert, if_neg hB.votes_nonempty]
  rfl

/-- The node's own serialisation passes `isNewerStatement` when it is behind. -/
theorem isNewerStatementFrom_self {p : NominationProtocol N V H} (hI : Inv p)
    (hB : SelfBehind ctx p) :
    isNewerStatementFrom p ctx.localNodeID (nominationStatement ctx p) = true := by
  unfold isNewerStatementFrom
  split
  · rfl
  · next old hold =>
    exact (isNewerStatement_iff_supersedes (hI.recorded_sane _ old hold)
      (nominationStatement_sane ctx hB.votes_nonempty)).mpr (hB.superseded old hold)

end Record

/-! ### One round of vote collection -/

/-- The three loops of `processEnvelope` (votes, candidates, leader vote), run from a
synchronised state: the invariant is kept, the state grows, and the own entry is
behind exactly when a `modified` flag was raised. -/
theorem collect_spec (ctx : SlotContext N V H) {q : NominationProtocol N V H} (nodeID : N)
    (nom : SCPNomination V H) (hI : Inv q) (hS : SelfSync ctx q) :
    let r₁ := acceptVotes ctx q nom.votes
    let r₂ := promoteCandidates ctx r₁.1
    let r₃ := leaderVote ctx r₂.1 nodeID nom
    Inv r₃.1 ∧ Grows q r₃.1 ∧ ((r₁.2 || r₃.2) = true → SelfBehind ctx r₃.1) ∧
      ((r₁.2 || r₃.2) = false → SelfSync ctx r₃.1) := by
  intro r₁ r₂ r₃
  have h₁ := acceptVotes_spec ctx nom.votes q
  obtain ⟨hframe₂, hZ₂, hZY₂⟩ := promoteCandidates_spec ctx r₁.1
  have h₃ := leaderVote_spec ctx r₂.1 nodeID nom
  -- the fields of the three intermediate states
  have hX₂ : r₂.1.mVotes = r₁.1.mVotes := by rw [hframe₂]
  have hY₂ : r₂.1.mAccepted = r₁.1.mAccepted := by rw [hframe₂]
  have hL₂ : r₂.1.mLatestNominations = r₁.1.mLatestNominations := by rw [hframe₂]
  have hL₁ : r₁.1.mLatestNominations = q.mLatestNominations := by rw [h₁.frame]
  have hL₃ : r₃.1.mLatestNominations = r₂.1.mLatestNominations := by rw [h₃.frame]
  have hZ₃ : r₃.1.mCandidates = r₂.1.mCandidates := by rw [h₃.frame]
  have hZ₁ : r₁.1.mCandidates = q.mCandidates := by rw [h₁.frame]
  have hXmono : q.mVotes ⊆ r₃.1.mVotes := h₁.votes_mono.trans (hX₂ ▸ h₃.votes_mono)
  have hYmono : q.mAccepted ⊆ r₃.1.mAccepted := h₁.accepted_mono.trans (hY₂ ▸ h₃.accepted_mono)
  have hYX₃ : r₃.1.mAccepted ⊆ r₃.1.mVotes :=
    h₃.accepted_subset (hX₂ ▸ hY₂ ▸ h₁.accepted_subset hI.accepted_subset)
  have hentry : r₃.1.mLatestNominations = q.mLatestNominations := by rw [hL₃, hL₂, hL₁]
  refine ⟨⟨?_, hYX₃, fun n st hst => ?_⟩, ⟨hXmono, hYmono, ?_, fun n old hold => ?_⟩, ?_, ?_⟩
  · -- `Z` only gained accepted values, and `Y` only grew
    rw [hZ₃]
    exact (hZY₂ (hZ₁ ▸ hI.candidates_subset.trans h₁.accepted_mono)).trans
      (hY₂ ▸ h₃.accepted_mono)
  · rw [hentry] at hst; exact hI.recorded_sane n st hst
  · rw [hZ₃, ← hZ₁]; exact hZ₂
  · exact ⟨old, by rw [hentry]; exact hold, .inl rfl⟩
  · intro hm
    -- a raised flag is a strict change of `X` or `Y` between `q` and `r₃`
    refine selfBehind_of_selfSync ctx hS (by rw [hentry]) hYX₃ hXmono hYmono ?_
    rcases Bool.or_eq_true_iff.mp hm with hm | hm
    · rcases h₁.modified_strict hm with hne | hne
      · exact .inl fun heq => hne (Finset.Subset.antisymm h₁.votes_mono
          (heq ▸ hX₂ ▸ h₃.votes_mono))
      · exact .inr fun heq => hne (Finset.Subset.antisymm h₁.accepted_mono
          (heq ▸ hY₂ ▸ h₃.accepted_mono))
    · rcases h₃.modified_strict hm with hne | hne
      · exact .inl fun heq => hne (Finset.Subset.antisymm h₃.votes_mono
          (heq ▸ hX₂ ▸ h₁.votes_mono))
      · exact .inr fun heq => hne (Finset.Subset.antisymm h₃.accepted_mono
          (heq ▸ hY₂ ▸ h₁.accepted_mono))
  · intro hm
    -- nothing was modified: `X`, `Y` and the own entry are those of `q`
    simp only [Bool.or_eq_false_iff] at hm
    have e₁ := h₁.unmodified hm.1
    have e₃ := h₃.unmodified hm.2
    unfold SelfSync nominationStatement at *
    rw [e₃, hframe₂, e₁]
    exact hS

/-! ### The re-entrant calls -/

/-- The exception `emitNomination` throws when the node's own statement is rejected. -/
def movedToBadState : SCPError E := .runtimeError "moved to a bad state (nomination)"

/-- The invariants hold of `p`, and `p` grew from `q`: what every call re-establishes
before it returns. -/
structure Kept (ctx : SlotContext N V H) (q p : NominationProtocol N V H) : Prop where
  inv : Inv p
  sync : SelfSync ctx p
  grows : Grows q p

/-- The invariants read only `X`, `Y`, `Z` and the recorded nominations. -/
theorem Kept.congr {ctx : SlotContext N V H} {q p p' : NominationProtocol N V H}
    (h : Kept ctx q p) (hv : p'.mVotes = p.mVotes) (ha : p'.mAccepted = p.mAccepted)
    (hc : p'.mCandidates = p.mCandidates) (hl : p'.mLatestNominations = p.mLatestNominations) :
    Kept ctx q p' := by
  obtain ⟨⟨hZ, hY, hsane⟩, hS, ⟨gv, ga, gc, gl⟩⟩ := h
  have hstmt : nominationStatement ctx p' = nominationStatement ctx p := by
    simp only [nominationStatement, hv, ha]
  refine ⟨⟨?_, ?_, ?_⟩, ?_, ⟨?_, ?_, ?_, ?_⟩⟩
  · rw [hc, ha]; exact hZ
  · rw [ha, hv]; exact hY
  · rw [hl]; exact hsane
  · rw [SelfSync, hl, hv, hstmt]; exact hS
  · rw [hv]; exact gv
  · rw [ha]; exact ga
  · rw [hc]; exact gc
  · rw [hl]; exact gl

theorem Kept.grows_from {ctx : SlotContext N V H} {r q p : NominationProtocol N V H}
    (h : Kept ctx q p) (hrq : Grows r q) : Kept ctx r p :=
  ⟨h.inv, h.sync, hrq.trans h.grows⟩

/-- What a call establishes when it returns: `extra` about its result, and the
invariants again, grown from the state it was called in. -/
def CallPost (ctx : SlotContext N V H) (s : Slot N V H σ) {α : Type} (extra : α → Prop)
    (r : α × Slot N V H σ) : Prop :=
  extra r.1 ∧ Kept ctx s.nomination r.2.nomination

/-- The specification of a call: it never throws `movedToBadState`, and `post` holds
when it returns. -/
abbrev CallSpec {α : Type} (post : α → Prop) (res : Except (SCPError E) α) : Prop :=
  Except.Spec (· ≠ movedToBadState) post res

/-- **`emitNomination`** returns, with the invariants restored, provided the
re-entrant call accepts the node's own statement. -/
theorem emitNomination_spec (ctx : SlotContext N V H)
    {process : N → SCPNomination V H → Slot N V H σ →
      Except (SCPError E) (EnvelopeState × Slot N V H σ)}
    (s : Slot N V H σ)
    (hproc : CallSpec (CallPost ctx s (· = .VALID))
      (process ctx.localNodeID (nominationStatement ctx s.nomination) s)) :
    CallSpec (fun s' => Kept ctx s.nomination s'.nomination) (emitNomination ctx process s) := by
  unfold emitNomination
  refine Except.Spec.bind hproc fun ⟨res, s'⟩ ⟨hres, hpost⟩ => ?_
  -- the own statement was accepted, so the throw is not taken
  dsimp only at hres hpost
  subst hres
  simp only [↓reduceIte]
  split_ifs
  · exact Except.Spec.pure (hpost.congr rfl rfl rfl rfl)
  · exact Except.Spec.pure hpost

/-- Handing new candidates to the ballot protocol changes neither `X`, `Y`, `Z` nor the
recorded nominations; its failures are the ballot protocol's. -/
theorem candidatesUpdated_spec (ctx : SlotContext N V H) (hooks : SlotHooks σ V E)
    {q : NominationProtocol N V H} (s : Slot N V H σ) (h : Kept ctx q s.nomination) :
    CallSpec (fun s' => Kept ctx q s'.nomination) (candidatesUpdated ctx hooks s) := by
  unfold candidatesUpdated
  dsimp only
  split
  · exact Except.Spec.throw (by intro h; cases h)
  · next stopped _ =>
    refine Except.Spec.pure ?_
    -- the composite candidate and the `started` flag are not part of the invariants
    cases stopped <;> exact h.congr rfl rfl rfl rfl

/-- **The specification of `processEnvelope`**, by induction on the fuel. A statement
of another node is processed from a synchronised state; the node's own statement is
processed (from `emitNomination`) when the state is behind, and is then accepted. -/
theorem processEnvelope_spec (ctx : SlotContext N V H) (hooks : SlotHooks σ V E) (fuel : Nat) :
    ∀ (nodeID : N) (nom : SCPNomination V H) (s : Slot N V H σ), Inv s.nomination →
      (nodeID ≠ ctx.localNodeID → SelfSync ctx s.nomination) →
      (nodeID = ctx.localNodeID →
        nom = nominationStatement ctx s.nomination ∧ SelfBehind ctx s.nomination) →
      CallSpec (CallPost ctx s (fun r => nodeID = ctx.localNodeID → r = .VALID))
        (processEnvelope ctx hooks fuel nodeID nom s) := by
  induction fuel with
  | zero =>
    intro nodeID nom s _ _ _
    exact Except.Spec.throw (by intro h; cases h)
  | succ fuel ih =>
    intro nodeID nom s hI hother hself
    -- the node's own statement passes both checks
    have hchecks : nodeID = ctx.localNodeID →
        isNewerStatementFrom s.nomination nodeID nom = true ∧ isSane nom = true := by
      intro hn
      obtain ⟨rfl, hB⟩ := hself hn
      subst hn
      exact ⟨isNewerStatementFrom_self ctx hI hB, nominationStatement_sane ctx hB.votes_nonempty⟩
    -- so only another node's statement can be rejected, which leaves the state alone
    have hreject (hn : nodeID ≠ ctx.localNodeID) :
        CallSpec (CallPost ctx s (fun r => nodeID = ctx.localNodeID → r = .VALID))
          (pure (EnvelopeState.INVALID, s) : Except (SCPError E) _) :=
      Except.Spec.pure ⟨fun h => absurd h hn, hI, hother hn, Grows.refl _⟩
    rw [processEnvelope]
    refine Except.Spec.ite (fun hnew => hreject fun hn => ?_)
      (fun hnew => Except.Spec.ite (fun hsane => hreject fun hn => ?_) (fun hsane => ?_))
    · simp [(hchecks hn).1] at hnew
    · simp [(hchecks hn).2] at hsane
    simp only [Bool.not_eq_true', Bool.not_eq_false] at hnew hsane
    obtain ⟨hIq, hGq⟩ := recordEnvelope_spec hI hsane hnew
    -- after recording, the own entry is synchronised again
    have hSq : SelfSync ctx (recordEnvelope s.nomination nodeID nom) := by
      by_cases hn : nodeID = ctx.localNodeID
      · obtain ⟨rfl, hB⟩ := hself hn
        subst hn
        exact recordEnvelope_selfSync_self ctx hB
      · exact recordEnvelope_selfSync_other ctx nom hn (hother hn)
    refine Except.Spec.ite (fun _ => ?_) (fun _ => Except.Spec.pure ⟨fun _ => rfl, hIq, hSq, hGq⟩)
    obtain ⟨hI₃, hG₃, hbehind, hsync⟩ := collect_spec ctx nodeID nom hIq hSq
    refine Except.Spec.ite_bind (fun hm => ?_)
      (fun hm => Except.Spec.pure ⟨hI₃, hsync (by simpa using hm), hGq.trans hG₃⟩)
      fun (s₁ : Slot N V H σ) (h₁ : Kept ctx s.nomination s₁.nomination) => ?_
    · -- the re-entrant call on the own statement, by the induction hypothesis
      have hB := hbehind hm
      refine Except.Spec.mono (emitNomination_spec ctx _ ?_) (fun _ h => h)
        fun s' hk => hk.grows_from (hGq.trans hG₃)
      exact Except.Spec.mono (ih _ _ _ hI₃ (fun h => absurd rfl h) fun _ => ⟨rfl, hB⟩)
        (fun _ h => h) fun r ⟨hr, hk⟩ => ⟨hr rfl, hk⟩
    -- then the new candidates go to the ballot protocol
    exact Except.Spec.ite_bind (fun _ => candidatesUpdated_spec ctx hooks s₁ h₁)
      (fun _ => Except.Spec.pure h₁)
      fun (s₂ : Slot N V H σ) (h₂ : Kept ctx s.nomination s₂.nomination) =>
        Except.Spec.pure ⟨fun _ => rfl, h₂⟩

/-! ### `nominate` -/

/-- A vote-collecting step taken where the invariants hold keeps them, except that a
raised flag leaves the own entry behind, ready for `emitNomination`. -/
theorem VotesStep.kept {ctx : SlotContext N V H} {q₀ q p : NominationProtocol N V H} {m : Bool}
    (hk : Kept ctx q₀ q) (h : VotesStep q p m) :
    Inv p ∧ Grows q₀ p ∧ (m = true → SelfBehind ctx p) ∧ (m = false → Kept ctx q₀ p) := by
  have hL : p.mLatestNominations = q.mLatestNominations := by rw [h.frame]
  have hZ : p.mCandidates = q.mCandidates := by rw [h.frame]
  have hYX : p.mAccepted ⊆ p.mVotes := h.accepted_subset hk.inv.accepted_subset
  refine ⟨⟨?_, hYX, ?_⟩, hk.grows.trans ⟨h.votes_mono, h.accepted_mono, ?_, ?_⟩, fun hm => ?_,
    fun hm => ?_⟩
  · rw [hZ]; exact hk.inv.candidates_subset.trans h.accepted_mono
  · rw [hL]; exact hk.inv.recorded_sane
  · rw [hZ]
  · exact fun n old hold => ⟨old, by rw [hL]; exact hold, .inl rfl⟩
  · exact selfBehind_of_selfSync ctx hk.sync (by rw [hL]) hYX h.votes_mono h.accepted_mono
      (h.modified_strict hm)
  · rw [h.unmodified hm]; exact hk

omit [LinearOrder V] in
/-- The round-leaders loop changes only the leaders and the round number; it fails
only on a failed assertion or when it does not return. -/
theorem roundLeadersLoop_spec (ctx : SlotContext N V H) (myQSet : SCPQuorumSet N)
    (maxLeaderCount : Nat) (fuel : Nat) :
    ∀ p : NominationProtocol N V H, CallSpec
      (fun p' => p' = { p with mRoundLeaders := p'.mRoundLeaders, mRoundNumber := p'.mRoundNumber })
      (roundLeadersLoop ctx myQSet maxLeaderCount fuel p : Except (SCPError E) _) := by
  induction fuel with
  | zero => exact fun p => Except.Spec.throw (by intro h; cases h)
  | succ fuel ih =>
    intro p
    rw [roundLeadersLoop]
    refine Except.Spec.ite (fun _ => ?_) (fun _ => Except.Spec.pure rfl)
    split
    · exact Except.Spec.throw (by intro h; cases h)
    · refine Except.Spec.ite (fun _ => Except.Spec.pure rfl) (fun _ => ?_)
      -- the next round starts from the grown leaders and the next round number
      exact Except.Spec.mono (ih _) (fun _ h => h) fun p' h => by rw [h]

omit [LinearOrder V] in
theorem updateRoundLeaders_spec (ctx : SlotContext N V H) (fuel : Nat)
    (p : NominationProtocol N V H) : CallSpec
      (fun p' => p' = { p with mRoundLeaders := p'.mRoundLeaders, mRoundNumber := p'.mRoundNumber })
      (updateRoundLeaders ctx fuel p : Except (SCPError E) _) :=
  roundLeadersLoop_spec ctx _ _ fuel p

/-- `nominate`'s votes: its own value when the node leads the round, then one new
value from each leader. -/
theorem nominate_votes_spec (ctx : SlotContext N V H) (p : NominationProtocol N V H) (value : V) :
    let r₁ : NominationProtocol N V H × Bool :=
      if ctx.localNodeID ∈ p.mRoundLeaders ∧ value ∉ p.mVotes then
        ({ p with mVotes := insert value p.mVotes }, true)
      else (p, false)
    let r₂ := leaderVotes ctx r₁.1 (SortedList.toSortedList r₁.1.mRoundLeaders)
    VotesStep p r₂.1 (r₁.2 || r₂.2) := by
  intro r₁ r₂
  have h₁ : VotesStep p r₁.1 r₁.2 := by
    simp only [r₁]
    split_ifs with h
    · exact VotesStep.insertVote h.2
    · exact VotesStep.refl p
  exact h₁.trans (leaderVotes_spec ctx _ _)

/-- **The specification of `nominate`**: from a state where the invariants hold it
never throws `movedToBadState`, and it returns with the invariants restored. -/
theorem nominate_spec (ctx : SlotContext N V H) (hooks : SlotHooks σ V E) (fuel : Nat)
    (value previousValue : V) (timedout : Bool) (s : Slot N V H σ)
    (hk : Kept ctx s.nomination s.nomination) :
    CallSpec (CallPost ctx s (fun _ => True))
      (nominate ctx hooks fuel value previousValue timedout s) := by
  unfold nominate
  dsimp only
  -- the timer count is not part of the invariants
  generalize hp : (if timedout = true then
      { s.nomination with mTimerExpCount := s.nomination.mTimerExpCount + 1 }
    else s.nomination) = p
  have hkp : Kept ctx s.nomination p := by
    rw [← hp]
    split_ifs
    · exact hk.congr rfl rfl rfl rfl
    · exact hk
  refine Except.Spec.ite (fun _ => Except.Spec.pure ⟨trivial, hkp⟩) (fun _ => ?_)
  -- neither are the round, the leaders and the `started` flag
  refine Except.Spec.bind (updateRoundLeaders_spec ctx fuel _) fun p₀ hp₀ => ?_
  have hk₀ : Kept ctx s.nomination p₀ :=
    hkp.congr (by rw [hp₀]) (by rw [hp₀]) (by rw [hp₀]) (by rw [hp₀])
  -- the own vote when leading, then one new value from each leader
  have hstep := nominate_votes_spec ctx p₀ value
  obtain ⟨hI₂, hG₂, hbehind, hkept⟩ := hstep.kept hk₀
  refine Except.Spec.ite (fun hm => ?_)
    (fun hm => Except.Spec.pure ⟨trivial, hkept (by simpa using hm)⟩)
  -- something changed: the own statement is behind, and the re-entrant call accepts it
  refine Except.Spec.bind (emitNomination_spec ctx _ ?_)
    fun s' hs' => Except.Spec.pure ⟨trivial, hs'.grows_from hG₂⟩
  exact Except.Spec.mono (processEnvelope_spec ctx hooks fuel _ _ _ hI₂ (fun h => absurd rfl h)
    fun _ => ⟨rfl, hbehind hm⟩) (fun _ h => h) fun r ⟨hr, hk'⟩ => ⟨hr rfl, hk'⟩

/-! ### The slot as the herder drives it -/

/-- The calls the herder makes into the nomination protocol of a slot. -/
inductive NominationCall (N V H : Type) where
  | nominate (value previousValue : V) (timedout : Bool)
  | processEnvelope (nodeID : N) (nom : SCPNomination V H)
  | stopNomination

/-- The herder only passes on envelopes of other nodes
(`HerderImpl::recvSCPEnvelope` skips the node's own). -/
def NominationCall.external (localNodeID : N) : NominationCall N V H → Bool
  | .processEnvelope nodeID _ => decide (nodeID ≠ localNodeID)
  | _ => true

/-- One call into the nomination protocol of a slot. -/
def slotCall (ctx : SlotContext N V H) (hooks : SlotHooks σ V E) (fuel : Nat) :
    NominationCall N V H → Slot N V H σ → Except (SCPError E) (Slot N V H σ)
  | .nominate value previousValue timedout, s => do
    let r ← nominate ctx hooks fuel value previousValue timedout s
    pure r.2
  | .processEnvelope nodeID nom, s => do
    let r ← processEnvelope ctx hooks fuel nodeID nom s
    pure r.2
  | .stopNomination, s => pure { s with nomination := stopNomination s.nomination }

/-- The slot as a system: it starts fresh, and every step is a call the herder
makes that returns. -/
def slotSystem (ctx : SlotContext N V H) (hooks : SlotHooks σ V E) (fuel : Nat)
    (ballot : σ) : System (Slot N V H σ) (NominationCall N V H) where
  init := ⟨init, ballot⟩
  step s a s' := a.external ctx.localNodeID = true ∧ slotCall ctx hooks fuel a s = .ok s'

theorem Kept.initial (ctx : SlotContext N V H) :
    Kept ctx (init : NominationProtocol N V H) init := by
  refine ⟨⟨?_, ?_, fun n nom h => ?_⟩, ?_, Grows.refl _⟩
  · exact Finset.empty_subset _
  · exact Finset.empty_subset _
  · simp [init] at h
  · simp [SelfSync, init]

/-- Every call the herder makes keeps the invariants and never throws
`movedToBadState`. -/
theorem slotCall_spec (ctx : SlotContext N V H) (hooks : SlotHooks σ V E) (fuel : Nat)
    (a : NominationCall N V H) (ha : a.external ctx.localNodeID = true) (s : Slot N V H σ)
    (hk : Kept ctx s.nomination s.nomination) :
    CallSpec (fun s' => Kept ctx s.nomination s'.nomination) (slotCall ctx hooks fuel a s) := by
  cases a with
  | nominate value previousValue timedout =>
    exact Except.Spec.bind (nominate_spec ctx hooks fuel value previousValue timedout s hk)
      fun r hr => Except.Spec.pure hr.2
  | processEnvelope nodeID nom =>
    -- another node's statement, processed from a synchronised state
    have hn : nodeID ≠ ctx.localNodeID := by simpa [NominationCall.external] using ha
    exact Except.Spec.bind (processEnvelope_spec ctx hooks fuel nodeID nom s hk.inv
      (fun _ => hk.sync) (fun h => absurd h hn)) fun r hr => Except.Spec.pure hr.2
  | stopNomination =>
    exact Except.Spec.pure (hk.congr rfl rfl rfl rfl)

/-- A step of the slot system keeps the invariants, and the state grows. -/
theorem slotSystem_step_kept {ctx : SlotContext N V H} {hooks : SlotHooks σ V E} {fuel : Nat}
    {ballot : σ} {s s' : Slot N V H σ} {a : NominationCall N V H}
    (hk : Kept ctx s.nomination s.nomination) (hstep : (slotSystem ctx hooks fuel ballot).step s a s') :
    Kept ctx s.nomination s'.nomination :=
  (slotCall_spec ctx hooks fuel a hstep.1 s hk).post_of_eq_ok hstep.2

/-- Reachable states of the slot system satisfy the invariants. -/
theorem slotSystem_reachable_kept {ctx : SlotContext N V H} {hooks : SlotHooks σ V E}
    {fuel : Nat} {ballot : σ} {s : Slot N V H σ}
    (h : (slotSystem ctx hooks fuel ballot).Reachable s) : Kept ctx s.nomination s.nomination :=
  @System.Reachable.induction _ _ (slotSystem ctx hooks fuel ballot)
    (fun s => Kept ctx s.nomination s.nomination) (Kept.initial ctx) (fun _ _ _ _ hk hstep =>
      let hk' := slotSystem_step_kept hk hstep
      ⟨hk'.inv, hk'.sync, Grows.refl _⟩) _ h

/-- **The nomination state invariant.** Along every run of a slot that the herder
drives: `Z ⊆ Y ⊆ X` and only sane statements are recorded; between any two moments
the three sets only grow and every recorded nomination is kept or superseded; and
no call the herder makes ends in "moved to a bad state (nomination)". -/
theorem nomination_state_invariant (ctx : SlotContext N V H) (hooks : SlotHooks σ V E)
    (fuel : Nat) (ballot : σ) :
    (∀ s, (slotSystem ctx hooks fuel ballot).Reachable s → Inv s.nomination) ∧
    (∀ s t, (slotSystem ctx hooks fuel ballot).Reachable s →
      (slotSystem ctx hooks fuel ballot).Follows s t → Grows s.nomination t.nomination) ∧
    (∀ s a, (slotSystem ctx hooks fuel ballot).Reachable s →
      a.external ctx.localNodeID = true → slotCall ctx hooks fuel a s ≠ .error movedToBadState) := by
  refine ⟨fun s hs => (slotSystem_reachable_kept hs).inv, fun s t hs hst => ?_,
    fun s a hs ha => ?_⟩
  · -- growth is reflexive and transitive, and every step from a reachable state grows
    exact @System.Follows.of_step _ _ (slotSystem ctx hooks fuel ballot)
      (fun s t => Grows s.nomination t.nomination) (fun s => Grows.refl s.nomination) (fun _ _ _ h₁ h₂ => h₁.trans h₂)
      (fun _ _ _ hs hstep => (slotSystem_step_kept (slotSystem_reachable_kept hs) hstep).grows)
      _ _ hs hst
  · exact (slotCall_spec ctx hooks fuel a ha s (slotSystem_reachable_kept hs)).not_error
      (fun h => h rfl)

/-! ### Without the herder's filter -/

namespace SelfEnvelope

/-- A driver that finds every value fully valid, ranks node `0` above every other
node, and hashes a value to itself. -/
def driver : SCPDriver Nat Nat Unit where
  validateValue _ _ _ := .kFullyValidatedValue
  extractValidValue _ _ := none
  getQSet _ := some (.mk 1 [1] [])
  computeHashNode _ _ isPriority _ n := if isPriority then (if n = 0 then 10 else 5) else 0
  computeValueHash _ _ _ v := v
  combineCandidates _ _ := 0

/-- Node `0` of slot `1`, trusting node `1` alone. -/
def ctx : SlotContext Nat Nat Unit := ⟨1, 0, .mk 1 [1] [], (), driver⟩

/-- A ballot protocol that accepts every value and never stops nomination. -/
def hooks : SlotHooks Unit Nat Unit := ⟨fun _ _ _ => .ok ((), false), fun _ => false⟩

end SelfEnvelope

/-- Fed a statement under its own name, a node can throw. Node `0` nominates `5` and
leads the round; it then receives "its own" vote for `5` and `7`, which is newer than
the one it recorded. It records it, takes `7` over from it as the round's leader, and
emits the statement it has just recorded, which is not newer. -/
theorem nomination_selfEnvelope_throws :
    (slotCall SelfEnvelope.ctx SelfEnvelope.hooks 3 (.nominate 5 0 false) ⟨init, ()⟩ >>=
      slotCall SelfEnvelope.ctx SelfEnvelope.hooks 3 (.processEnvelope 0 ⟨(), [5, 7], []⟩)) =
      .error movedToBadState := by
  decide +kernel

end NominationProtocol
end Scp
end HcnetCore
