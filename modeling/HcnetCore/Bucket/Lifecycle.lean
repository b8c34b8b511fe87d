import HcnetCore.Bucket.Merge
import Mathlib.Data.List.Chain

/-!
# The reader's view of a bucket list and the INIT/DEAD lifecycle

A bucket list is a list of buckets, newest first. A reader looks a key up in the
newest bucket that holds it: a LIVE or INIT entry gives its value, a DEAD entry
says the key is gone (`lookup`). All that matters about one key is therefore its
*history*, the entries the buckets hold for it, newest first (`keyHistory`).

Merging two adjacent buckets replaces, in every history, the entries of the two
buckets by what the lifecycle table keeps of them. That is invisible to the reader
only because of a second invariant (`WellFormed`): in time order, an INIT entry is
the oldest entry of its key or comes right after a DEAD entry. An INIT entry that
a DEAD entry annihilates then has nothing but a DEAD entry, or nothing, below it.

## Main results

* `historyStep` — the local argument, on one pair of entries and what lies below
  them; one case per row of the lifecycle table;
* `merge_adjacent` — **merging two adjacent buckets of a well-formed bucket list**
  returns a sorted bucket, keeps the list well formed and every lookup unchanged;
  with the dead entries dropped, this holds when the merged pair is the oldest.
-/

namespace HcnetCore

namespace Bucket

open KeyedMerge BucketEntry

variable {K V : Type}

/-! ### Histories -/

/-- In time order, an INIT entry comes right after a DEAD entry: in a history listed
newest first, an INIT entry is followed by a DEAD one. -/
def InitAfterDead (a b : BucketEntry K V) : Prop := a.isInit = true → b.isDead = true

instance : DecidableRel (@InitAfterDead K V) := fun _ _ =>
  inferInstanceAs (Decidable (_ → _))

/-- The lifecycle invariant of one key's history (newest first): every INIT entry
is the oldest one or directly preceded in time by a DEAD entry. -/
def LifecycleOK (h : List (BucketEntry K V)) : Prop := h.IsChain InitAfterDead

instance : DecidablePred (@LifecycleOK K V) := fun h =>
  inferInstanceAs (Decidable (h.IsChain InitAfterDead))

/-- What a LIVE or INIT entry says about its key: its value; a DEAD entry: nothing. -/
def entryValue : BucketEntry K V → Option V
  | LIVEENTRY _ v => some v
  | INITENTRY _ v => some v
  | DEADENTRY _ => none

@[simp] theorem entryValue_LIVEENTRY (k : K) (v : V) : entryValue (LIVEENTRY k v) = some v := rfl
@[simp] theorem entryValue_INITENTRY (k : K) (v : V) : entryValue (INITENTRY k v) = some v := rfl
@[simp] theorem entryValue_DEADENTRY (k : K) : entryValue (DEADENTRY k : BucketEntry K V) = none :=
  rfl

theorem entryValue_eq_none_of_isDead {e : BucketEntry K V} (h : e.isDead = true) :
    entryValue e = none := by
  cases e <;> simp_all [entryValue]

/-- What a reader sees of a history: the newest entry decides. -/
def readHistory (h : List (BucketEntry K V)) : Option V := h.head?.bind entryValue

/-- Two entries of one key, one from each input, that the merge accepts. -/
def PairOK : Option (BucketEntry K V) → Option (BucketEntry K V) → Prop
  | some o, some n => ¬ Malformed o n
  | _, _ => True

/-- **One pair of entries in a history.** Let `n` and `o` be the entries of a newer
and an older bucket for one key, and `ys` the older entries below them. If the
history `n, o, ys` keeps the lifecycle invariant, then the pair is accepted by the
merge, and replacing it by what the lifecycle table keeps: keeps the invariant,
keeps what an INIT entry directly above needs, and does not change what a reader
sees. -/
theorem historyStep (o n : Option (BucketEntry K V)) (ys : List (BucketEntry K V))
    (h : LifecycleOK (n.toList ++ o.toList ++ ys)) :
    PairOK o n ∧ LifecycleOK ((combine mergeEntries o n).toList ++ ys) ∧
      (∀ x, (∀ y ∈ (n.toList ++ o.toList ++ ys).head?, InitAfterDead x y) →
        ∀ y ∈ ((combine mergeEntries o n).toList ++ ys).head?, InitAfterDead x y) ∧
      readHistory ((combine mergeEntries o n).toList ++ ys) =
        readHistory (n.toList ++ o.toList ++ ys) := by
  unfold LifecycleOK at h ⊢
  rcases o with _ | o <;> rcases n with _ | n
  · -- neither bucket holds the key
    exact ⟨trivial, by simpa [combine] using h, fun x hx => by simpa [combine] using hx, rfl⟩
  · -- only the newer bucket holds it: it stays
    exact ⟨trivial, by simpa [combine] using h, fun x hx => by simpa [combine] using hx, rfl⟩
  · -- only the older bucket holds it: it stays
    exact ⟨trivial, by simpa [combine] using h, fun x hx => by simpa [combine] using hx, rfl⟩
  · -- both hold it: one case per row of the lifecycle table, and per what lies below
    cases o <;> cases n <;> rcases ys with _ | ⟨y, ys⟩ <;>
      simp_all [combine, mergeEntries, PairOK, Malformed, InitAfterDead, readHistory,
        entryValue_eq_none_of_isDead]

/-- **Dropping a dead entry** that the output iterator does not keep. With nothing
older below it, a dead entry says what its absence says, and an INIT entry above it
becomes the oldest. -/
theorem historyDrop (keepDeadEntries : Bool) (c : Option (BucketEntry K V))
    (ys : List (BucketEntry K V)) (hkeep : keepDeadEntries = true ∨ ys = [])
    (h : LifecycleOK (c.toList ++ ys)) :
    LifecycleOK ((c.filter (kept keepDeadEntries)).toList ++ ys) ∧
      (∀ x, (∀ y ∈ (c.toList ++ ys).head?, InitAfterDead x y) →
        ∀ y ∈ ((c.filter (kept keepDeadEntries)).toList ++ ys).head?, InitAfterDead x y) ∧
      readHistory ((c.filter (kept keepDeadEntries)).toList ++ ys) =
        readHistory (c.toList ++ ys) := by
  rcases hkeep with rfl | rfl
  · -- everything is kept
    have hc : c.filter (kept true) = c := by cases c <;> simp [kept]
    rw [hc]
    exact ⟨h, fun _ hx => hx, rfl⟩
  · unfold LifecycleOK at h ⊢
    rcases c with _ | e
    · exact ⟨h, fun _ hx => hx, rfl⟩
    · -- the only entry is dropped exactly when it is dead and not kept
      cases keepDeadEntries <;> cases e <;>
        simp [kept, Option.filter_some, InitAfterDead, readHistory]

/-- A reader looks at the newest entry, so a common newer part decides alone. -/
theorem readHistory_append_congr (P : List (BucketEntry K V)) {l l' : List (BucketEntry K V)}
    (h : readHistory l = readHistory l') : readHistory (P ++ l) = readHistory (P ++ l') := by
  cases P with
  | nil => exact h
  | cons x P => rfl

/-- **Replacing part of a history.** If the replacement `m'` of the middle part `m`
keeps the invariant with what lies below, keeps what the entry above needs, and
reads the same, the whole history keeps the invariant and reads the same. -/
theorem LifecycleOK.replace {P m m' : List (BucketEntry K V)} (h : LifecycleOK (P ++ m))
    (hm : LifecycleOK m')
    (hlink : ∀ x, (∀ y ∈ m.head?, InitAfterDead x y) → ∀ y ∈ m'.head?, InitAfterDead x y) :
    LifecycleOK (P ++ m') := by
  obtain ⟨hP, -, hPm⟩ := List.isChain_append.mp h
  exact List.IsChain.append hP hm fun x hx => hlink x (hPm x hx)

/-! ### Bucket lists -/

variable [LinearOrder K]

/-- The entries a bucket list (newest bucket first) holds for key `k`, newest first. -/
def keyHistory (k : K) (bl : List (List (BucketEntry K V))) : List (BucketEntry K V) :=
  bl.filterMap (findKey key k)

/-- `lookup(k)`: the value of the newest entry for `k`; none if that entry is DEAD or
there is none. -/
def lookup (k : K) (bl : List (List (BucketEntry K V))) : Option V :=
  readHistory (keyHistory k bl)

/-- A well-formed bucket list: the history of every key keeps the lifecycle
invariant. -/
def WellFormed (bl : List (List (BucketEntry K V))) : Prop :=
  ∀ k, LifecycleOK (keyHistory k bl)

theorem keyHistory_nil (k : K) : keyHistory k ([] : List (List (BucketEntry K V))) = [] := rfl

theorem keyHistory_cons (k : K) (b : List (BucketEntry K V)) (bl : List (List (BucketEntry K V))) :
    keyHistory k (b :: bl) = (findKey key k b).toList ++ keyHistory k bl := by
  cases h : findKey key k b <;> simp [keyHistory, h]

theorem keyHistory_append (k : K) (bl bl' : List (List (BucketEntry K V))) :
    keyHistory k (bl ++ bl') = keyHistory k bl ++ keyHistory k bl' :=
  List.filterMap_append

/-- Only the keys that occur need checking: a key no bucket holds has an empty
history. -/
theorem wellFormed_iff (bl : List (List (BucketEntry K V))) :
    WellFormed bl ↔ ∀ b ∈ bl, ∀ e ∈ b, LifecycleOK (keyHistory e.key bl) := by
  refine ⟨fun h _ _ _ _ => h _, fun h k => ?_⟩
  by_cases hk : ∃ b ∈ bl, ∃ e, findKey key k b = some e
  · obtain ⟨b, hb, e, he⟩ := hk
    have hek := key_of_findKey_eq_some he
    rw [← hek]
    exact h b hb e (List.mem_of_find?_eq_some he)
  · simp only [not_exists, not_and] at hk
    have hnil : keyHistory k bl = [] := by
      rw [keyHistory, List.filterMap_eq_nil_iff]
      intro b hb
      exact Option.eq_none_iff_forall_ne_some.mpr (hk b hb)
    rw [hnil]
    exact List.isChain_nil

instance : DecidablePred (@WellFormed K V _) := fun bl =>
  decidable_of_iff _ (wellFormed_iff bl).symm

/-- **Merging two adjacent buckets of a well-formed bucket list.** Replacing the
newer bucket `new` and the older bucket `old` next to it by their merge: the merge
returns (in particular it never throws "Malformed bucket"), its result is sorted,
the bucket list stays well formed and every lookup is unchanged. When the dead
entries are dropped, this holds when no older bucket follows. -/
theorem merge_adjacent (keepDeadEntries : Bool) (pre post : List (List (BucketEntry K V)))
    (new old : List (BucketEntry K V))
    (hsorted : ∀ b ∈ pre ++ new :: old :: post, SortedByKey key b)
    (hwf : WellFormed (pre ++ new :: old :: post))
    (hkeep : keepDeadEntries = true ∨ post = []) :
    ∃ merged, merge keepDeadEntries old new = .ok merged ∧ SortedByKey key merged ∧
      WellFormed (pre ++ merged :: post) ∧
      ∀ k, lookup k (pre ++ merged :: post) = lookup k (pre ++ new :: old :: post) := by
  have hnew : SortedByKey key new := hsorted new (by simp)
  have hold : SortedByKey key old := hsorted old (by simp)
  -- every history is the newer part, the pair, and the older part
  have hhist : ∀ k, keyHistory k (pre ++ new :: old :: post) = keyHistory k pre ++
      ((findKey key k new).toList ++ (findKey key k old).toList ++ keyHistory k post) := by
    intro k
    rw [keyHistory_append, keyHistory_cons, keyHistory_cons, List.append_assoc]
  have hpair : ∀ k, LifecycleOK ((findKey key k new).toList ++ (findKey key k old).toList ++
      keyHistory k post) := fun k => by
    have h := hwf k
    rw [hhist k] at h
    exact (List.isChain_append.mp h).2.1
  -- the pairs the merge meets are accepted
  have hwp : WellPaired old new := by
    intro o ho n hn hon
    have hfo : findKey key o.key old = some o := (findKey_eq_some_iff hold).mpr ⟨ho, rfl⟩
    have hfn : findKey key o.key new = some n := (findKey_eq_some_iff hnew).mpr ⟨hn, hon.symm⟩
    have := (historyStep _ _ _ (hpair o.key)).1
    rwa [hfo, hfn] at this
  refine ⟨_, merge_eq keepDeadEntries hold hnew hwp,
    sortedByKey_filter _ (sortedByKey_mergeWith key_of_mergeEntries old new hold hnew), ?_⟩
  -- what the merged bucket holds for a key: the table applied to the pair, filtered
  have hfind : ∀ k, findKey key k ((mergeWith key mergeEntries old new).filter
      (kept keepDeadEntries)) =
      (combine mergeEntries (findKey key k old) (findKey key k new)).filter (kept keepDeadEntries) :=
    fun k => by
      rw [findKey_filter _ _ (sortedByKey_mergeWith key_of_mergeEntries old new hold hnew),
        findKey_mergeWith key_of_mergeEntries k old new hold hnew]
  have hhist' : ∀ k, keyHistory k (pre ++ (mergeWith key mergeEntries old new).filter
      (kept keepDeadEntries) :: post) = keyHistory k pre ++
      (((combine mergeEntries (findKey key k old) (findKey key k new)).filter
        (kept keepDeadEntries)).toList ++ keyHistory k post) := by
    intro k
    rw [keyHistory_append, keyHistory_cons, hfind]
  -- with nothing older, dropping dead entries is allowed
  have hkeep' : ∀ k, keepDeadEntries = true ∨ keyHistory k post = [] := fun k =>
    hkeep.imp id fun h => by rw [h, keyHistory_nil]
  refine ⟨fun k => ?_, fun k => ?_⟩
  · obtain ⟨-, hm, hlink, -⟩ := historyStep _ _ _ (hpair k)
    obtain ⟨hm', hlink', -⟩ := historyDrop keepDeadEntries _ _ (hkeep' k) hm
    have h := hwf k
    rw [hhist k] at h
    rw [hhist' k]
    exact h.replace hm' fun x hx => hlink' x (hlink x hx)
  · obtain ⟨-, hm, -, hread⟩ := historyStep _ _ _ (hpair k)
    obtain ⟨-, -, hread'⟩ := historyDrop keepDeadEntries _ _ (hkeep' k) hm
    rw [lookup, lookup, hhist k, hhist' k]
    exact readHistory_append_congr _ (hread'.trans hread)

/-- A deletion and a re-creation of key `1` over an older value: the merge turns the
pair into an update, and the key still reads the re-created value. -/
theorem merge_adjacent_delete_create :
    (∀ b ∈ ([] ++ [INITENTRY 1 5] :: [DEADENTRY 1] :: [[LIVEENTRY 1 3]] :
      List (List (BucketEntry Nat Nat))), SortedByKey key b) ∧
    WellFormed ([] ++ [INITENTRY 1 5] :: [DEADENTRY 1] :: [[LIVEENTRY 1 3]] :
      List (List (BucketEntry Nat Nat))) ∧
    ∃ merged, merge true [DEADENTRY 1] [INITENTRY 1 5] = .ok merged ∧ SortedByKey key merged ∧
      WellFormed ([] ++ merged :: [[LIVEENTRY 1 3]]) ∧
      ∀ k, lookup k ([] ++ merged :: [[LIVEENTRY 1 3]]) =
        lookup k ([] ++ [INITENTRY 1 5] :: [DEADENTRY 1] :: [[LIVEENTRY 1 3]]) :=
  ⟨by decide, by decide, merge_adjacent true [] [[LIVEENTRY 1 3]] [INITENTRY 1 5] [DEADENTRY 1]
    (by decide) (by decide) (.inl rfl)⟩

end Bucket

end HcnetCore
