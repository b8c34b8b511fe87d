import HcnetCore.Overlay.FlowControl

/-!
# Credits of flow control: kept, and lost out of sync

A credit of the connection is always in exactly one place: unspent at the sender
(`mOutboundCapacity`), on a flood message on its way to the receiver, on a flood
message whose tracker is alive, counted in `mFloodMsgsProcessed`, or on a `SEND_MORE`
on its way back (`credits`). Every call moves credits between these places, except
one: a transaction, advert or demand read while the receiver is out of sync is
discarded before its tracker is built, and its credit is gone (`lost`).

* `Inv` — `credits + lost = PEER_FLOOD_READING_CAPACITY`, with the receiver's two
  capacities in step with its live trackers; `flowControl_inv` proves it of every
  reachable state from one lemma per step;
* `flowControl_never_halts` — hence the receiver never drops the sender as "at
  capacity", never fails the `releaseAssert` of `beginMesssageProcessing`, and the
  sender never drops the receiver for a `SEND_MORE`;
* `flowControl_credits_leak` — but the lost credits never come back: a run that
  discards `PEER_FLOOD_READING_CAPACITY` transactions out of sync reaches a state
  from which the sender never has a credit again, whatever happens next.
-/

namespace HcnetCore

namespace FlowControl

open Numeric

/-- The flood messages of a list. -/
def floods (l : List Message) : ℕ :=
  l.countP Message.isFloodMessage

@[simp] theorem floods_nil : floods [] = 0 := rfl

@[simp] theorem floods_append (l l' : List Message) : floods (l ++ l') = floods l + floods l' :=
  List.countP_append

@[simp] theorem floods_cons (msg : Message) (l : List Message) :
    floods (msg :: l) = floods l + (if msg.isFloodMessage then 1 else 0) := by
  simp [floods, List.countP_cons]

@[simp] theorem floods_map_flood (l : List FloodType) : floods (l.map .flood) = l.length := by
  induction l with
  | nil => rfl
  | cons t l ih => simp [ih, Message.isFloodMessage]

@[simp] theorem floods_singleton_other : floods [.other] = 0 := rfl

/-- Removing the `i`-th message removes its flood. -/
theorem floods_eraseIdx {l : List Message} {i : ℕ} (h : i < l.length) :
    floods (l.eraseIdx i) + (if l[i].isFloodMessage then 1 else 0) = floods l := by
  conv_rhs => rw [← List.take_append_drop i l, ← List.getElem_cons_drop h]
  rw [List.eraseIdx_eq_take_drop_succ, floods_append, floods_append, floods_cons]
  omega

/-! ### The sender's batch -/

/-- **A batch spends one credit per message sent.** -/
theorem sendBatch_credit (cap : ℕ) (queues : List (List FloodType)) :
    (sendBatch cap queues).1 + (sendBatch cap queues).2.2.length = cap := by
  induction queues generalizing cap with
  | nil => simp [sendBatch]
  | cons queue queues ih =>
    have h := ih (cap - min cap queue.length)
    simp only [sendBatch, List.length_append, List.length_take]
    omega

/-- Without a credit nothing is sent. -/
theorem sendBatch_zero (queues : List (List FloodType)) : sendBatch 0 queues = (0, queues, []) := by
  induction queues with
  | nil => rfl
  | cons queue queues ih => simp [sendBatch, ih]

/-- The credits of the connection, wherever they are. -/
def credits (st : State) : ℕ :=
  st.sender.mOutboundCapacity + floods st.toReceiver + floods st.receiver.trackers +
    st.receiver.mFloodMsgsProcessed + st.toSender.sum

theorem credits_maybeSendNextBatch (st : State) :
    credits (maybeSendNextBatch st) = credits st := by
  have h := sendBatch_credit st.sender.mOutboundCapacity st.sender.mOutboundQueues
  simp only [credits, maybeSendNextBatch, floods_append, floods_map_flood]
  omega

/-- Sending a batch touches neither the receiver nor the `SEND_MORE`s. -/
@[simp] theorem maybeSendNextBatch_receiver (st : State) :
    (maybeSendNextBatch st).receiver = st.receiver := rfl

@[simp] theorem maybeSendNextBatch_toSender (st : State) :
    (maybeSendNextBatch st).toSender = st.toSender := rfl

@[simp] theorem maybeSendNextBatch_lost (st : State) : (maybeSendNextBatch st).lost = st.lost := rfl

/-! ### The invariant -/

variable {cfg : Config}

/-- **The credit invariant.** The credits of the connection and the lost ones make
up the initial grant; the receiver's flood capacity is the grant less its live flood
trackers, its total capacity the reading capacity less all its live trackers; a
batch is never full between two calls; every `SEND_MORE` on the way carries a batch. -/
structure Inv (cfg : Config) (st : State) : Prop where
  conserved : credits st + st.lost = cfg.PEER_FLOOD_READING_CAPACITY
  floodCapacity :
    st.receiver.mFloodCapacity + floods st.receiver.trackers = cfg.PEER_FLOOD_READING_CAPACITY
  totalCapacity :
    st.receiver.mTotalCapacity + st.receiver.trackers.length = cfg.PEER_READING_CAPACITY
  processed_lt : st.receiver.mFloodMsgsProcessed < cfg.FLOW_CONTROL_SEND_MORE_BATCH_SIZE
  sendMore : ∀ n ∈ st.toSender, n = cfg.FLOW_CONTROL_SEND_MORE_BATCH_SIZE

theorem inv_initial : Inv cfg (initial cfg) where
  conserved := by simp [credits, initial]
  floodCapacity := by simp [initial]
  totalCapacity := by simp [initial]
  processed_lt := cfg.batch_pos
  sendMore := by simp [initial]

/-- Sending a flood message moves credits from the sender to the channel. -/
theorem inv_sendMessage {st : State} (h : Inv cfg st) (type : FloodType)
    (trimmed : List FloodType) : Inv cfg (sendMessage st type trimmed) := by
  have hc := credits_maybeSendNextBatch (addMsgAndMaybeTrimQueue st type trimmed)
  exact ⟨by rw [sendMessage, hc]; exact h.conserved, h.floodCapacity, h.totalCapacity,
    h.processed_lt, h.sendMore⟩

theorem inv_sendOther {st : State} (h : Inv cfg st) :
    Inv cfg { st with toReceiver := st.toReceiver ++ [.other] } :=
  ⟨by simpa only [credits, floods_append, floods_singleton_other, add_zero] using h.conserved,
    h.floodCapacity, h.totalCapacity, h.processed_lt, h.sendMore⟩

/-- What `beginMesssageProcessing` takes when it returns: one unit of total capacity,
and one of flood capacity for a flood message. -/
theorem beginMesssageProcessing_eq_ok {r r' : Receiver} {msg : Message}
    (h : beginMesssageProcessing r msg = .ok r') :
    r'.mTotalCapacity + 1 = r.mTotalCapacity ∧
    r'.mFloodCapacity + (if msg.isFloodMessage then 1 else 0) = r.mFloodCapacity ∧
    r'.mFloodMsgsProcessed = r.mFloodMsgsProcessed ∧ r'.trackers = r.trackers ∧
    r'.isSynced = r.isSynced := by
  unfold beginMesssageProcessing at h
  split at h
  · cases h
  · dsimp only at h
    cases hflood : msg.isFloodMessage <;>
      simp only [hflood, Bool.false_eq_true, ↓reduceIte] at h ⊢
    · -- not a flood message: only the total capacity is taken
      cases h
      dsimp only
      exact ⟨by omega, rfl, rfl, rfl, rfl⟩
    · split at h
      · cases h
      · cases h
        dsimp only
        exact ⟨by omega, by omega, rfl, rfl, rfl⟩

/-- Reading a message moves it, and its credit, from the channel to a tracker, or
loses it. -/
theorem inv_recvMessage {st st' : State} {msg : Message} {rest : List Message}
    (h : Inv cfg st) (hq : st.toReceiver = msg :: rest)
    (hrecv : recvMessage { st with toReceiver := rest } msg = .ok st') : Inv cfg st' := by
  have hc := h.conserved
  simp only [credits, hq, floods_cons] at hc
  unfold FlowControl.recvMessage at hrecv
  split at hrecv
  · next hdrop =>
    -- out of sync: the message is discarded and its credit lost
    cases hrecv
    have hflood : msg.isFloodMessage = true := by
      revert hdrop
      cases msg with
      | flood type => intro; rfl
      | other => simp [Message.ignoreIfOutOfSync]
    rw [hflood, if_pos rfl] at hc
    refine ⟨?_, h.floodCapacity, h.totalCapacity, h.processed_lt, h.sendMore⟩
    simp only [credits]
    omega
  · -- a tracker is built
    obtain ⟨r, hbegin, hst⟩ := Except.bind_eq_ok.mp hrecv
    cases hst
    obtain ⟨htotal, hfloodCap, hprocessed, htrackers, -⟩ := beginMesssageProcessing_eq_ok hbegin
    dsimp only at htotal hfloodCap hprocessed htrackers
    have hf := h.floodCapacity
    have ht := h.totalCapacity
    refine ⟨?_, ?_, ?_, ?_, h.sendMore⟩
    · simp only [credits, floods_append, floods_cons, floods_nil, htrackers, hprocessed]
      omega
    · simp only [floods_append, floods_cons, floods_nil, htrackers]
      omega
    · simp only [List.length_append, List.length_singleton, htrackers]
      omega
    · simpa only [hprocessed] using h.processed_lt

/-- Destroying a tracker gives its capacity back; a flood message counts toward the
batch, and a full batch goes back to the sender as one `SEND_MORE`. -/
theorem inv_destroyTracker {st : State} {i : ℕ} (h : Inv cfg st)
    (hi : i < st.receiver.trackers.length) :
    Inv cfg (endMessageProcessing cfg
      { st with receiver := { st.receiver with trackers := st.receiver.trackers.eraseIdx i } }
      st.receiver.trackers[i]) := by
  have hfl := floods_eraseIdx hi
  have hlen := List.length_eraseIdx_add_one hi
  obtain ⟨hc, hf, ht, hp, hs⟩ := h
  simp only [credits] at hc
  unfold endMessageProcessing
  cases hflood : st.receiver.trackers[i].isFloodMessage <;>
    simp only [hflood, Bool.false_eq_true, ↓reduceIte, add_zero] at hfl ⊢
  · -- not a flood message: only the total capacity comes back
    refine ⟨?_, ?_, ?_, hp, hs⟩ <;> simp only [credits] <;> omega
  · split
    · -- a full batch: its credits leave as a `SEND_MORE`
      next hfull =>
      refine ⟨?_, ?_, ?_, cfg.batch_pos, ?_⟩
      · simp only [credits, sendSendMore, List.sum_append, List.sum_singleton]
        omega
      · simp only [sendSendMore]
        omega
      · simp only [sendSendMore]
        omega
      · simp only [sendSendMore, List.mem_append, List.mem_singleton]
        rintro n (hn | rfl)
        exacts [hs n hn, rfl]
    · next hfull =>
      refine ⟨?_, ?_, ?_, ?_, hs⟩ <;> simp only [credits] <;> omega

/-- What `recvSendMore` does when it returns: the credits are added and the next batch
is sent. -/
theorem recvSendMore_eq_ok {st st' : State} {n : ℕ} (h : recvSendMore st n = .ok st') :
    st' = maybeSendNextBatch { st with sender := { st.sender with
      mOutboundCapacity := st.sender.mOutboundCapacity + n } } := by
  unfold recvSendMore at h
  split at h
  · cases h
  · split at h
    · cases h
    · exact (Except.ok.inj h).symm

/-- Reading a `SEND_MORE` moves its credits from the channel to the sender. -/
theorem inv_recvSendMore {st st' : State} {n : ℕ} {rest : List ℕ} (h : Inv cfg st)
    (hq : st.toSender = n :: rest) (hrecv : recvSendMore { st with toSender := rest } n = .ok st') :
    Inv cfg st' := by
  rw [recvSendMore_eq_ok hrecv]
  have hc := h.conserved
  simp only [credits, hq, List.sum_cons] at hc
  refine ⟨?_, h.floodCapacity, h.totalCapacity, h.processed_lt,
    fun m hm => h.sendMore m (by rw [hq]; exact List.mem_cons_of_mem n hm)⟩
  rw [credits_maybeSendNextBatch, maybeSendNextBatch_lost]
  simp only [credits]
  omega

/-- **The invariant holds in every reachable state.** -/
theorem flowControl_inv {st : State} (h : (flowControl cfg).Reachable st) : Inv cfg st := by
  refine System.Reachable.induction inv_initial ?_ h
  rintro s a s' - hs hstep
  cases hstep with
  | sendFlood => exact inv_sendMessage hs _ _
  | sendOther => exact inv_sendOther hs
  | recv _ hq hrecv => exact inv_recvMessage hs hq hrecv
  | destroyTracker hi => exact inv_destroyTracker hs hi
  | recvSendMore hq hrecv => exact inv_recvSendMore hs hq hrecv
  | setSynced => exact ⟨hs.conserved, hs.floodCapacity, hs.totalCapacity, hs.processed_lt, hs.sendMore⟩

/-! ### No call halts -/

/-- `beginMesssageProcessing` returns when there is reading capacity and, for a flood
message, flood capacity. -/
theorem beginMesssageProcessing_ok {r : Receiver} {msg : Message} (htotal : 0 < r.mTotalCapacity)
    (hflood : msg.isFloodMessage = true → 0 < r.mFloodCapacity) :
    ∃ r', beginMesssageProcessing r msg = .ok r' := by
  unfold beginMesssageProcessing
  rw [if_neg (Nat.pos_iff_ne_zero.mp htotal)]
  dsimp only
  split
  · next hf => exact ⟨_, if_neg (Nat.pos_iff_ne_zero.mp (hflood hf))⟩
  · exact ⟨_, rfl⟩

/-- `recvSendMore` returns for a positive grant that does not overflow the capacity. -/
theorem recvSendMore_ok {st : State} {n : ℕ} (hn : 0 < n)
    (hfit : st.sender.mOutboundCapacity + n ≤ UINT64_MAX) :
    ∃ st', recvSendMore st n = .ok st' := by
  unfold recvSendMore
  rw [if_neg (Nat.pos_iff_ne_zero.mp hn), if_neg (by omega)]
  exact ⟨_, rfl⟩

/-- **No reachable call halts.** When the receiver has reading capacity, reading the
next message never aborts in `beginMesssageProcessing` and never drops the sender as
"at capacity": a flood message on its way holds a credit, so the receiver's flood
capacity is positive. Reading a `SEND_MORE` never drops the receiver: it grants a
batch, and no more credits than the initial grant, a `uint32_t`, exist. -/
theorem flowControl_never_halts {st : State} (h : (flowControl cfg).Reachable st) :
    (∀ msg rest, hasReadingCapacity st.receiver = true → st.toReceiver = msg :: rest →
      ∃ st', recvMessage { st with toReceiver := rest } msg = .ok st') ∧
    (∀ n rest, st.toSender = n :: rest →
      ∃ st', recvSendMore { st with toSender := rest } n = .ok st') := by
  obtain ⟨hc, hf, -, -, hs⟩ := flowControl_inv h
  constructor
  · intro msg rest hcap hq
    unfold FlowControl.recvMessage
    split
    · exact ⟨_, rfl⟩
    · -- the message's own credit keeps the flood capacity positive
      have hflood : msg.isFloodMessage = true → 0 < st.receiver.mFloodCapacity := by
        intro hm
        simp only [credits, hq, floods_cons, hm, if_pos] at hc
        omega
      obtain ⟨r', hr'⟩ := beginMesssageProcessing_ok (of_decide_eq_true hcap) hflood
      exact ⟨_, by rw [Except.bind_eq_ok]; exact ⟨r', hr', rfl⟩⟩
  · intro n rest hq
    have hn : n = cfg.FLOW_CONTROL_SEND_MORE_BATCH_SIZE := hs n (by rw [hq]; exact List.mem_cons_self)
    -- the sender's capacity and the grant are credits, so at most the initial grant
    have hle : st.sender.mOutboundCapacity + n ≤ cfg.PEER_FLOOD_READING_CAPACITY := by
      simp only [credits, hq, List.sum_cons] at hc
      omega
    have hlt : cfg.PEER_FLOOD_READING_CAPACITY ≤ UINT64_MAX := by
      have := cfg.flood_lt
      simp only [UINT64_MAX]
      omega
    exact recvSendMore_ok (hn ▸ cfg.batch_pos) (hle.trans hlt)

/-! ### Lost credits stay lost -/

theorem recvMessage_lost_le {st st' : State} {msg : Message} (h : recvMessage st msg = .ok st') :
    st.lost ≤ st'.lost := by
  unfold FlowControl.recvMessage at h
  split at h
  · cases h
    exact Nat.le_succ _
  · obtain ⟨r, -, hst⟩ := Except.bind_eq_ok.mp h
    cases hst
    exact le_refl _

@[simp] theorem endMessageProcessing_lost (st : State) (msg : Message) :
    (endMessageProcessing cfg st msg).lost = st.lost := by
  unfold endMessageProcessing
  dsimp only
  split
  · split <;> rfl
  · rfl

/-- No step finds a lost credit again. -/
theorem lost_le_of_step {st st' : State} {a : Action} (h : Step cfg st a st') :
    st.lost ≤ st'.lost := by
  cases h with
  | recv _ _ hrecv =>
    have hle := recvMessage_lost_le hrecv
    exact hle
  | recvSendMore _ hrecv => exact (recvSendMore_eq_ok hrecv) ▸ le_refl _
  | sendFlood | sendOther | destroyTracker | setSynced => simp [sendMessage, addMsgAndMaybeTrimQueue]

/-- The connection after the receiver lost sync and read and discarded `k`
transactions, each sent as soon as it was queued. -/
def outOfSync (cfg : Config) (k : ℕ) : State :=
  { initial cfg with
    sender := ⟨cfg.PEER_FLOOD_READING_CAPACITY - k, [[], [], [], []]⟩
    receiver := { (initial cfg).receiver with isSynced := false }
    lost := k }

/-- One more transaction is flooded and discarded. -/
theorem reachable_outOfSync_succ {k : ℕ} (hk : k < cfg.PEER_FLOOD_READING_CAPACITY)
    (h : (flowControl cfg).Reachable (outOfSync cfg k)) :
    (flowControl cfg).Reachable (outOfSync cfg (k + 1)) := by
  -- the sender has a credit, so the transaction leaves at once
  have hsend : sendMessage (outOfSync cfg k) .TRANSACTION [.TRANSACTION] =
      { outOfSync cfg k with
        sender := ⟨cfg.PEER_FLOOD_READING_CAPACITY - (k + 1), [[], [], [], []]⟩
        toReceiver := [.flood .TRANSACTION] } := by
    have hmin : min (cfg.PEER_FLOOD_READING_CAPACITY - k) 1 = 1 := by omega
    simp [sendMessage, addMsgAndMaybeTrimQueue, maybeSendNextBatch, sendBatch, outOfSync, initial,
      msgQInd, hmin]
    omega
  have h1 := h.step (@Step.sendFlood cfg _ .TRANSACTION [.TRANSACTION] (List.Sublist.refl _))
  rw [hsend] at h1
  -- out of sync, the receiver discards it before building a tracker
  have hcap : hasReadingCapacity (outOfSync cfg k).receiver = true := by
    have := cfg.reading_ge
    show decide (cfg.PEER_READING_CAPACITY > 0) = true
    exact decide_eq_true (by omega)
  exact h1.step (Step.recv hcap rfl rfl)

theorem reachable_outOfSync {k : ℕ} (hk : k ≤ cfg.PEER_FLOOD_READING_CAPACITY) :
    (flowControl cfg).Reachable (outOfSync cfg k) := by
  induction k with
  | zero => exact System.Reachable.init.step (@Step.setSynced cfg (initial cfg) false)
  | succ k ih => exact reachable_outOfSync_succ (by omega) (ih (by omega))

/-- **Lost credits are never granted again.** For every configuration, a run in which
the receiver loses sync and discards `PEER_FLOOD_READING_CAPACITY` transactions
reaches a state after which, whatever the peers do, no credit is left anywhere: the
sender's capacity stays zero, no flood message is sent or in flight, and no
`SEND_MORE` ever comes. The sum of credits is then zero, not the initial grant, and
the sender's flooding stalls for good. -/
theorem flowControl_credits_leak :
    ∃ st, (flowControl cfg).Reachable st ∧ ∀ t, (flowControl cfg).Follows st t →
      t.sender.mOutboundCapacity = 0 ∧ credits t = 0 := by
  have hreach : (flowControl cfg).Reachable (outOfSync cfg cfg.PEER_FLOOD_READING_CAPACITY) :=
    reachable_outOfSync le_rfl
  refine ⟨_, hreach, fun t ht => ?_⟩
  -- the lost credits only grow, and with the credits they make up the initial grant
  have hlost : cfg.PEER_FLOOD_READING_CAPACITY ≤ t.lost :=
    System.Follows.of_step (R := fun s t => s.lost ≤ t.lost) (fun _ => le_rfl)
      (fun _ _ _ => le_trans) (fun _ _ _ _ => lost_le_of_step) hreach ht
  have hc := (flowControl_inv (hreach.follows ht)).conserved
  have hzero : credits t = 0 := by omega
  refine ⟨?_, hzero⟩
  simp only [credits] at hzero
  omega

end FlowControl

end HcnetCore
