import HcnetCore.Systems.Reach
import HcnetCore.Util.Numeric

/-!
# Flow control between two peers (`overlay/Peer.cpp`)

When both ends of a connection support flow control, a peer only writes a flood
message (an SCP message, a transaction, an advert or a demand) to the other when the
other has granted it a credit. The reader grants `PEER_FLOOD_READING_CAPACITY`
credits once, after authentication, and afterwards one `SEND_MORE` of
`FLOW_CONTROL_SEND_MORE_BATCH_SIZE` credits each time it has finished that many
flood messages. A flood message is finished when the `MsgCapacityTracker` built for
it in `recvMessage` is destroyed, that is, when the action posted for it runs or is
dropped by the scheduler.

The model follows one direction of a connection: the sender floods, the receiver
grants credits. Each function of `Peer` that touches the credits is a function here
under its own name, from the point where both initial `SEND_MORE`s have been read:

* on the sender, `addMsgAndMaybeTrimQueue`, `maybeSendNextBatch` (through its loop
  `sendBatch`) and the flood case of `sendMessage`, and `recvSendMore` for the
  `SEND_MORE` case of `recvMessage` with the `recvSendMore` it posts;
* on the receiver, `recvMessage` for every other message, with
  `beginMesssageProcessing` and `hasReadingCapacity`, and `endMessageProcessing` with
  `sendSendMore`.

`flowControl` is the network of the two peers as a `System`: the two channels are
FIFO, and its steps are these calls in any interleaving, together with the
receiver's ledger going in and out of sync. A call that drops the connection or
aborts (`Halt`) is not a step; `FlowControlSpec` shows that no reachable call does.

Left out: message contents, metrics and timers; the criteria by which
`addMsgAndMaybeTrimQueue` trims a queue (the step allows any subsequence of the
queue); the load shedding at the top of `sendMessage` (a message that is not sent);
the receiver's own flooding, which is the same protocol in the other direction.
Honest peers have pull mode on both ends, so adverts and demands are not dropped.
The field `lost` is a ghost: it counts the flood messages the receiver read and
discarded without building their tracker, and no function reads it.
-/

namespace HcnetCore

namespace FlowControl

open Numeric

/-- The flood messages (`OverlayManagerImpl::isFloodMessage`). -/
inductive FloodType
  | SCP_MESSAGE
  | TRANSACTION
  | FLOOD_DEMAND
  | FLOOD_ADVERT
deriving DecidableEq, Repr

/-- A message the sender writes and the receiver reads through the tracker of
`recvMessage`: a flood message, or any other one. -/
inductive Message
  | flood (type : FloodType)
  | other
deriving DecidableEq, Repr

namespace Message

/-- `OverlayManager::isFloodMessage`. -/
def isFloodMessage : Message → Bool
  | flood _ => true
  | other => false

/-- `ignoreIfOutOfSync` of `recvMessage`: set for transactions, adverts and demands. -/
def ignoreIfOutOfSync : Message → Bool
  | flood .TRANSACTION | flood .FLOOD_ADVERT | flood .FLOOD_DEMAND => true
  | _ => false

end Message

/-- The queue `addMsgAndMaybeTrimQueue` puts a flood message in. -/
def msgQInd : FloodType → ℕ
  | .SCP_MESSAGE => 0
  | .TRANSACTION => 1
  | .FLOOD_DEMAND => 2
  | .FLOOD_ADVERT => 3

/-- The settings of `Config` that flow control reads, with the checks `Config` makes
when it loads them. -/
structure Config where
  PEER_READING_CAPACITY : ℕ
  PEER_FLOOD_READING_CAPACITY : ℕ
  FLOW_CONTROL_SEND_MORE_BATCH_SIZE : ℕ
  /-- Read with a minimum of two. -/
  reading_ge : 2 ≤ PEER_READING_CAPACITY
  /-- Read with a minimum of one. -/
  flood_pos : 1 ≤ PEER_FLOOD_READING_CAPACITY
  /-- Read with a minimum of one. -/
  batch_pos : 1 ≤ FLOW_CONTROL_SEND_MORE_BATCH_SIZE
  /-- "FLOW_CONTROL_SEND_MORE_BATCH_SIZE can't be greater than PEER_FLOOD_READING_CAPACITY". -/
  batch_le : FLOW_CONTROL_SEND_MORE_BATCH_SIZE ≤ PEER_FLOOD_READING_CAPACITY
  /-- A `uint32_t`. -/
  flood_lt : PEER_FLOOD_READING_CAPACITY < 2 ^ 32

/-- The sender's flow-control fields: `mOutboundCapacity` and the four
`mOutboundQueues`, in the order `maybeSendNextBatch` empties them. -/
structure Sender where
  mOutboundCapacity : ℕ
  mOutboundQueues : List (List FloodType)
deriving DecidableEq, Repr

/-- The receiver's flow-control fields: `mCapacity`, `mFloodMsgsProcessed`, the
messages whose `MsgCapacityTracker` is alive (held by a posted action), and whether
its ledger is synced (`LedgerManager::isSynced`). -/
structure Receiver where
  mFloodCapacity : ℕ
  mTotalCapacity : ℕ
  mFloodMsgsProcessed : ℕ
  trackers : List Message
  isSynced : Bool
deriving DecidableEq, Repr

/-- How handling a message ends when the connection does not go on: a failed
`releaseAssert` aborts the node, `drop` closes the connection with a reason. -/
inductive Halt
  | abort (assertion : String)
  | drop (reason : String)
deriving DecidableEq, Repr

/-- The two peers and the two directions of the connection. -/
structure State where
  sender : Sender
  receiver : Receiver
  /-- Messages the sender has written and the receiver has not read, oldest first. -/
  toReceiver : List Message
  /-- The `numMessages` of each `SEND_MORE` the receiver has written and the sender
  has not read, oldest first. -/
  toSender : List ℕ
  /-- Ghost: flood messages the receiver read and discarded without a tracker. -/
  lost : ℕ
deriving DecidableEq, Repr

/-! ### The sender -/

/-- The loop of `maybeSendNextBatch`: from each queue in turn, send from the front
while there is capacity. Returns the capacity left, the queues, and what was sent. -/
def sendBatch : ℕ → List (List FloodType) → ℕ × List (List FloodType) × List FloodType
  | cap, [] => (cap, [], [])
  | cap, queue :: queues =>
    let k := min cap queue.length
    let rest := sendBatch (cap - k) queues
    (rest.1, queue.drop k :: rest.2.1, queue.take k ++ rest.2.2)

/-- `Peer::maybeSendNextBatch()`: the messages sent are written to the receiver. -/
def maybeSendNextBatch (st : State) : State :=
  let r := sendBatch st.sender.mOutboundCapacity st.sender.mOutboundQueues
  { st with sender := ⟨r.1, r.2.1⟩, toReceiver := st.toReceiver ++ r.2.2.map .flood }

/-- `Peer::addMsgAndMaybeTrimQueue(msg)`: the message is appended to its queue, which
the trimming leaves as `trimmed` (the step requires a subsequence of it). -/
def addMsgAndMaybeTrimQueue (st : State) (type : FloodType) (trimmed : List FloodType) : State :=
  { st with sender := { st.sender with
      mOutboundQueues := st.sender.mOutboundQueues.set (msgQInd type) trimmed } }

/-- `Peer::sendMessage(msg)` for a flood message, flow control enabled. -/
def sendMessage (st : State) (type : FloodType) (trimmed : List FloodType) : State :=
  maybeSendNextBatch (addMsgAndMaybeTrimQueue st type trimmed)

/-- The `SEND_MORE` case of `Peer::recvMessage`, followed by the `recvSendMore` it
posts, which sends the next batch. -/
def recvSendMore (st : State) (numMessages : ℕ) : Except Halt State :=
  if numMessages = 0 then .error (.drop "unexpected SEND_MORE message")
  else if numMessages > UINT64_MAX - st.sender.mOutboundCapacity then
    .error (.drop "Peer capacity overflow")
  else
    .ok (maybeSendNextBatch { st with sender := { st.sender with
      mOutboundCapacity := st.sender.mOutboundCapacity + numMessages } })

/-! ### The receiver -/

/-- `Peer::hasReadingCapacity()`, flow control enabled. -/
def hasReadingCapacity (r : Receiver) : Bool :=
  decide (r.mTotalCapacity > 0)

/-- `Peer::beginMesssageProcessing(msg)`, flow control enabled: run when the tracker
of `msg` is built. -/
def beginMesssageProcessing (r : Receiver) (msg : Message) : Except Halt Receiver :=
  if r.mTotalCapacity = 0 then .error (.abort "mCapacity.mTotalCapacity > 0")
  else
    let r := { r with mTotalCapacity := r.mTotalCapacity - 1 }
    if msg.isFloodMessage then
      if r.mFloodCapacity = 0 then .error (.drop "unexpected flood message, peer at capacity")
      else .ok { r with mFloodCapacity := r.mFloodCapacity - 1 }
    else .ok r

/-- `Peer::recvMessage(msg)` for a message other than `HELLO`, `AUTH` and
`SEND_MORE`: out of sync, transactions, adverts and demands are discarded before
their tracker is built; every other message gets a tracker and a posted action. -/
def recvMessage (st : State) (msg : Message) : Except Halt State :=
  if !st.receiver.isSynced && msg.ignoreIfOutOfSync then
    .ok { st with lost := st.lost + 1 }
  else do
    let r ← beginMesssageProcessing st.receiver msg
    pure { st with receiver := { r with trackers := r.trackers ++ [msg] } }

/-- `Peer::sendSendMore(numMessages)`: a `SEND_MORE` written to the sender. -/
def sendSendMore (st : State) (numMessages : ℕ) : State :=
  { st with toSender := st.toSender ++ [numMessages] }

/-- `Peer::endMessageProcessing(msg)`, flow control enabled: run by the destructor of
the tracker of `msg`. A full batch of finished flood messages is granted back. -/
def endMessageProcessing (cfg : Config) (st : State) (msg : Message) : State :=
  let r := { st.receiver with mTotalCapacity := st.receiver.mTotalCapacity + 1 }
  if msg.isFloodMessage then
    let r := { r with
      mFloodCapacity := r.mFloodCapacity + 1
      mFloodMsgsProcessed := r.mFloodMsgsProcessed + 1 }
    if r.mFloodMsgsProcessed = cfg.FLOW_CONTROL_SEND_MORE_BATCH_SIZE then
      sendSendMore { st with receiver := { r with mFloodMsgsProcessed := 0 } }
        cfg.FLOW_CONTROL_SEND_MORE_BATCH_SIZE
    else { st with receiver := r }
  else { st with receiver := r }

/-! ### The network -/

/-- The calls of the two peers. -/
inductive Action
  /-- The sender floods a message; its queue is trimmed to `trimmed`. -/
  | sendFlood (type : FloodType) (trimmed : List FloodType)
  /-- The sender writes a message that is not a flood message. -/
  | sendOther
  /-- The receiver reads the oldest message written to it. -/
  | recv
  /-- The `i`-th live tracker of the receiver is destroyed: its action ran or was
  dropped. -/
  | destroyTracker (i : ℕ)
  /-- The sender reads the oldest `SEND_MORE` written to it. -/
  | recvSendMore
  /-- The receiver's ledger becomes synced or loses sync. -/
  | setSynced (synced : Bool)

/-- Both peers right after each has read the other's initial `SEND_MORE`. -/
def initial (cfg : Config) : State where
  sender := ⟨cfg.PEER_FLOOD_READING_CAPACITY, [[], [], [], []]⟩
  receiver := ⟨cfg.PEER_FLOOD_READING_CAPACITY, cfg.PEER_READING_CAPACITY, 0, [], true⟩
  toReceiver := []
  toSender := []
  lost := 0

/-- The steps of the network. The receiver reads only while it has reading
capacity. -/
inductive Step (cfg : Config) : State → Action → State → Prop
  | sendFlood {st : State} {type : FloodType} {trimmed : List FloodType}
      (htrim : trimmed.Sublist (st.sender.mOutboundQueues.getD (msgQInd type) [] ++ [type])) :
      Step cfg st (.sendFlood type trimmed) (sendMessage st type trimmed)
  | sendOther {st : State} :
      Step cfg st .sendOther { st with toReceiver := st.toReceiver ++ [.other] }
  | recv {st st' : State} {msg : Message} {rest : List Message}
      (hcap : hasReadingCapacity st.receiver = true) (hq : st.toReceiver = msg :: rest)
      (h : recvMessage { st with toReceiver := rest } msg = .ok st') :
      Step cfg st .recv st'
  | destroyTracker {st : State} {i : ℕ} (hi : i < st.receiver.trackers.length) :
      Step cfg st (.destroyTracker i)
        (endMessageProcessing cfg
          { st with receiver := { st.receiver with trackers := st.receiver.trackers.eraseIdx i } }
          st.receiver.trackers[i])
  | recvSendMore {st st' : State} {n : ℕ} {rest : List ℕ} (hq : st.toSender = n :: rest)
      (h : recvSendMore { st with toSender := rest } n = .ok st') :
      Step cfg st .recvSendMore st'
  | setSynced {st : State} {synced : Bool} :
      Step cfg st (.setSynced synced) { st with receiver := { st.receiver with isSynced := synced } }

/-- The connection as a transition system. -/
def flowControl (cfg : Config) : System State Action :=
  ⟨initial cfg, Step cfg⟩

end FlowControl

end HcnetCore
