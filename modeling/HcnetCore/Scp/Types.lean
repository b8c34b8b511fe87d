import Mathlib.Order.Basic
import Mathlib.Algebra.Group.Nat.Defs

/-!
# The SCP statement vocabulary

The XDR types of `Hcnet-SCP.x` that the consensus code reads and builds: ballots,
nomination pledges and the three ballot-protocol pledges, and the statement that
carries one of them. Three types are left abstract:

* `V`, the `Value` of a slot (an opaque byte string in XDR, ordered
  lexicographically; here any linear order);
* `N`, the `NodeID` of a node;
* `H`, the `Hash` of a quorum set.

An `SCPEnvelope` is a statement together with a signature. The consensus code
never reads the signature (the herder checks it before handing an envelope over),
so envelopes are statements here.

XDR `uint32` fields are `Nat`s; the one place where the code relies on their
width (`UINT32_MAX` as the "infinite" counter) names the constant `UINT32_MAX`.
-/

namespace HcnetCore
namespace Scp

/-- `UINT32_MAX`, the counter of the "infinite" ballots the ballot protocol builds
from CONFIRM and EXTERNALIZE statements. -/
def UINT32_MAX : Nat := 2 ^ 32 - 1

/-- `SCPBallot`: a counter `n` and a value `x`. -/
structure SCPBallot (V : Type) where
  counter : Nat
  value : V
deriving DecidableEq, Repr

/-- `SCPStatementType`, in the order of its XDR discriminants. -/
inductive SCPStatementType where
  | SCP_ST_PREPARE
  | SCP_ST_CONFIRM
  | SCP_ST_EXTERNALIZE
  | SCP_ST_NOMINATE
deriving DecidableEq, Repr

/-- `SCPNomination`: the values a node votes to nominate (`X`) and those it accepted
as nominated (`Y`). -/
structure SCPNomination (V H : Type) where
  quorumSetHash : H
  votes : List V
  accepted : List V
deriving DecidableEq, Repr

/-- The PREPARE pledge `(b, p, p', c.n, h.n)`. -/
structure SCPPrepare (V H : Type) where
  quorumSetHash : H
  ballot : SCPBallot V
  prepared : Option (SCPBallot V)
  preparedPrime : Option (SCPBallot V)
  nC : Nat
  nH : Nat
deriving DecidableEq, Repr

/-- The CONFIRM pledge `(b, p.n, c.n, h.n)`. -/
structure SCPConfirm (V H : Type) where
  ballot : SCPBallot V
  nPrepared : Nat
  nCommit : Nat
  nH : Nat
  quorumSetHash : H
deriving DecidableEq, Repr

/-- The EXTERNALIZE pledge `(c, h.n)`. -/
structure SCPExternalize (V H : Type) where
  commit : SCPBallot V
  nH : Nat
  commitQuorumSetHash : H
deriving DecidableEq, Repr

/-- The `pledges` union of `SCPStatement`. -/
inductive SCPPledges (V H : Type) where
  | prepare (p : SCPPrepare V H)
  | confirm (c : SCPConfirm V H)
  | externalize (e : SCPExternalize V H)
  | nominate (n : SCPNomination V H)
deriving DecidableEq, Repr

/-- `SCPStatement`: who says it, about which slot, and what. -/
structure SCPStatement (N V H : Type) where
  nodeID : N
  slotIndex : Nat
  pledges : SCPPledges V H
deriving DecidableEq, Repr

namespace SCPPledges

variable {V H : Type}

/-- The discriminant of a pledge. -/
def type : SCPPledges V H → SCPStatementType
  | prepare _ => .SCP_ST_PREPARE
  | confirm _ => .SCP_ST_CONFIRM
  | externalize _ => .SCP_ST_EXTERNALIZE
  | nominate _ => .SCP_ST_NOMINATE

end SCPPledges

end Scp
end HcnetCore
