import HcnetCore.Systems.Reach
import HcnetCore.Systems.ExceptSpec
import HcnetCore.Order.SortedList
import HcnetCore.Order.KeyedMerge
import HcnetCore.Arith.Division
import HcnetCore.Arith.NewtonSqrt
import HcnetCore.Arith.ConstantProduct
import HcnetCore.Arith.FloorMultiple
import HcnetCore.Util.GlobalChecks
import HcnetCore.Util.Numeric
import HcnetCore.Scp.Types
import HcnetCore.Scp.QuorumSet
import HcnetCore.Scp.Nomination
import HcnetCore.Scp.NominationInvariant
import HcnetCore.Bucket.Merge
import HcnetCore.Bucket.Lifecycle
import HcnetCore.Bucket.ListGeometry
import HcnetCore.Bucket.AddBatch
import HcnetCore.Bucket.SpillSchedule
import HcnetCore.Bucket.ListGeometrySpec
import HcnetCore.Bucket.AddBatchSpec
import HcnetCore.Pool.LiquidityPool
import HcnetCore.Pool.Invariant
import HcnetCore.Herder.SurgePricing
import HcnetCore.Herder.TransactionQueue
import HcnetCore.Exchange.OfferExchange
import HcnetCore.Exchange.Crossing
import HcnetCore.Exchange.ExchangeV10Spec
import HcnetCore.Exchange.AdjustOfferSpec
import HcnetCore.Pool.ExchangeOptimum
import HcnetCore.Overlay.FlowControl
import HcnetCore.Overlay.FlowControlSpec
import HcnetCore.Store.KeyedList
import HcnetCore.Transactions.SponsorshipUtils
import HcnetCore.Transactions.SponsorshipCounts
import HcnetCore.Transactions.SponsorshipSpec
import HcnetCore.Transactions.SponsorshipInvariant
import HcnetCore.Systems.ShrinkFixpoint
import HcnetCore.Scp.QuorumSlice
import HcnetCore.Scp.RoundLeaders
import HcnetCore.Systems.Compare
import HcnetCore.Scp.Normalize
import HcnetCore.Catchup.CatchupRange
import HcnetCore.Catchup.CatchupRangeSpec
import HcnetCore.Systems.Containers
import HcnetCore.Bucket.MergeMap
import HcnetCore.Bucket.MergeMapSpec
import HcnetCore.Systems.Components
import HcnetCore.Util.TarjanSCC
import HcnetCore.Util.TarjanSCCInvariant
import HcnetCore.Util.TarjanSCCSpec
import HcnetCore.Herder.PaymentLoops
import HcnetCore.Herder.PaymentLoopsSpec
import HcnetCore.Arith.MachineInt
import HcnetCore.Transactions.ClaimPredicate
import HcnetCore.Transactions.ClaimPredicateSpec
import HcnetCore.Arith.BitString
import HcnetCore.Util.Basen
import HcnetCore.Util.BasenSpec
import HcnetCore.Crypto.StrKey
import HcnetCore.Crypto.StrKeySpec
import HcnetCore.Scp.ClosestVBlocking
