import HcnetCore.Pool.LiquidityPool

/-!
# Crossing two offers (`transactions/OfferExchange.cpp`)

`exchangeV10` is what happens when an offer on the book, selling wheat for sheep at
`price = n / d`, meets a counterparty that sells sheep for wheat. Each side is
limited twice: by what it can send and by what it can receive. The side whose
limits are worth more at the price stays on the book (`wheatStays`); the amounts are
rounded so that the rounding favours that side, and
`applyPriceErrorThresholds` then refuses a trade whose effective price is off by
more than 1% (`checkPriceErrorBound`). `adjustOffer` is the amount of an offer that
a counterparty without limits could take.

The model follows the source line by line. Amounts are `int64_t` and modelled as
integers, the 128-bit values of `calculateOfferValue` as natural numbers, and every
exception as an `Except String` error with the message the source throws. The
helpers of `util/numeric.cpp` are those of `Util.Numeric`.
-/

namespace HcnetCore

namespace OfferExchange

open Numeric LiquidityPool

/-- `ExchangeResultV10`. -/
structure ExchangeResultV10 where
  numWheatReceived : ℤ
  numSheepSend : ℤ
  wheatStays : Bool
deriving DecidableEq, Repr

/-- `checkPriceErrorBound(price, wheatReceive, sheepSend, canFavorWheat)`: the
relative error between the price and the effective price is at most 1%, or, with
`canFavorWheat`, the error favours the seller of wheat. -/
def checkPriceErrorBound (price : Price) (wheatReceive sheepSend : ℤ) (canFavorWheat : Bool) :
    Except String Bool := do
  -- these never overflow since price.n and price.d are int32_t
  let errN : ℤ := 100 * price.n
  let errD : ℤ := 100 * price.d
  let lhs ← bigMultiply errN wheatReceive
  let rhs ← bigMultiply errD sheepSend
  if canFavorWheat ∧ rhs > lhs then
    return true
  let absDiff := if lhs > rhs then lhs - rhs else rhs - lhs
  let cap ← bigMultiply price.n wheatReceive
  return decide (absDiff ≤ cap)

/-- `calculateOfferValue(priceN, priceD, maxSend, maxReceive)`: what an offer side is
worth, the lesser of what it can send and what it can receive, in 128 bits. -/
def calculateOfferValue (priceN priceD maxSend maxReceive : ℤ) : Except String ℕ := do
  let sendValue ← bigMultiply maxSend priceN
  let receiveValue ← bigMultiply maxReceive priceD
  pure (min sendValue receiveValue)

/-- `exchangeV10WithoutPriceErrorThresholds(price, maxWheatSend, maxWheatReceive,
maxSheepSend, maxSheepReceive, round)`. -/
def exchangeV10WithoutPriceErrorThresholds (price : Price)
    (maxWheatSend maxWheatReceive maxSheepSend maxSheepReceive : ℤ) (round : RoundingType) :
    Except String ExchangeResultV10 := do
  let wheatValue ← calculateOfferValue price.n price.d maxWheatSend maxSheepReceive
  let sheepValue ← calculateOfferValue price.d price.n maxSheepSend maxWheatReceive
  let wheatStays := decide (wheatValue > sheepValue)
  let (wheatReceive, sheepSend) ←
    if wheatStays then
      if round = .PATH_PAYMENT_STRICT_SEND then do
        let wheatReceive ← bigDivideOrThrow128 sheepValue price.n .ROUND_DOWN
        pure (wheatReceive, min maxSheepSend maxSheepReceive)
      -- wheat is more valuable
      else if price.n > price.d ∨ round = .PATH_PAYMENT_STRICT_RECEIVE then do
        let wheatReceive ← bigDivideOrThrow128 sheepValue price.n .ROUND_DOWN
        let sheepSend ← bigDivideOrThrow wheatReceive price.n price.d .ROUND_UP
        pure (wheatReceive, sheepSend)
      -- sheep is more valuable
      else do
        let sheepSend ← bigDivideOrThrow128 sheepValue price.d .ROUND_DOWN
        let wheatReceive ← bigDivideOrThrow sheepSend price.d price.n .ROUND_DOWN
        pure (wheatReceive, sheepSend)
    else
      if price.n > price.d then do
        let wheatReceive ← bigDivideOrThrow128 wheatValue price.n .ROUND_DOWN
        let sheepSend ← bigDivideOrThrow wheatReceive price.n price.d .ROUND_DOWN
        pure (wheatReceive, sheepSend)
      else do
        let sheepSend ← bigDivideOrThrow128 wheatValue price.d .ROUND_DOWN
        let wheatReceive ← bigDivideOrThrow sheepSend price.d price.n .ROUND_UP
        pure (wheatReceive, sheepSend)
  -- neither of these should ever throw
  if wheatReceive < 0 ∨ wheatReceive > min maxWheatReceive maxWheatSend then
    throw "wheatReceive out of bounds"
  if sheepSend < 0 ∨ sheepSend > min maxSheepReceive maxSheepSend then
    throw "sheepSend out of bounds"
  pure ⟨wheatReceive, sheepSend, wheatStays⟩

/-- `applyPriceErrorThresholds(price, wheatReceive, sheepSend, wheatStays, round)`. -/
def applyPriceErrorThresholds (price : Price) (wheatReceive sheepSend : ℤ) (wheatStays : Bool)
    (round : RoundingType) : Except String ExchangeResultV10 := do
  if wheatReceive > 0 ∧ sheepSend > 0 then
    let wheatReceiveValue ← bigMultiply wheatReceive price.n
    let sheepSendValue ← bigMultiply sheepSend price.d
    -- the seller whose offer stays must be favoured
    if wheatStays ∧ sheepSendValue < wheatReceiveValue then
      throw "favored sheep when wheat stays"
    if !wheatStays ∧ sheepSendValue > wheatReceiveValue then
      throw "favored wheat when sheep stays"
    if round = .NORMAL then
      -- both sellers get a price no more than 1% worse than the price crossed, or
      -- no trade occurs
      if !(← checkPriceErrorBound price wheatReceive sheepSend false) then
        return ⟨0, 0, wheatStays⟩
      return ⟨wheatReceive, sheepSend, wheatStays⟩
    else
      -- in path payment the wheat seller may be favoured without bound
      if !(← checkPriceErrorBound price wheatReceive sheepSend true) then
        throw "exceeded price error bound"
      return ⟨wheatReceive, sheepSend, wheatStays⟩
  else
    match round with
    | .PATH_PAYMENT_STRICT_SEND =>
      -- the sender may sell sheep for no wheat, but never sell no sheep
      if sheepSend = 0 then
        throw "invalid amount of sheep sent"
      return ⟨wheatReceive, sheepSend, wheatStays⟩
    | _ => return ⟨0, 0, wheatStays⟩

/-- `exchangeV10(price, maxWheatSend, maxWheatReceive, maxSheepSend, maxSheepReceive,
round)`. -/
def exchangeV10 (price : Price) (maxWheatSend maxWheatReceive maxSheepSend maxSheepReceive : ℤ)
    (round : RoundingType) : Except String ExchangeResultV10 := do
  let beforeThresholds ← exchangeV10WithoutPriceErrorThresholds price maxWheatSend
    maxWheatReceive maxSheepSend maxSheepReceive round
  applyPriceErrorThresholds price beforeThresholds.numWheatReceived
    beforeThresholds.numSheepSend beforeThresholds.wheatStays round

/-- `adjustOffer(price, maxWheatSend, maxSheepReceive)`: what a counterparty without
limits would take of the offer. -/
def adjustOffer (price : Price) (maxWheatSend maxSheepReceive : ℤ) : Except String ℤ := do
  let res ← exchangeV10 price maxWheatSend INT64_MAX INT64_MAX maxSheepReceive .NORMAL
  pure res.numWheatReceived

end OfferExchange

end HcnetCore
