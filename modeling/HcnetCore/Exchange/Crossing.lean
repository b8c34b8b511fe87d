import HcnetCore.Arith.Division
import HcnetCore.Pool.LiquidityPool

/-!
# The crossing of two offers, on natural numbers

What `exchangeV10WithoutPriceErrorThresholds` computes, stated without the 64- and
128-bit words: with the offer selling wheat at `n / d`, each side is worth the lesser
of what it can send and what it can receive (`offerValue`). The side worth more stays
on the book. The amounts traded are then the value of the side that leaves, divided
by the price and rounded: down for the amount the staying side gives, up or down for
the other so that the staying side is never worse off (`crossing`).

This is the abstract layer of `Exchange.OfferExchange`: `Exchange.ExchangeV10Spec`
proves that the source computes `crossing` whenever the price and the limits are in
range. The facts below are what the claims about `exchangeV10` rest on:

* `crossing_le`: no side sends more than it can or receives more than it wants;
* `crossing_favours`: the rounding favours the side that stays;
* `crossing_eq_zero_iff`: outside strict send, one amount is zero only if both are;
* `sheepStaysAmounts` depends on the offer's own value alone, which is what makes
  `adjustOffer` idempotent (`adjustedAmount_adjustedAmount`).
-/

namespace HcnetCore

namespace OfferExchange

open Arith LiquidityPool

/-- What one side is worth at the price: the lesser of what it can send and what it
can receive (`calculateOfferValue`). -/
def offerValue (priceN priceD maxSend maxReceive : ℕ) : ℕ :=
  min (maxSend * priceN) (maxReceive * priceD)

/-- The wheat received and sheep sent when the wheat offer stays, from the value `v`
of the sheep side. -/
def wheatStaysAmounts (n d maxSheepSend maxSheepReceive v : ℕ) (round : RoundingType) : ℕ × ℕ :=
  if round = .PATH_PAYMENT_STRICT_SEND then (v / n, min maxSheepSend maxSheepReceive)
  else if d < n ∨ round = .PATH_PAYMENT_STRICT_RECEIVE then (v / n, ceilDiv (v / n * n) d)
  else (v / d * d / n, v / d)

/-- The wheat received and sheep sent when the sheep side stays, from the value `v`
of the wheat offer. -/
def sheepStaysAmounts (n d v : ℕ) : ℕ × ℕ :=
  if d < n then (v / n, v / n * n / d)
  else (ceilDiv (v / d * d) n, v / d)

/-- The crossing: the wheat received, the sheep sent, and whether the wheat offer
stays. -/
def crossing (n d maxWheatSend maxWheatReceive maxSheepSend maxSheepReceive : ℕ)
    (round : RoundingType) : ℕ × ℕ × Bool :=
  let wheatValue := offerValue n d maxWheatSend maxSheepReceive
  let sheepValue := offerValue d n maxSheepSend maxWheatReceive
  if sheepValue < wheatValue then
    let a := wheatStaysAmounts n d maxSheepSend maxSheepReceive sheepValue round
    (a.1, a.2, true)
  else
    let a := sheepStaysAmounts n d wheatValue
    (a.1, a.2, false)

/-- `checkPriceErrorBound` on natural numbers: the effective price `s / w` is within
1% of `n / d`, or, with `canFavorWheat`, off in the wheat seller's favour. -/
def priceErrorWithin (n d w s : ℕ) (canFavorWheat : Bool) : Bool :=
  (canFavorWheat && decide (100 * n * w < 100 * d * s)) ||
    decide ((if 100 * d * s < 100 * n * w then 100 * n * w - 100 * d * s
      else 100 * d * s - 100 * n * w) ≤ n * w)

/-- What `adjustOffer` leaves of an offer: the wheat a counterparty without limits
receives, or nothing when the price error is above 1%. -/
def adjustedAmount (n d maxWheatSend maxSheepReceive : ℕ) : ℕ :=
  let a := sheepStaysAmounts n d (offerValue n d maxWheatSend maxSheepReceive)
  if 0 < a.1 ∧ 0 < a.2 ∧ priceErrorWithin n d a.1 a.2 false = true then a.1 else 0

/-! ### Values -/

variable {n d : ℕ}

theorem crossing_of_lt {mws mwr mss msr : ℕ} {round : RoundingType}
    (h : offerValue d n mss mwr < offerValue n d mws msr) :
    crossing n d mws mwr mss msr round =
      ((wheatStaysAmounts n d mss msr (offerValue d n mss mwr) round).1,
        (wheatStaysAmounts n d mss msr (offerValue d n mss mwr) round).2, true) := by
  simp only [crossing, if_pos h]

theorem crossing_of_le {mws mwr mss msr : ℕ} {round : RoundingType}
    (h : offerValue n d mws msr ≤ offerValue d n mss mwr) :
    crossing n d mws mwr mss msr round =
      ((sheepStaysAmounts n d (offerValue n d mws msr)).1,
        (sheepStaysAmounts n d (offerValue n d mws msr)).2, false) := by
  simp only [crossing, if_neg (Nat.not_lt.mpr h)]

theorem offerValue_le_send (n d s r : ℕ) : offerValue n d s r ≤ s * n := min_le_left _ _

theorem offerValue_le_receive (n d s r : ℕ) : offerValue n d s r ≤ r * d := min_le_right _ _

/-! ### Amounts below the limits

An amount computed from a value `v` is at most every limit `x` with `v ≤ x · price`:
`AmountsWithin` says so for both amounts. -/

/-- The wheat is bounded by every `x` with `v ≤ x n`, the sheep by every `y` with
`v ≤ y d`. -/
def AmountsWithin (n d v : ℕ) (a : ℕ × ℕ) : Prop :=
  (∀ x, v ≤ x * n → a.1 ≤ x) ∧ (∀ y, v ≤ y * d → a.2 ≤ y)

/-- `⌊v / k⌋` is at most every `x` with `v ≤ x k`. -/
theorem div_le_of_le_mul_right {v k x : ℕ} (h : v ≤ x * k) : v / k ≤ x :=
  Nat.div_le_of_le_mul (by rwa [Nat.mul_comm])

/-- `⌈v / k⌉` is at most every `x` with `v ≤ x k`. -/
theorem ceilDiv_le_of_le_mul_right {v k x : ℕ} (hk : 0 < k) (h : v ≤ x * k) : ceilDiv v k ≤ x :=
  ceilDiv_le_of_le_mul hk (by rwa [Nat.mul_comm])

theorem sheepStaysAmounts_within (hn : 0 < n) (v : ℕ) :
    AmountsWithin n d v (sheepStaysAmounts n d v) := by
  unfold sheepStaysAmounts
  split
  · -- wheat rounded down, then sheep rounded down from it
    refine ⟨fun x hx => div_le_of_le_mul_right hx, fun y hy => div_le_of_le_mul_right ?_⟩
    exact (Nat.div_mul_le_self v n).trans hy
  · -- sheep rounded down, then wheat rounded up from it
    refine ⟨fun x hx => ceilDiv_le_of_le_mul_right hn ?_, fun y hy => div_le_of_le_mul_right hy⟩
    exact (Nat.div_mul_le_self v d).trans hx

theorem wheatStaysAmounts_within (hd : 0 < d) (mss msr v : ℕ) {round : RoundingType}
    (hround : round ≠ .PATH_PAYMENT_STRICT_SEND) :
    AmountsWithin n d v (wheatStaysAmounts n d mss msr v round) := by
  unfold wheatStaysAmounts
  rw [if_neg hround]
  split
  · -- wheat rounded down, then sheep rounded up from it
    refine ⟨fun x hx => div_le_of_le_mul_right hx, fun y hy => ceilDiv_le_of_le_mul_right hd ?_⟩
    exact (Nat.div_mul_le_self v n).trans hy
  · -- sheep rounded down, then wheat rounded down from it
    refine ⟨fun x hx => div_le_of_le_mul_right ?_, fun y hy => div_le_of_le_mul_right hy⟩
    exact (Nat.div_mul_le_self v d).trans hx

/-- **Within the limits.** The wheat received is at most what the counterparty wants
and what the offer can send; the sheep sent at most what the offer wants and what the
counterparty can send. -/
theorem crossing_le (hn : 0 < n) (hd : 0 < d) (mws mwr mss msr : ℕ) (round : RoundingType) :
    (crossing n d mws mwr mss msr round).1 ≤ mwr ∧ (crossing n d mws mwr mss msr round).1 ≤ mws ∧
      (crossing n d mws mwr mss msr round).2.1 ≤ msr ∧
      (crossing n d mws mwr mss msr round).2.1 ≤ mss := by
  have hws := offerValue_le_send n d mws msr
  have hwr := offerValue_le_receive n d mws msr
  have hss := offerValue_le_send d n mss mwr
  have hsr := offerValue_le_receive d n mss mwr
  rcases Nat.lt_or_ge (offerValue d n mss mwr) (offerValue n d mws msr) with hlt | hge
  · rw [crossing_of_lt hlt]
    by_cases hround : round = .PATH_PAYMENT_STRICT_SEND
    · -- strict send: the sheep are the counterparty's whole limit
      simp only [wheatStaysAmounts, if_pos hround]
      exact ⟨div_le_of_le_mul_right hsr, div_le_of_le_mul_right (by omega), min_le_right _ _,
        min_le_left _ _⟩
    · obtain ⟨hw, hs⟩ := wheatStaysAmounts_within hd mss msr (offerValue d n mss mwr) hround
      exact ⟨hw _ hsr, hw _ (by omega), hs _ (by omega), hs _ hss⟩
  · rw [crossing_of_le hge]
    obtain ⟨hw, hs⟩ := sheepStaysAmounts_within hn (offerValue n d mws msr)
    exact ⟨hw _ (by omega), hw _ hws, hs _ hwr, hs _ (by omega)⟩

/-! ### The rounding favours the side that stays -/

theorem sheepStaysAmounts_favours (hn : 0 < n) (v : ℕ) :
    (sheepStaysAmounts n d v).2 * d ≤ (sheepStaysAmounts n d v).1 * n := by
  unfold sheepStaysAmounts
  split
  · exact Nat.div_mul_le_self _ d
  · rw [Nat.mul_comm _ n]
    exact le_mul_ceilDiv hn

theorem wheatStaysAmounts_favours (hd : 0 < d) (mss msr v : ℕ) {round : RoundingType}
    (hround : round ≠ .PATH_PAYMENT_STRICT_SEND) :
    (wheatStaysAmounts n d mss msr v round).1 * n ≤ (wheatStaysAmounts n d mss msr v round).2 * d := by
  unfold wheatStaysAmounts
  rw [if_neg hround]
  split
  · rw [Nat.mul_comm _ d]
    exact le_mul_ceilDiv hd
  · exact Nat.div_mul_le_self _ n

/-- **The rounding favours the side that stays**: when the wheat offer stays, the
sheep it gets are worth at least the wheat it gives; when it leaves, at most. -/
theorem crossing_favours (hn : 0 < n) (hd : 0 < d) (mws mwr mss msr : ℕ) (round : RoundingType) :
    ((crossing n d mws mwr mss msr round).2.2 = true →
      (crossing n d mws mwr mss msr round).1 * n ≤ (crossing n d mws mwr mss msr round).2.1 * d) ∧
    ((crossing n d mws mwr mss msr round).2.2 = false →
      (crossing n d mws mwr mss msr round).2.1 * d ≤ (crossing n d mws mwr mss msr round).1 * n) := by
  rcases Nat.lt_or_ge (offerValue d n mss mwr) (offerValue n d mws msr) with hlt | hge
  · rw [crossing_of_lt hlt]
    refine ⟨fun _ => ?_, fun h => nomatch h⟩
    by_cases hround : round = .PATH_PAYMENT_STRICT_SEND
    · -- strict send: the wheat is worth at most the sheep value, which is below
      -- both sheep limits
      simp only [wheatStaysAmounts, if_pos hround]
      have hss := offerValue_le_send d n mss mwr
      have hsr := offerValue_le_receive n d mws msr
      calc offerValue d n mss mwr / n * n ≤ offerValue d n mss mwr := Nat.div_mul_le_self _ n
        _ ≤ min mss msr * d := by
          rw [Nat.min_def]
          split <;> omega
    · exact wheatStaysAmounts_favours hd mss msr _ hround
  · rw [crossing_of_le hge]
    exact ⟨(fun h => nomatch h), fun _ => sheepStaysAmounts_favours hn _⟩

/-! ### Nothing for something -/

theorem sheepStaysAmounts_eq_zero_iff (hn : 0 < n) (hd : 0 < d) (v : ℕ) :
    (sheepStaysAmounts n d v).1 = 0 ↔ (sheepStaysAmounts n d v).2 = 0 := by
  unfold sheepStaysAmounts
  split
  · next hdn =>
    -- the sheep are at least the wheat, the price being above one
    dsimp only
    constructor
    · intro h
      rw [h, Nat.zero_mul, Nat.zero_div]
    · intro h
      rw [Nat.div_eq_zero_iff] at h
      by_contra hw
      have : n ≤ v / n * n := Nat.le_mul_of_pos_left n (Nat.pos_of_ne_zero hw)
      omega
  · next hdn =>
    -- the wheat is rounded up from the sheep
    dsimp only
    rw [ceilDiv_eq_zero_iff hn, Nat.mul_eq_zero]
    omega

theorem wheatStaysAmounts_eq_zero_iff (hn : 0 < n) (hd : 0 < d) (mss msr v : ℕ)
    {round : RoundingType} (hround : round ≠ .PATH_PAYMENT_STRICT_SEND) :
    (wheatStaysAmounts n d mss msr v round).1 = 0 ↔ (wheatStaysAmounts n d mss msr v round).2 = 0 := by
  unfold wheatStaysAmounts
  rw [if_neg hround]
  split
  · -- the sheep are rounded up from the wheat
    dsimp only
    rw [ceilDiv_eq_zero_iff hd, Nat.mul_eq_zero]
    omega
  · next hdn =>
    -- the wheat is at least the sheep, the price being at most one
    dsimp only
    constructor
    · intro h
      rw [Nat.div_eq_zero_iff] at h
      by_contra hs
      have : d ≤ v / d * d := Nat.le_mul_of_pos_left d (Nat.pos_of_ne_zero hs)
      omega
    · intro h
      rw [h, Nat.zero_mul, Nat.zero_div]

/-- **Nothing for something never happens** outside strict send: the wheat received is
zero exactly when the sheep sent are. -/
theorem crossing_eq_zero_iff (hn : 0 < n) (hd : 0 < d) (mws mwr mss msr : ℕ)
    {round : RoundingType} (hround : round ≠ .PATH_PAYMENT_STRICT_SEND) :
    (crossing n d mws mwr mss msr round).1 = 0 ↔ (crossing n d mws mwr mss msr round).2.1 = 0 := by
  rcases Nat.lt_or_ge (offerValue d n mss mwr) (offerValue n d mws msr) with hlt | hge
  · rw [crossing_of_lt hlt]
    exact wheatStaysAmounts_eq_zero_iff hn hd mss msr _ hround
  · rw [crossing_of_le hge]
    exact sheepStaysAmounts_eq_zero_iff hn hd _

/-! ### The strict path-payment modes -/

/-- **Strict receive delivers the target**: when the wheat offer stays and the sheep
side can pay for all the wheat it wants, it gets exactly that wheat for the sheep
rounded up. -/
theorem crossing_strictReceive (hn : 0 < n) {mws mwr mss msr : ℕ}
    (hlt : offerValue d n mss mwr < offerValue n d mws msr) (hsheep : mwr * n ≤ mss * d) :
    crossing n d mws mwr mss msr .PATH_PAYMENT_STRICT_RECEIVE = (mwr, ceilDiv (mwr * n) d, true) := by
  have hv : offerValue d n mss mwr = mwr * n := min_eq_right hsheep
  rw [crossing_of_lt hlt, hv]
  simp only [wheatStaysAmounts, reduceCtorEq, if_false, or_true, if_true,
    Nat.mul_div_cancel _ hn]

/-- **Strict send spends the source**: when the wheat offer stays, all the sheep the
limits allow are sent, and unless the wheat wanted is reached, that is all the sheep
the sender has and one more unit of wheat would cost more than they are worth. -/
theorem crossing_strictSend (hn : 0 < n) {mws mwr mss msr : ℕ}
    (hlt : offerValue d n mss mwr < offerValue n d mws msr) :
    (crossing n d mws mwr mss msr .PATH_PAYMENT_STRICT_SEND).2.1 = min mss msr ∧
    ((crossing n d mws mwr mss msr .PATH_PAYMENT_STRICT_SEND).1 < mwr →
      (crossing n d mws mwr mss msr .PATH_PAYMENT_STRICT_SEND).2.1 = mss ∧
      (crossing n d mws mwr mss msr .PATH_PAYMENT_STRICT_SEND).2.1 * d <
        ((crossing n d mws mwr mss msr .PATH_PAYMENT_STRICT_SEND).1 + 1) * n) := by
  rw [crossing_of_lt hlt]
  dsimp only [wheatStaysAmounts]
  rw [if_pos rfl]
  refine ⟨rfl, fun hw => ?_⟩
  -- the sheep side is worth what it can send: otherwise the wheat wanted is reached
  have hv : offerValue d n mss mwr = mss * d := by
    rcases le_total (mss * d) (mwr * n) with h | h
    · exact min_eq_left h
    · have hv : offerValue d n mss mwr = mwr * n := min_eq_right h
      rw [hv, Nat.mul_div_cancel _ hn] at hw
      exact absurd hw (lt_irrefl _)
  -- the wheat offer can take more sheep than the sender has
  have hms : mss < msr := by
    have := offerValue_le_receive n d mws msr
    exact Nat.lt_of_mul_lt_mul_right (a := d) (by omega)
  rw [hv, min_eq_left hms.le, Nat.mul_comm _ n]
  exact ⟨rfl, Nat.lt_mul_div_succ _ hn⟩

/-! ### The price error -/

/-- With `canFavorWheat`, an error in the wheat seller's favour is always accepted. -/
theorem priceErrorWithin_true_of_le {w s : ℕ} (h : w * n ≤ s * d) :
    priceErrorWithin n d w s true = true := by
  have h' : n * w ≤ d * s := by rw [Nat.mul_comm n, Nat.mul_comm d]; exact h
  simp only [priceErrorWithin, Nat.mul_assoc, Bool.true_and, Bool.or_eq_true,
    decide_eq_true_eq]
  split <;> omega

/-- Allowing the wheat seller to be favoured only accepts more. -/
theorem priceErrorWithin_true_of_false {w s : ℕ} (h : priceErrorWithin n d w s false = true) :
    priceErrorWithin n d w s true = true := by
  simp only [priceErrorWithin, Bool.false_and, Bool.false_or] at h
  simp [priceErrorWithin, h]

/-- Without `canFavorWheat` the check is the 1% bound on both sides. -/
theorem priceErrorWithin_false_iff {w s : ℕ} :
    priceErrorWithin n d w s false = true ↔
      100 * (w * n - s * d) ≤ w * n ∧ 100 * (s * d - w * n) ≤ w * n := by
  rw [Nat.mul_comm w n, Nat.mul_comm s d]
  simp only [priceErrorWithin, Nat.mul_assoc, Bool.false_and, Bool.false_or, decide_eq_true_eq]
  split <;> omega

/-! ### Adjusting an offer twice -/

theorem sheepStaysAmounts_zero (hn : 0 < n) : sheepStaysAmounts n d 0 = (0, 0) := by
  unfold sheepStaysAmounts
  split
  · simp
  · simp [(ceilDiv_eq_zero_iff hn).mpr]

/-- An offer cut down to what a counterparty without limits takes is taken the same
way again: the amounts computed from the cut offer's value are the amounts it was cut
to. When the price is above one the cut offer's value is its wheat; otherwise it lies
between the sheep's worth and the original value, which round to the same sheep. -/
theorem sheepStaysAmounts_offerValue (hn : 0 < n) (hd : 0 < d) (mws msr : ℕ) :
    sheepStaysAmounts n d
        (offerValue n d (sheepStaysAmounts n d (offerValue n d mws msr)).1 msr) =
      sheepStaysAmounts n d (offerValue n d mws msr) := by
  have hws := offerValue_le_send n d mws msr
  have hwr := offerValue_le_receive n d mws msr
  have hw := (sheepStaysAmounts_within (d := d) hn (offerValue n d mws msr)).1 mws hws
  have hfav := sheepStaysAmounts_favours (d := d) hn (offerValue n d mws msr)
  generalize hv : offerValue n d mws msr = v at *
  unfold sheepStaysAmounts at *
  split
  · next hdn =>
    -- the wheat, rounded down to whole units of the price, is within the receive limit
    have hval : offerValue n d (v / n) msr = v / n * n := by
      unfold offerValue
      exact min_eq_left ((Nat.div_mul_le_self v n).trans hwr)
    rw [hval, Nat.mul_div_cancel _ hn]
  · next hdn =>
    simp only [if_neg hdn] at hw hfav
    -- the cut offer's value lies between the sheep's worth and the original value
    have hle : offerValue n d (ceilDiv (v / d * d) n) msr ≤ v := by
      have : offerValue n d (ceilDiv (v / d * d) n) msr ≤ offerValue n d mws msr :=
        min_le_min (Nat.mul_le_mul_right n hw) le_rfl
      rwa [hv] at this
    have hge : v / d * d ≤ offerValue n d (ceilDiv (v / d * d) n) msr := by
      unfold offerValue
      exact le_min hfav ((Nat.div_mul_le_self v d).trans hwr)
    have hs : offerValue n d (ceilDiv (v / d * d) n) msr / d = v / d :=
      le_antisymm (Nat.div_le_div_right hle) ((Nat.le_div_iff_mul_le hd).mpr hge)
    rw [hs]

theorem adjustedAmount_le (hn : 0 < n) (mws msr : ℕ) : adjustedAmount n d mws msr ≤ mws := by
  simp only [adjustedAmount]
  split
  · exact (sheepStaysAmounts_within hn _).1 mws (offerValue_le_send n d mws msr)
  · exact Nat.zero_le _

/-- An amount that is not zeroed is the wheat of the amounts computed from the offer's
value, and those send some sheep within 1% of the price. -/
theorem adjustedAmount_pos {mws msr : ℕ} (h : 0 < adjustedAmount n d mws msr) :
    (sheepStaysAmounts n d (offerValue n d mws msr)).1 = adjustedAmount n d mws msr ∧
    0 < (sheepStaysAmounts n d (offerValue n d mws msr)).2 ∧
    priceErrorWithin n d (sheepStaysAmounts n d (offerValue n d mws msr)).1
      (sheepStaysAmounts n d (offerValue n d mws msr)).2 false = true := by
  simp only [adjustedAmount] at h ⊢
  split at h
  · next hc =>
    rw [if_pos hc]
    exact ⟨rfl, hc.2.1, hc.2.2⟩
  · exact absurd h (lt_irrefl 0)

/-- A counterparty with no limits beyond `I` is worth at least any offer whose limits
are at most `I`: against it the offer's side stays. -/
theorem offerValue_le_unlimited {mws msr I : ℕ} (hws : mws ≤ I) (hsr : msr ≤ I) :
    offerValue n d mws msr ≤ offerValue d n I I :=
  le_min ((min_le_right _ _).trans (Nat.mul_le_mul_right d hsr))
    ((min_le_left _ _).trans (Nat.mul_le_mul_right n hws))

/-- **`adjustOffer` is idempotent**, on natural numbers: the amount it leaves is
adjusted to itself, also when the price error zeroed it. -/
theorem adjustedAmount_adjustedAmount (hn : 0 < n) (hd : 0 < d) (mws msr : ℕ) :
    adjustedAmount n d (adjustedAmount n d mws msr) msr = adjustedAmount n d mws msr := by
  by_cases h : 0 < (sheepStaysAmounts n d (offerValue n d mws msr)).1 ∧
      0 < (sheepStaysAmounts n d (offerValue n d mws msr)).2 ∧
      priceErrorWithin n d (sheepStaysAmounts n d (offerValue n d mws msr)).1
        (sheepStaysAmounts n d (offerValue n d mws msr)).2 false = true
  · have hadj : adjustedAmount n d mws msr = (sheepStaysAmounts n d (offerValue n d mws msr)).1 := by
      unfold adjustedAmount
      exact if_pos h
    rw [hadj]
    simp only [adjustedAmount, sheepStaysAmounts_offerValue hn hd]
    exact if_pos h
  · -- the offer was zeroed, and nothing is adjusted to nothing
    have hadj : adjustedAmount n d mws msr = 0 := by
      unfold adjustedAmount
      exact if_neg h
    have hzero : offerValue n d 0 msr = 0 := by simp [offerValue]
    rw [hadj]
    simp [adjustedAmount, hzero, sheepStaysAmounts_zero hn]

end OfferExchange

end HcnetCore
