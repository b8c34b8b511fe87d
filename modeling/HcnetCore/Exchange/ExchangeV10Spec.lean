import HcnetCore.Exchange.OfferExchange
import HcnetCore.Exchange.Crossing

/-!
# `exchangeV10` computes the crossing

For a price `n / d` with `n, d ≥ 1` and limits in `[0, INT64_MAX]`,
`exchangeV10WithoutPriceErrorThresholds` returns the amounts of `crossing` and never
throws: every quotient it forms is one of those amounts, so each fits in `int64_t`,
and `crossing_le` keeps both out-of-bounds checks from firing
(`exchangeV10WithoutPriceErrorThresholds_eq`). `applyPriceErrorThresholds` then only
acts on the price error, since `crossing_favours` rules its two "favored" exceptions
out (`applyPriceErrorThresholds_eq`).
-/

namespace HcnetCore

namespace OfferExchange

open Arith Numeric LiquidityPool

/-! ### The helpers on natural numbers -/

theorem calculateOfferValue_natCast (pn pd s r : ℕ) :
    calculateOfferValue (pn : ℤ) (pd : ℤ) (s : ℤ) (r : ℤ) = .ok (offerValue pn pd s r) := by
  simp only [calculateOfferValue, bigMultiply_natCast, Except.ok_bind]
  rfl

theorem bigDivideOrThrow_natCast {a b c : ℕ} (hc : 0 < c) {rd : Rounding}
    (hfit : ((rd.div (a * b) c : ℕ) : ℤ) ≤ INT64_MAX) :
    bigDivideOrThrow (a : ℤ) (b : ℤ) (c : ℤ) rd = .ok (rd.div (a * b) c : ℕ) := by
  have h := @bigDivideOrThrow_eq _ _ _ (Int.natCast_nonneg a) (Int.natCast_nonneg b)
    (Int.natCast_pos.mpr hc) rd
  simp only [Int.toNat_natCast] at h
  exact h hfit

theorem bigDivideOrThrow128_natCast {a b : ℕ} (hb : 0 < b) (hfit : ((a / b : ℕ) : ℤ) ≤ INT64_MAX) :
    bigDivideOrThrow128 a (b : ℤ) .ROUND_DOWN = .ok (a / b : ℕ) := by
  have h := bigDivideOrThrow128_down_eq (a := a) (Int.natCast_pos.mpr hb)
  simp only [Int.toNat_natCast] at h
  exact h hfit

/-- `checkPriceErrorBound` on natural numbers is `priceErrorWithin`: the 128-bit
products never throw. -/
theorem checkPriceErrorBound_natCast (n d w s : ℕ) (canFavorWheat : Bool) :
    checkPriceErrorBound ⟨n, d⟩ w s canFavorWheat = .ok (priceErrorWithin n d w s canFavorWheat) := by
  have h100 : ∀ k : ℕ, (100 : ℤ) * k = ((100 * k : ℕ) : ℤ) := fun k => by push_cast; rfl
  simp only [checkPriceErrorBound, h100, bigMultiply_natCast, Except.ok_bind]
  cases canFavorWheat
  · simp [priceErrorWithin]
  · by_cases h : 100 * n * w < 100 * d * s <;> simp [priceErrorWithin, h]

/-- The 1% check without favour is the bound on the absolute error. -/
theorem abs_sub_le_of_priceErrorWithin {n d w s : ℕ} (h : priceErrorWithin n d w s false = true) :
    100 * |(s : ℤ) * d - w * n| ≤ w * n := by
  rw [priceErrorWithin_false_iff] at h
  rcases abs_cases ((s : ℤ) * d - w * n) with ⟨habs, _⟩ | ⟨habs, _⟩ <;> rw [habs] <;> omega

/-- An amount within both of its limits passes the out-of-bounds check. -/
theorem not_outOfBounds {w x y : ℕ} (hx : w ≤ x) (hy : w ≤ y) :
    ¬ ((w : ℤ) < 0 ∨ (w : ℤ) > min (x : ℤ) (y : ℤ)) := by
  omega

/-! ### The crossing -/

section

variable {N D mws mwr mss msr : ℕ}

/-- **The refinement.** In range, `exchangeV10WithoutPriceErrorThresholds` returns the
crossing of `Exchange.Crossing`. Only the limits on what is sent need to fit in
`int64_t`: the amounts are bounded by them. -/
theorem exchangeV10WithoutPriceErrorThresholds_eq (hN : 0 < N) (hD : 0 < D)
    (hws : (mws : ℤ) ≤ INT64_MAX) (hss : (mss : ℤ) ≤ INT64_MAX) (round : RoundingType) :
    exchangeV10WithoutPriceErrorThresholds ⟨N, D⟩ mws mwr mss msr round =
      .ok ⟨(crossing N D mws mwr mss msr round).1, (crossing N D mws mwr mss msr round).2.1,
        (crossing N D mws mwr mss msr round).2.2⟩ := by
  obtain ⟨hw1, hw2, hs1, hs2⟩ := crossing_le hN hD mws mwr mss msr round
  simp only [exchangeV10WithoutPriceErrorThresholds, calculateOfferValue_natCast, Except.ok_bind]
  rcases Nat.lt_or_ge (offerValue D N mss mwr) (offerValue N D mws msr) with hlt | hge
  · -- the wheat offer stays
    rw [crossing_of_lt hlt] at hw1 hw2 hs1 hs2 ⊢
    rw [if_pos (decide_eq_true hlt)]
    by_cases hsend : round = .PATH_PAYMENT_STRICT_SEND
    · -- strict send: all the sheep the limits allow
      simp only [wheatStaysAmounts, if_pos hsend] at hw1 hw2 hs1 hs2 ⊢
      have hmin : min (mss : ℤ) msr = ((min mss msr : ℕ) : ℤ) := (Nat.cast_min mss msr).symm
      rw [bigDivideOrThrow128_natCast hN (by omega), hmin]
      simp only [Except.ok_bind, pure_bind]
      rw [if_neg (not_outOfBounds hw1 hw2), if_neg (not_outOfBounds hs1 hs2)]
      simp [hlt]
    by_cases hup : D < N ∨ round = .PATH_PAYMENT_STRICT_RECEIVE
    · -- wheat is more valuable, or strict receive: the sheep are rounded up
      have hup' : (N : ℤ) > D ∨ round = .PATH_PAYMENT_STRICT_RECEIVE := by
        rcases hup with h | h
        · exact Or.inl (by exact_mod_cast h)
        · exact Or.inr h
      simp only [wheatStaysAmounts, if_neg hsend, if_pos hup] at hw1 hw2 hs1 hs2 ⊢
      rw [if_pos hup', bigDivideOrThrow128_natCast hN (by omega), Except.ok_bind,
        bigDivideOrThrow_natCast hD (by rw [Rounding.div_up]; omega)]
      simp only [Except.ok_bind, pure_bind, Rounding.div_up]
      rw [if_neg (not_outOfBounds hw1 hw2), if_neg (not_outOfBounds hs1 hs2)]
      simp [hlt]
    · -- sheep is more valuable: the wheat is rounded down
      have hup' : ¬ ((N : ℤ) > D ∨ round = .PATH_PAYMENT_STRICT_RECEIVE) := by
        rintro (h | h)
        · exact hup (Or.inl (by exact_mod_cast h))
        · exact hup (Or.inr h)
      simp only [wheatStaysAmounts, if_neg hsend, if_neg hup] at hw1 hw2 hs1 hs2 ⊢
      rw [if_neg hup', bigDivideOrThrow128_natCast hD (by omega), Except.ok_bind,
        bigDivideOrThrow_natCast hN (by rw [Rounding.div_down]; omega)]
      simp only [Except.ok_bind, pure_bind, Rounding.div_down]
      rw [if_neg (not_outOfBounds hw1 hw2), if_neg (not_outOfBounds hs1 hs2)]
      simp [hlt]
  · -- the sheep side stays
    rw [crossing_of_le hge] at hw1 hw2 hs1 hs2 ⊢
    rw [if_neg (by simpa using hge)]
    by_cases hnd : D < N
    · -- wheat is more valuable: the sheep are rounded down
      simp only [sheepStaysAmounts, if_pos hnd] at hw1 hw2 hs1 hs2 ⊢
      rw [if_pos (show (N : ℤ) > D by exact_mod_cast hnd), bigDivideOrThrow128_natCast hN (by omega),
        Except.ok_bind, bigDivideOrThrow_natCast hD (by rw [Rounding.div_down]; omega)]
      simp only [Except.ok_bind, pure_bind, Rounding.div_down]
      rw [if_neg (not_outOfBounds hw1 hw2), if_neg (not_outOfBounds hs1 hs2)]
      simp [hge]
    · -- sheep is more valuable: the wheat is rounded up
      simp only [sheepStaysAmounts, if_neg hnd] at hw1 hw2 hs1 hs2 ⊢
      rw [if_neg (show ¬ (N : ℤ) > D by exact_mod_cast hnd), bigDivideOrThrow128_natCast hD (by omega),
        Except.ok_bind, bigDivideOrThrow_natCast hN (by rw [Rounding.div_up]; omega)]
      simp only [Except.ok_bind, pure_bind, Rounding.div_up]
      rw [if_neg (not_outOfBounds hw1 hw2), if_neg (not_outOfBounds hs1 hs2)]
      simp [hge]

/-! ### The price-error thresholds

On amounts that favour the side that stays, the two "favored" checks of
`applyPriceErrorThresholds` never fire: what is left is the price-error check. -/

theorem not_favoredSheep {w s : ℕ} {ws : Bool} (hfav : ws = true → w * N ≤ s * D) :
    ¬ (ws = true ∧ s * D < w * N) := fun h => absurd (hfav h.1) (Nat.not_le.mpr h.2)

theorem not_favoredWheat {w s : ℕ} {ws : Bool} (hfav : ws = false → s * D ≤ w * N) :
    ¬ ((!ws) = true ∧ s * D > w * N) := fun h =>
  absurd (hfav (by simpa using h.1)) (Nat.not_le.mpr h.2)

/-- In `NORMAL` mode the thresholds keep the trade when it is within 1% and zero it
otherwise. -/
theorem applyPriceErrorThresholds_normal {w s : ℕ} {ws : Bool}
    (hfav : (ws = true → w * N ≤ s * D) ∧ (ws = false → s * D ≤ w * N)) :
    applyPriceErrorThresholds ⟨N, D⟩ w s ws .NORMAL =
      .ok (if 0 < w ∧ 0 < s ∧ priceErrorWithin N D w s false = true then ⟨w, s, ws⟩
        else ⟨0, 0, ws⟩) := by
  unfold applyPriceErrorThresholds
  by_cases hpos : 0 < w ∧ 0 < s
  · rw [if_pos (by omega)]
    simp only [bigMultiply_natCast, Except.ok_bind]
    rw [if_neg (not_favoredSheep hfav.1), if_neg (not_favoredWheat hfav.2)]
    simp only [if_true, checkPriceErrorBound_natCast, Except.ok_bind]
    cases priceErrorWithin N D w s false <;> simp [hpos]
  · have hpos' : ¬ (0 < w ∧ 0 < s ∧ priceErrorWithin N D w s false = true) :=
      fun h => hpos ⟨h.1, h.2.1⟩
    rw [if_neg (show ¬ ((w : ℤ) > 0 ∧ (s : ℤ) > 0) by omega), if_neg hpos']
    rfl

/-- **What the thresholds can do**, in every mode: keep the wheat seller's side
(`wheatStays`), keep the amounts or, outside strict send, zero them, or refuse the trade
with one of the two path-payment exceptions. -/
theorem applyPriceErrorThresholds_spec {w s : ℕ} {ws : Bool}
    (hfav : (ws = true → w * N ≤ s * D) ∧ (ws = false → s * D ≤ w * N)) (round : RoundingType) :
    Except.Spec (fun e => e = "exceeded price error bound" ∨ e = "invalid amount of sheep sent")
      (fun r => r.wheatStays = ws ∧ ((r.numWheatReceived = (w : ℤ) ∧ r.numSheepSend = (s : ℤ)) ∨
        (round ≠ .PATH_PAYMENT_STRICT_SEND ∧ r.numWheatReceived = 0 ∧ r.numSheepSend = 0)))
      (applyPriceErrorThresholds ⟨N, D⟩ w s ws round) := by
  unfold applyPriceErrorThresholds
  by_cases hpos : 0 < w ∧ 0 < s
  · rw [if_pos (show (w : ℤ) > 0 ∧ (s : ℤ) > 0 by omega)]
    simp only [bigMultiply_natCast, Except.ok_bind]
    rw [if_neg (not_favoredSheep hfav.1), if_neg (not_favoredWheat hfav.2)]
    simp only [checkPriceErrorBound_natCast, Except.ok_bind]
    split
    · -- normal: the trade is kept or zeroed
      next hround =>
      cases priceErrorWithin N D w s false <;> simp [hround]
    · -- path payment: the trade is kept or refused
      cases priceErrorWithin N D w s true
      · exact Or.inl rfl
      · simp
  · rw [if_neg (show ¬ ((w : ℤ) > 0 ∧ (s : ℤ) > 0) by omega)]
    cases round
    · simp
    · -- strict send: refused only when no sheep are sent
      by_cases hs : s = 0
      · rw [if_pos (by simp [hs])]
        exact Or.inr rfl
      · rw [if_neg (by simp [hs])]
        simp
    · simp

/-- In the path-payment modes, a trade that passes the favourable price-error check and,
in strict send, sends some sheep is kept as it is (or zeroed in strict receive when it
is empty). -/
theorem applyPriceErrorThresholds_path {w s : ℕ} {ws : Bool}
    (hfav : (ws = true → w * N ≤ s * D) ∧ (ws = false → s * D ≤ w * N)) {round : RoundingType}
    (hround : round ≠ .NORMAL) (hpe : 0 < w → 0 < s → priceErrorWithin N D w s true = true)
    (hsend : round = .PATH_PAYMENT_STRICT_SEND → 0 < s) :
    applyPriceErrorThresholds ⟨N, D⟩ w s ws round =
      .ok (if round = .PATH_PAYMENT_STRICT_SEND ∨ (0 < w ∧ 0 < s) then ⟨w, s, ws⟩
        else ⟨0, 0, ws⟩) := by
  unfold applyPriceErrorThresholds
  by_cases hpos : 0 < w ∧ 0 < s
  · rw [if_pos (show (w : ℤ) > 0 ∧ (s : ℤ) > 0 by omega)]
    simp only [bigMultiply_natCast, Except.ok_bind]
    rw [if_neg (not_favoredSheep hfav.1), if_neg (not_favoredWheat hfav.2), if_neg hround]
    simp [checkPriceErrorBound_natCast, hpe hpos.1 hpos.2, hpos]
  · rw [if_neg (show ¬ ((w : ℤ) > 0 ∧ (s : ℤ) > 0) by omega)]
    cases round
    · exact absurd rfl hround
    · -- strict send: the sheep sent are never zero here
      have hs := hsend rfl
      simp [hs.ne']
    · simp [hpos]

/-- `exchangeV10` on natural numbers: the thresholds applied to the crossing. -/
theorem exchangeV10_natCast (hN : 0 < N) (hD : 0 < D) (hws : (mws : ℤ) ≤ INT64_MAX)
    (hss : (mss : ℤ) ≤ INT64_MAX) (round : RoundingType) :
    exchangeV10 ⟨N, D⟩ mws mwr mss msr round =
      applyPriceErrorThresholds ⟨N, D⟩ (crossing N D mws mwr mss msr round).1
        (crossing N D mws mwr mss msr round).2.1 (crossing N D mws mwr mss msr round).2.2 round := by
  rw [exchangeV10, exchangeV10WithoutPriceErrorThresholds_eq hN hD hws hss round, Except.ok_bind]

/-- A result of `exchangeV10` in which the wheat offer stays comes from the wheat side
being worth more, and carries the crossing's amounts or, outside strict send, none. -/
theorem exchangeV10_of_wheatStays (hN : 0 < N) (hD : 0 < D) (hws : (mws : ℤ) ≤ INT64_MAX)
    (hss : (mss : ℤ) ≤ INT64_MAX) {round : RoundingType} {r : ExchangeResultV10}
    (hr : exchangeV10 ⟨N, D⟩ mws mwr mss msr round = .ok r) (hstay : r.wheatStays = true) :
    offerValue D N mss mwr < offerValue N D mws msr ∧
      ((r.numWheatReceived = (crossing N D mws mwr mss msr round).1 ∧
        r.numSheepSend = (crossing N D mws mwr mss msr round).2.1) ∨
      (round ≠ .PATH_PAYMENT_STRICT_SEND ∧ r.numWheatReceived = 0 ∧ r.numSheepSend = 0)) := by
  rw [exchangeV10_natCast hN hD hws hss] at hr
  obtain ⟨hkeep, hamounts⟩ :=
    (applyPriceErrorThresholds_spec (crossing_favours hN hD mws mwr mss msr round) round).post_of_eq_ok hr
  refine ⟨?_, hamounts⟩
  -- the side that stays is the wheat side
  by_contra hge
  rw [crossing_of_le (Nat.not_lt.mp hge), hstay] at hkeep
  simp at hkeep

end

/-! ### `exchangeV10` on `int64_t` limits -/

/-- **Bounds and favour of `exchangeV10`.** For a positive price and limits in
`[0, INT64_MAX]`, the crossing never throws, stays within every limit, rounds in
favour of the side that stays, trades nothing for something outside strict send, and
`exchangeV10` never refuses a trade as favouring the wrong side; in `NORMAL` mode it
returns nothing or a trade within 1% of the price. -/
theorem exchangeV10_bounded_favourable {price : Price} (hn : 1 ≤ price.n) (hd : 1 ≤ price.d)
    {mws mwr mss msr : ℤ} (hws : 0 ≤ mws ∧ mws ≤ INT64_MAX) (hwr : 0 ≤ mwr ∧ mwr ≤ INT64_MAX)
    (hss : 0 ≤ mss ∧ mss ≤ INT64_MAX) (hsr : 0 ≤ msr ∧ msr ≤ INT64_MAX) (round : RoundingType) :
    ∃ r, exchangeV10WithoutPriceErrorThresholds price mws mwr mss msr round = .ok r ∧
      0 ≤ r.numWheatReceived ∧ r.numWheatReceived ≤ min mwr mws ∧
      0 ≤ r.numSheepSend ∧ r.numSheepSend ≤ min msr mss ∧
      (r.wheatStays = true → r.numWheatReceived * price.n ≤ r.numSheepSend * price.d) ∧
      (r.wheatStays = false → r.numSheepSend * price.d ≤ r.numWheatReceived * price.n) ∧
      (round = .NORMAL ∨ round = .PATH_PAYMENT_STRICT_RECEIVE →
        (r.numWheatReceived = 0 ↔ r.numSheepSend = 0)) ∧
      exchangeV10 price mws mwr mss msr round ≠ .error "favored sheep when wheat stays" ∧
      exchangeV10 price mws mwr mss msr round ≠ .error "favored wheat when sheep stays" ∧
      (round = .NORMAL → ∃ r', exchangeV10 price mws mwr mss msr round = .ok r' ∧
        ((r'.numWheatReceived = 0 ∧ r'.numSheepSend = 0) ∨
          100 * |r'.numSheepSend * price.d - r'.numWheatReceived * price.n| ≤
            r'.numWheatReceived * price.n)) := by
  obtain ⟨n, d⟩ := price
  dsimp only at hn hd ⊢
  obtain ⟨N, rfl⟩ := Int.eq_ofNat_of_zero_le (show 0 ≤ n by omega)
  obtain ⟨D, rfl⟩ := Int.eq_ofNat_of_zero_le (show 0 ≤ d by omega)
  obtain ⟨mws, rfl⟩ := Int.eq_ofNat_of_zero_le hws.1
  obtain ⟨mwr, rfl⟩ := Int.eq_ofNat_of_zero_le hwr.1
  obtain ⟨mss, rfl⟩ := Int.eq_ofNat_of_zero_le hss.1
  obtain ⟨msr, rfl⟩ := Int.eq_ofNat_of_zero_le hsr.1
  have hN : 0 < N := by omega
  have hD : 0 < D := by omega
  obtain ⟨hw1, hw2, hs1, hs2⟩ := crossing_le hN hD mws mwr mss msr round
  have hfav := crossing_favours hN hD mws mwr mss msr round
  have hex : exchangeV10 ⟨N, D⟩ mws mwr mss msr round = _ :=
    exchangeV10_natCast hN hD hws.2 hss.2 round
  have hspec := applyPriceErrorThresholds_spec hfav round
  refine ⟨_, exchangeV10WithoutPriceErrorThresholds_eq hN hD hws.2 hss.2 round, ?_⟩
  dsimp only
  refine ⟨Int.natCast_nonneg _, le_min (by exact_mod_cast hw1) (by exact_mod_cast hw2),
    Int.natCast_nonneg _, le_min (by exact_mod_cast hs1) (by exact_mod_cast hs2),
    fun h => by exact_mod_cast hfav.1 h, fun h => by exact_mod_cast hfav.2 h, ?_,
    hex ▸ hspec.not_error (by simp), hex ▸ hspec.not_error (by simp), ?_⟩
  · -- nothing for something: the rounding mode is not strict send
    intro hround
    have hsend : round ≠ .PATH_PAYMENT_STRICT_SEND := by rcases hround with rfl | rfl <;> decide
    simp only [Nat.cast_eq_zero]
    exact crossing_eq_zero_iff hN hD mws mwr mss msr hsend
  · -- normal mode: the trade is zeroed or within 1%
    rintro rfl
    rw [hex, applyPriceErrorThresholds_normal hfav]
    refine ⟨_, rfl, ?_⟩
    split
    · next h => exact Or.inr (abs_sub_le_of_priceErrorWithin h.2.2)
    · exact Or.inl ⟨rfl, rfl⟩

theorem exchangeV10_bounded_favourable_two_thirds :
    (1 : ℤ) ≤ 2 ∧ (1 : ℤ) ≤ 3 ∧ ((0 : ℤ) ≤ 10 ∧ (10 : ℤ) ≤ INT64_MAX) ∧
    ∃ r, exchangeV10WithoutPriceErrorThresholds ⟨2, 3⟩ 10 10 10 10 .NORMAL = .ok r ∧
      0 ≤ r.numWheatReceived ∧ r.numWheatReceived ≤ min 10 10 ∧
      0 ≤ r.numSheepSend ∧ r.numSheepSend ≤ min 10 10 ∧
      (r.wheatStays = true → r.numWheatReceived * 2 ≤ r.numSheepSend * 3) ∧
      (r.wheatStays = false → r.numSheepSend * 3 ≤ r.numWheatReceived * 2) ∧
      (RoundingType.NORMAL = .NORMAL ∨ RoundingType.NORMAL = .PATH_PAYMENT_STRICT_RECEIVE →
        (r.numWheatReceived = 0 ↔ r.numSheepSend = 0)) ∧
      exchangeV10 ⟨2, 3⟩ 10 10 10 10 .NORMAL ≠ .error "favored sheep when wheat stays" ∧
      exchangeV10 ⟨2, 3⟩ 10 10 10 10 .NORMAL ≠ .error "favored wheat when sheep stays" ∧
      (RoundingType.NORMAL = .NORMAL → ∃ r', exchangeV10 ⟨2, 3⟩ 10 10 10 10 .NORMAL = .ok r' ∧
        ((r'.numWheatReceived = 0 ∧ r'.numSheepSend = 0) ∨
          100 * |r'.numSheepSend * 3 - r'.numWheatReceived * 2| ≤ r'.numWheatReceived * 2)) := by
  have hlim : (0 : ℤ) ≤ 10 ∧ (10 : ℤ) ≤ INT64_MAX := ⟨by decide, by decide⟩
  exact ⟨by decide, by decide, hlim,
    exchangeV10_bounded_favourable (by decide) (by decide) hlim hlim hlim hlim .NORMAL⟩

/-- **Path payment reaches its target.** In strict receive, a wheat offer that stays
and faces a sender able to pay gives exactly the wheat wanted, for the sheep rounded
up. In strict send, it takes all the sheep the limits allow, never favours the sheep
seller, and when it gives less wheat than wanted, the sender's sheep are all spent and
one more unit of wheat would cost more than they are worth. -/
theorem exchangeV10_path_payment_completes {price : Price} (hn : 1 ≤ price.n) (hd : 1 ≤ price.d)
    {mws mwr mss msr : ℤ} (hws : 0 ≤ mws ∧ mws ≤ INT64_MAX) (hwr : 0 ≤ mwr ∧ mwr ≤ INT64_MAX)
    (hss : 0 ≤ mss ∧ mss ≤ INT64_MAX) (hsr : 0 ≤ msr ∧ msr ≤ INT64_MAX) :
    (∀ r, exchangeV10 price mws mwr mss msr .PATH_PAYMENT_STRICT_RECEIVE = .ok r →
      r.wheatStays = true → mwr * price.n ≤ mss * price.d →
        r.numWheatReceived = mwr ∧ r.numSheepSend = (mwr * price.n + price.d - 1) / price.d) ∧
    (∀ r, exchangeV10 price mws mwr mss msr .PATH_PAYMENT_STRICT_SEND = .ok r →
      r.wheatStays = true →
        r.numSheepSend = min mss msr ∧ r.numWheatReceived ≤ mwr ∧
        r.numWheatReceived * price.n ≤ r.numSheepSend * price.d ∧
        (r.numWheatReceived < mwr →
          r.numSheepSend = mss ∧ r.numSheepSend * price.d < (r.numWheatReceived + 1) * price.n)) := by
  obtain ⟨n, d⟩ := price
  dsimp only at hn hd ⊢
  obtain ⟨N, rfl⟩ := Int.eq_ofNat_of_zero_le (show 0 ≤ n by omega)
  obtain ⟨D, rfl⟩ := Int.eq_ofNat_of_zero_le (show 0 ≤ d by omega)
  obtain ⟨mws, rfl⟩ := Int.eq_ofNat_of_zero_le hws.1
  obtain ⟨mwr, rfl⟩ := Int.eq_ofNat_of_zero_le hwr.1
  obtain ⟨mss, rfl⟩ := Int.eq_ofNat_of_zero_le hss.1
  obtain ⟨msr, rfl⟩ := Int.eq_ofNat_of_zero_le hsr.1
  have hN : 0 < N := by omega
  have hD : 0 < D := by omega
  constructor
  · -- strict receive: the crossing is the target, and the thresholds keep it
    intro r hr hstay hsheep
    have hsheep' : mwr * N ≤ mss * D := by exact_mod_cast hsheep
    obtain ⟨hlt, -⟩ := exchangeV10_of_wheatStays hN hD hws.2 hss.2 hr hstay
    have hfav := crossing_favours hN hD mws mwr mss msr .PATH_PAYMENT_STRICT_RECEIVE
    rw [crossing_strictReceive hN hlt hsheep'] at hfav
    rw [exchangeV10_natCast hN hD hws.2 hss.2, crossing_strictReceive hN hlt hsheep',
      applyPriceErrorThresholds_path hfav
        (show RoundingType.PATH_PAYMENT_STRICT_RECEIVE ≠ .NORMAL by decide)
        (fun _ _ => priceErrorWithin_true_of_le (hfav.1 rfl))
        (fun h : RoundingType.PATH_PAYMENT_STRICT_RECEIVE = .PATH_PAYMENT_STRICT_SEND => nomatch h)] at hr
    have hceil : ((ceilDiv (mwr * N) D : ℕ) : ℤ) = ((mwr : ℤ) * N + D - 1) / D := by
      rw [natCast_ceilDiv hD, Nat.cast_mul]
    rw [← hceil]
    dsimp only at hr
    -- the wheat wanted is zero exactly when the sheep are
    have hzero : mwr = 0 ↔ ceilDiv (mwr * N) D = 0 := by
      rw [ceilDiv_eq_zero_iff hD, Nat.mul_eq_zero]
      omega
    split at hr
    · cases hr
      exact ⟨rfl, rfl⟩
    · next hpos =>
      cases hr
      -- one amount is zero, so both are
      have h0 : mwr = 0 ∧ ceilDiv (mwr * N) D = 0 := by
        simp only [reduceCtorEq, false_or, not_and_or, Nat.not_lt, Nat.le_zero] at hpos
        rcases hpos with h | h
        · exact ⟨h, hzero.mp h⟩
        · exact ⟨hzero.mpr h, h⟩
      rw [h0.2, h0.1]
      simp
  · -- strict send: the thresholds keep the crossing
    intro r hr hstay
    obtain ⟨hlt, hamounts⟩ := exchangeV10_of_wheatStays hN hD hws.2 hss.2 hr hstay
    obtain ⟨hw, hs⟩ : r.numWheatReceived = (crossing N D mws mwr mss msr .PATH_PAYMENT_STRICT_SEND).1 ∧
        r.numSheepSend = (crossing N D mws mwr mss msr .PATH_PAYMENT_STRICT_SEND).2.1 := by
      rcases hamounts with h | h
      · exact h
      · exact absurd rfl h.1
    obtain ⟨hmin, hshort⟩ := crossing_strictSend hN hlt
    obtain ⟨hw1, -, -, -⟩ := crossing_le hN hD mws mwr mss msr .PATH_PAYMENT_STRICT_SEND
    have hfav := (crossing_favours hN hD mws mwr mss msr .PATH_PAYMENT_STRICT_SEND).1
      (by rw [crossing_of_lt hlt])
    rw [hw, hs]
    refine ⟨by rw [hmin, Nat.cast_min], by exact_mod_cast hw1, by exact_mod_cast hfav, fun h => ?_⟩
    obtain ⟨hall, hcost⟩ := hshort (by exact_mod_cast h)
    exact ⟨by rw [hall], by exact_mod_cast hcost⟩

/-- At price `2/3`, a strict-receive offer asked for `10` wheat by a sender with `100`
sheep stays and gives exactly `10` wheat for `⌈20/3⌉ = 7` sheep; a strict-send offer
given `10` sheep stays, gives `15` wheat for all of them, and a sixteenth unit would cost
more than they are worth. -/
theorem exchangeV10_path_payment_completes_two_thirds :
    (∃ r, exchangeV10 ⟨2, 3⟩ 100 10 100 100 .PATH_PAYMENT_STRICT_RECEIVE = .ok r ∧
      r.wheatStays = true ∧ r.numWheatReceived = 10 ∧ r.numSheepSend = (10 * 2 + 3 - 1) / 3) ∧
    (∃ r, exchangeV10 ⟨2, 3⟩ 100 100 10 100 .PATH_PAYMENT_STRICT_SEND = .ok r ∧
      r.wheatStays = true ∧ r.numSheepSend = min 10 100 ∧ r.numWheatReceived ≤ 100 ∧
      r.numWheatReceived * 2 ≤ r.numSheepSend * 3 ∧ r.numWheatReceived < 100 ∧
      r.numSheepSend = 10 ∧ r.numSheepSend * 3 < (r.numWheatReceived + 1) * 2) := by
  have h10 : (0 : ℤ) ≤ 10 ∧ (10 : ℤ) ≤ INT64_MAX := ⟨by decide, by decide⟩
  have h100 : (0 : ℤ) ≤ 100 ∧ (100 : ℤ) ≤ INT64_MAX := ⟨by decide, by decide⟩
  have hrecv : exchangeV10 ⟨2, 3⟩ 100 10 100 100 .PATH_PAYMENT_STRICT_RECEIVE = .ok ⟨10, 7, true⟩ :=
    rfl
  have hsend : exchangeV10 ⟨2, 3⟩ 100 100 10 100 .PATH_PAYMENT_STRICT_SEND = .ok ⟨15, 10, true⟩ :=
    rfl
  obtain ⟨hw, hs⟩ := (exchangeV10_path_payment_completes (by decide) (by decide) h100 h10 h100
    h100).1 _ hrecv rfl (by decide)
  obtain ⟨hmin, hle, hfav, hshort⟩ := (exchangeV10_path_payment_completes (by decide) (by decide)
    h100 h100 h10 h100).2 _ hsend rfl
  have hlt : (15 : ℤ) < 100 := by decide
  exact ⟨⟨_, hrecv, rfl, hw, hs⟩, ⟨_, hsend, rfl, hmin, hle, hfav, hlt, hshort hlt⟩⟩

end OfferExchange

end HcnetCore
