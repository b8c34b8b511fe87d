import HcnetCore.Exchange.ExchangeV10Spec

/-!
# `adjustOffer` and crossing an adjusted offer

`adjustOffer` crosses an offer with a counterparty whose limits are all `INT64_MAX`:
against it the offer's side stays (`offerValue_le_unlimited`), so the amount it
leaves is `adjustedAmount` of `Exchange.Crossing` (`adjustOffer_eq`). Two facts of
the order book follow:

* `adjustOffer_idempotent` — the amount left is at most the offer and is adjusted to
  itself;
* `exchangeV10_adjusted_never_throws` — an offer already adjusted is crossed in every
  rounding mode without an exception: when it stays it is favoured, which passes the
  path-payment check, and when it leaves the amounts are those `adjustOffer` checked.
-/

namespace HcnetCore

namespace OfferExchange

open Arith Numeric LiquidityPool

/-- `INT64_MAX` as a natural number. -/
theorem int64Max_natCast : INT64_MAX = ((INT64_MAX.toNat : ℕ) : ℤ) :=
  (Int.toNat_of_nonneg (by decide)).symm

section

variable {N D : ℕ}

/-- **`adjustOffer` refines `adjustedAmount`.** -/
theorem adjustOffer_eq (hN : 0 < N) (hD : 0 < D) {mws msr : ℕ} (hws : (mws : ℤ) ≤ INT64_MAX)
    (hsr : (msr : ℤ) ≤ INT64_MAX) :
    adjustOffer ⟨N, D⟩ mws msr = .ok (adjustedAmount N D mws msr : ℕ) := by
  have hws' : mws ≤ INT64_MAX.toNat := by rw [int64Max_natCast] at hws; exact_mod_cast hws
  have hsr' : msr ≤ INT64_MAX.toNat := by rw [int64Max_natCast] at hsr; exact_mod_cast hsr
  -- the counterparty without limits is worth more: the offer's side stays
  have hge := offerValue_le_unlimited (n := N) (d := D) hws' hsr'
  have hfav := crossing_favours hN hD mws INT64_MAX.toNat INT64_MAX.toNat msr .NORMAL
  rw [crossing_of_le hge] at hfav
  rw [adjustOffer, int64Max_natCast,
    exchangeV10_natCast hN hD hws (int64Max_natCast ▸ le_refl INT64_MAX) .NORMAL,
    crossing_of_le hge, applyPriceErrorThresholds_normal hfav, Except.ok_bind]
  simp only [adjustedAmount]
  split <;> rfl

/-- Crossing an offer that `adjustOffer` left unchanged: the amounts pass the path-payment
price check, and in strict send some sheep are sent. When the offer stays it is
favoured; when it leaves, the amounts are the ones `adjustOffer` checked. -/
theorem crossing_adjusted {A mss msr : ℕ} (mwr : ℕ) (hN : 0 < N) (hD : 0 < D) (hA : 0 < A)
    (hss : 0 < mss) (hadj : adjustedAmount N D A msr = A) (round : RoundingType) :
    (0 < (crossing N D A mwr mss msr round).1 → 0 < (crossing N D A mwr mss msr round).2.1 →
      priceErrorWithin N D (crossing N D A mwr mss msr round).1
        (crossing N D A mwr mss msr round).2.1 true = true) ∧
    (round = .PATH_PAYMENT_STRICT_SEND → 0 < (crossing N D A mwr mss msr round).2.1) := by
  obtain ⟨-, hs, hpe⟩ := adjustedAmount_pos (d := D) (by rw [hadj]; exact hA)
  rcases Nat.lt_or_ge (offerValue D N mss mwr) (offerValue N D A msr) with hlt | hge
  · -- the offer stays and is favoured
    have hfav := (crossing_favours hN hD A mwr mss msr round).1 (by rw [crossing_of_lt hlt])
    refine ⟨fun _ _ => priceErrorWithin_true_of_le hfav, ?_⟩
    rintro rfl
    -- the counterparty is worth less, so the offer wants some sheep
    have hsr : 0 < msr := by
      have := offerValue_le_receive N D A msr
      exact Nat.pos_of_ne_zero (by rintro rfl; omega)
    rw [(crossing_strictSend hN hlt).1]
    exact lt_min hss hsr
  · -- the offer leaves: the amounts are those of `adjustOffer`
    rw [crossing_of_le hge]
    exact ⟨fun _ _ => priceErrorWithin_true_of_false hpe, fun _ => hs⟩

end

/-- **`adjustOffer` never grows an offer and is idempotent.** For a positive price and
limits in `[0, INT64_MAX]`, the amount left is between zero and the offer, and
adjusting it again leaves it unchanged, also when the 1% threshold zeroed it. -/
theorem adjustOffer_idempotent {price : Price} (hn : 1 ≤ price.n) (hd : 1 ≤ price.d)
    {mws msr : ℤ} (hws : 0 ≤ mws ∧ mws ≤ INT64_MAX) (hsr : 0 ≤ msr ∧ msr ≤ INT64_MAX) :
    ∃ a, adjustOffer price mws msr = .ok a ∧ 0 ≤ a ∧ a ≤ mws ∧
      adjustOffer price a msr = .ok a := by
  obtain ⟨n, d⟩ := price
  dsimp only at hn hd
  obtain ⟨N, rfl⟩ := Int.eq_ofNat_of_zero_le (show 0 ≤ n by omega)
  obtain ⟨D, rfl⟩ := Int.eq_ofNat_of_zero_le (show 0 ≤ d by omega)
  obtain ⟨mws, rfl⟩ := Int.eq_ofNat_of_zero_le hws.1
  obtain ⟨msr, rfl⟩ := Int.eq_ofNat_of_zero_le hsr.1
  have hN : 0 < N := by omega
  have hD : 0 < D := by omega
  have hle := adjustedAmount_le (d := D) hN mws msr
  refine ⟨_, adjustOffer_eq hN hD hws.2 hsr.2, Int.natCast_nonneg _, by exact_mod_cast hle, ?_⟩
  -- the adjusted amount is again within `int64_t`
  have hfit : ((adjustedAmount N D mws msr : ℕ) : ℤ) ≤ INT64_MAX :=
    (show ((adjustedAmount N D mws msr : ℕ) : ℤ) ≤ mws by exact_mod_cast hle).trans hws.2
  rw [adjustOffer_eq hN hD hfit hsr.2, adjustedAmount_adjustedAmount hN hD]

theorem adjustOffer_idempotent_two_thirds :
    (1 : ℤ) ≤ 2 ∧ (1 : ℤ) ≤ 3 ∧ ((0 : ℤ) ≤ 10 ∧ (10 : ℤ) ≤ INT64_MAX) ∧
    ∃ a, adjustOffer ⟨2, 3⟩ 10 10 = .ok a ∧ 0 ≤ a ∧ a ≤ 10 ∧ adjustOffer ⟨2, 3⟩ a 10 = .ok a := by
  have hlim : (0 : ℤ) ≤ 10 ∧ (10 : ℤ) ≤ INT64_MAX := ⟨by decide, by decide⟩
  exact ⟨by decide, by decide, hlim, adjustOffer_idempotent (by decide) (by decide) hlim hlim⟩

/-- **An adjusted offer is crossed without an exception.** For a positive price, an
amount `adjustOffer` leaves unchanged and a counterparty that can send some sheep,
`exchangeV10` returns in every rounding mode, and in strict send some sheep are
sent. -/
theorem exchangeV10_adjusted_never_throws {price : Price} (hn : 1 ≤ price.n) (hd : 1 ≤ price.d)
    {amount mwr mss msr : ℤ} (hA : 1 ≤ amount ∧ amount ≤ INT64_MAX)
    (hwr : 0 ≤ mwr ∧ mwr ≤ INT64_MAX) (hss : 1 ≤ mss ∧ mss ≤ INT64_MAX)
    (hsr : 0 ≤ msr ∧ msr ≤ INT64_MAX) (hadj : adjustOffer price amount msr = .ok amount)
    (round : RoundingType) :
    ∃ r, exchangeV10 price amount mwr mss msr round = .ok r ∧
      (round = .PATH_PAYMENT_STRICT_SEND → 1 ≤ r.numSheepSend) := by
  obtain ⟨n, d⟩ := price
  dsimp only at hn hd
  obtain ⟨N, rfl⟩ := Int.eq_ofNat_of_zero_le (show 0 ≤ n by omega)
  obtain ⟨D, rfl⟩ := Int.eq_ofNat_of_zero_le (show 0 ≤ d by omega)
  obtain ⟨A, rfl⟩ := Int.eq_ofNat_of_zero_le (show 0 ≤ amount by omega)
  obtain ⟨mwr, rfl⟩ := Int.eq_ofNat_of_zero_le hwr.1
  obtain ⟨mss, rfl⟩ := Int.eq_ofNat_of_zero_le (show 0 ≤ mss by omega)
  obtain ⟨msr, rfl⟩ := Int.eq_ofNat_of_zero_le hsr.1
  have hN : 0 < N := by omega
  have hD : 0 < D := by omega
  have hadj' : adjustedAmount N D A msr = A := by
    rw [adjustOffer_eq hN hD hA.2 hsr.2] at hadj
    exact_mod_cast Except.ok.inj hadj
  obtain ⟨hpe, hsend⟩ := crossing_adjusted mwr hN hD (by omega) (show 0 < mss by omega) hadj' round
  have hfav := crossing_favours hN hD A mwr mss msr round
  rw [exchangeV10_natCast hN hD hA.2 hss.2]
  by_cases hround : round = .NORMAL
  · -- normal mode never throws on favourable amounts
    subst hround
    exact ⟨_, applyPriceErrorThresholds_normal hfav, fun h => nomatch h⟩
  · refine ⟨_, applyPriceErrorThresholds_path hfav hround hpe hsend, fun h => ?_⟩
    rw [if_pos (Or.inl h)]
    dsimp only
    exact_mod_cast hsend h

theorem exchangeV10_adjusted_never_throws_two_thirds :
    (1 : ℤ) ≤ 2 ∧ (1 : ℤ) ≤ 3 ∧ ((1 : ℤ) ≤ 9 ∧ (9 : ℤ) ≤ INT64_MAX) ∧
    ((0 : ℤ) ≤ 10 ∧ (10 : ℤ) ≤ INT64_MAX) ∧ ((1 : ℤ) ≤ 10 ∧ (10 : ℤ) ≤ INT64_MAX) ∧
    adjustOffer ⟨2, 3⟩ 9 10 = .ok 9 ∧
    ∃ r, exchangeV10 ⟨2, 3⟩ 9 10 10 10 .PATH_PAYMENT_STRICT_SEND = .ok r ∧
      (RoundingType.PATH_PAYMENT_STRICT_SEND = .PATH_PAYMENT_STRICT_SEND → 1 ≤ r.numSheepSend) := by
  have hA : (1 : ℤ) ≤ 9 ∧ (9 : ℤ) ≤ INT64_MAX := ⟨by decide, by decide⟩
  have hlim : (0 : ℤ) ≤ 10 ∧ (10 : ℤ) ≤ INT64_MAX := ⟨by decide, by decide⟩
  have hss : (1 : ℤ) ≤ 10 ∧ (10 : ℤ) ≤ INT64_MAX := ⟨by decide, by decide⟩
  have hadj : adjustOffer ⟨2, 3⟩ 9 10 = .ok 9 := by rfl
  exact ⟨by decide, by decide, hA, hlim, hss, hadj,
    exchangeV10_adjusted_never_throws (by decide) (by decide) hA hlim hss hlim hadj
      .PATH_PAYMENT_STRICT_SEND⟩

end OfferExchange

end HcnetCore
