import Mathlib.Tactic.Linarith
import Mathlib.Tactic.Positivity
import Mathlib.Tactic.Ring

/-!
# Constant-product pools

A constant-product pool holds reserves `a` and `b` of two assets and has issued
`shares` claims on them. What the pool is for fits in one invariant, `Good`: the
shares never claim more than the reserves back, `shares² ≤ a b`, and the pool is
empty in all three quantities or in none.

Everything a pool does is one of three moves (`Move`):

* `Move.create` — the first deposit into an empty pool, which issues at most
  `√(a b)` shares;
* `Move.rescale` — a deposit or a withdrawal: shares and reserves change together,
  and the reserves per share do not fall, `shares' a ≤ shares a'` and the same for
  `b` (a depositor pays at least the current price of the shares received, a
  withdrawer receives at most the current value of the shares returned);
* `Move.trade` — an exchange against the reserves, which leaves the shares alone
  and does not let the product `a b` fall.

`Good.move` proves that every move keeps the invariant, and `Move.value_le` that no
move dilutes the shares: `a b / shares²` never falls while the pool stays non-empty.
The two trade lemmas `le_mul_sub_of_send` and `le_mul_sub_of_receive` say why the
rounding of a trade keeps the product: the amount paid out is rounded down, or the
amount paid in is rounded up, with a fee of `M - γ` parts in `M`. `KeepsFeeProduct`
is that condition with the fee charged on what is paid in, and
`keepsFeeProduct_iff_out` / `keepsFeeProduct_iff_in` solve it for the payout and for
the amount paid in.

Everything is stated over an ordered commutative ring, so that the integer model of
a pool instantiates it at `ℤ`.
-/

namespace HcnetCore

namespace ConstantProduct

/-- The state of a constant-product pool: its two reserves and its issued shares. -/
structure State (R : Type*) where
  /-- Reserve of the first asset. -/
  a : R
  /-- Reserve of the second asset. -/
  b : R
  /-- Pool shares outstanding. -/
  shares : R
deriving DecidableEq, Repr

variable {R : Type*} [CommRing R] [LinearOrder R]

/-- **The pool invariant**: nothing negative, shares backed by the reserves
(`shares² ≤ a b`), and the three quantities zero together. -/
structure Good (p : State R) : Prop where
  a_nonneg : 0 ≤ p.a
  b_nonneg : 0 ≤ p.b
  shares_nonneg : 0 ≤ p.shares
  sq_le : p.shares * p.shares ≤ p.a * p.b
  shares_eq_zero_iff : p.shares = 0 ↔ p.a = 0
  a_eq_zero_iff : p.a = 0 ↔ p.b = 0

instance (p : State R) : Decidable (Good p) :=
  decidable_of_iff (0 ≤ p.a ∧ 0 ≤ p.b ∧ 0 ≤ p.shares ∧ p.shares * p.shares ≤ p.a * p.b ∧
      (p.shares = 0 ↔ p.a = 0) ∧ (p.a = 0 ↔ p.b = 0))
    ⟨fun ⟨h1, h2, h3, h4, h5, h6⟩ => ⟨h1, h2, h3, h4, h5, h6⟩,
      fun ⟨h1, h2, h3, h4, h5, h6⟩ => ⟨h1, h2, h3, h4, h5, h6⟩⟩

variable {p q : State R}

/-- The empty pool is good. -/
theorem good_empty : Good (⟨0, 0, 0⟩ : State R) :=
  ⟨le_rfl, le_rfl, le_rfl, by simp, Iff.rfl, Iff.rfl⟩

namespace Good

/-- In a good pool with shares, both reserves are positive. -/
theorem a_pos (hp : Good p) (hs : 0 < p.shares) : 0 < p.a :=
  lt_of_le_of_ne hp.a_nonneg fun h => hs.ne' (hp.shares_eq_zero_iff.mpr h.symm)

theorem b_pos (hp : Good p) (hs : 0 < p.shares) : 0 < p.b :=
  lt_of_le_of_ne hp.b_nonneg fun h => (hp.a_pos hs).ne' (hp.a_eq_zero_iff.mpr h.symm)

/-- A good pool with a positive reserve has shares. -/
theorem shares_pos (hp : Good p) (ha : 0 < p.a) : 0 < p.shares :=
  lt_of_le_of_ne hp.shares_nonneg fun h => ha.ne' (hp.shares_eq_zero_iff.mp h.symm)

/-- A good pool whose shares are zero is empty. -/
theorem eq_empty (hp : Good p) (hs : p.shares = 0) : p = ⟨0, 0, 0⟩ := by
  have ha := hp.shares_eq_zero_iff.mp hs
  have hb := hp.a_eq_zero_iff.mp ha
  cases p
  simp_all

variable [IsStrictOrderedRing R]

/-- **One reserve covers the shares.** If both reserves were below the shares, their
product would be below `shares²`. -/
theorem shares_le_or (hp : Good p) : p.shares ≤ p.a ∨ p.shares ≤ p.b := by
  by_contra h
  simp only [not_or, not_le] at h
  obtain ⟨ha, hb⟩ := h
  have hlt : p.a * p.b < p.shares * p.shares :=
    mul_lt_mul'' ha hb hp.a_nonneg hp.b_nonneg
  exact absurd hp.sq_le (not_le.mpr hlt)

end Good

variable [IsStrictOrderedRing R]

/-- **Rescaling keeps the shares backed.** If the reserves per share do not fall
(`s' a ≤ s a'`, `s' b ≤ s b'`), then `s² ≤ a b` gives `s'² ≤ a' b'`: multiply the
second by `s²` and compare through `(s' a)(s' b)`. -/
theorem sq_le_mul_of_ratio {a b s a' b' s' : R} (hs : 0 < s) (ha : 0 ≤ a) (hb : 0 ≤ b)
    (hs' : 0 ≤ s') (hsq : s * s ≤ a * b) (hra : s' * a ≤ s * a') (hrb : s' * b ≤ s * b') :
    s' * s' ≤ a' * b' := by
  have hsa : 0 ≤ s' * a := mul_nonneg hs' ha
  have hsb : 0 ≤ s' * b := mul_nonneg hs' hb
  have key : s * s * (s' * s') ≤ s * s * (a' * b') :=
    calc s * s * (s' * s') ≤ a * b * (s' * s') := mul_le_mul_of_nonneg_right hsq (mul_self_nonneg s')
      _ = (s' * a) * (s' * b) := by ring
      _ ≤ (s * a') * (s * b') := mul_le_mul hra hrb hsb (hsa.trans hra)
      _ = s * s * (a' * b') := by ring
  exact le_of_mul_le_mul_left key (mul_pos hs hs)

/-- **Selling into the pool, rounded down.** A trade that adds `t` to reserve `x` and
pays out `f ≤ γ y t / (M x + γ t)` (fee `M - γ` parts in `M`) keeps `x y`. -/
theorem le_mul_sub_of_send {x y t f γ M : R} (hx : 0 ≤ x) (hf : 0 ≤ f) (hγ : 0 < γ)
    (hγM : γ ≤ M) (hout : f * (M * x + γ * t) ≤ γ * (y * t)) : x * y ≤ (x + t) * (y - f) := by
  -- the fee only lowers the denominator: `γ f (x + t) ≤ f (M x + γ t) ≤ γ y t`
  have hfee : γ * (f * (x + t)) ≤ γ * (y * t) :=
    calc γ * (f * (x + t)) = γ * (f * x) + f * (γ * t) := by ring
      _ ≤ M * (f * x) + f * (γ * t) := by gcongr
      _ = f * (M * x + γ * t) := by ring
      _ ≤ γ * (y * t) := hout
  have hpaid : f * (x + t) ≤ y * t := le_of_mul_le_mul_left hfee hγ
  linarith

/-- **Buying from the pool, rounded up.** A trade that pays out `f` from reserve `y`
and takes `t ≥ M x f / ((y - f) γ)` into reserve `x` keeps `x y`. -/
theorem le_mul_sub_of_receive {x y t f γ M : R} (hx : 0 ≤ x) (hf : 0 ≤ f) (hγ : 0 < γ)
    (hγM : γ ≤ M) (hin : M * (x * f) ≤ t * ((y - f) * γ)) : x * y ≤ (x + t) * (y - f) := by
  have hfee : γ * (x * f) ≤ γ * (t * (y - f)) :=
    calc γ * (x * f) ≤ M * (x * f) := by gcongr
      _ ≤ t * ((y - f) * γ) := hin
      _ = γ * (t * (y - f)) := by ring
  have hpaid : x * f ≤ t * (y - f) := le_of_mul_le_mul_left hfee hγ
  linarith

/-- A trade of `t` into reserve `x` for `o` out of reserve `y`, with a fee of `M - γ`
parts in `M` on what is paid in, keeps the product: `M x y ≤ (M x + γ t)(y - o)`. -/
def KeepsFeeProduct (M γ x y t o : R) : Prop :=
  M * x * y ≤ (M * x + γ * t) * (y - o)

instance [DecidableLE R] (M γ x y t o : R) : Decidable (KeepsFeeProduct M γ x y t o) :=
  inferInstanceAs (Decidable (_ ≤ _))

/-- For a fixed amount paid in, the payouts that keep the product are those with
`o (M x + γ t) ≤ γ y t`. -/
theorem keepsFeeProduct_iff_out {M γ x y t o : R} :
    KeepsFeeProduct M γ x y t o ↔ o * (M * x + γ * t) ≤ γ * (y * t) := by
  have h : (M * x + γ * t) * (y - o) = M * x * y + (γ * (y * t) - o * (M * x + γ * t)) := by
    ring
  rw [KeepsFeeProduct, h]
  constructor <;> intro h' <;> linarith

/-- For a fixed payout, the amounts paid in that keep the product are those with
`M x o ≤ t (y - o) γ`. -/
theorem keepsFeeProduct_iff_in {M γ x y t o : R} :
    KeepsFeeProduct M γ x y t o ↔ M * (x * o) ≤ t * ((y - o) * γ) := by
  have h : (M * x + γ * t) * (y - o) = M * x * y + (t * ((y - o) * γ) - M * (x * o)) := by
    ring
  rw [KeepsFeeProduct, h]
  constructor <;> intro h' <;> linarith

/-- The moves of a pool (see the module docstring). -/
inductive Move : State R → State R → Prop
  /-- The first deposit into an empty pool. -/
  | create {a b s : R} (ha : 0 < a) (hb : 0 < b) (hs : 0 < s) (hsq : s * s ≤ a * b) :
      Move ⟨0, 0, 0⟩ ⟨a, b, s⟩
  /-- A deposit or withdrawal at no better than the current reserves per share. -/
  | rescale {p q : State R} (hs : 0 < p.shares) (ha : 0 ≤ q.a) (hb : 0 ≤ q.b)
      (hq : 0 ≤ q.shares) (hra : q.shares * p.a ≤ p.shares * q.a)
      (hrb : q.shares * p.b ≤ p.shares * q.b) (hzero : q.shares = 0 → q.a = 0 ∧ q.b = 0) :
      Move p q
  /-- A trade against a non-empty pool that keeps the product. -/
  | trade {p q : State R} (ha : 0 < p.a) (hb : 0 < p.b) (hs : q.shares = p.shares)
      (hprod : p.a * p.b ≤ q.a * q.b) (ha' : 0 < q.a) (hb' : 0 < q.b) : Move p q

/-- **Every move keeps the pool invariant.** -/
theorem Good.move (hp : Good p) (h : Move p q) : Good q := by
  cases h with
  | create ha hb hs hsq =>
    exact ⟨ha.le, hb.le, hs.le, hsq, iff_of_false hs.ne' ha.ne', iff_of_false ha.ne' hb.ne'⟩
  | rescale hs ha hb hq hra hrb hzero =>
    have hpa := hp.a_pos hs
    have hsq := sq_le_mul_of_ratio hs hp.a_nonneg hp.b_nonneg hq hp.sq_le hra hrb
    rcases hq.lt_or_eq with hq | hq
    · -- shares remain, so by the ratios both reserves remain
      have ha' : 0 < q.a := pos_of_mul_pos_right ((mul_pos hq hpa).trans_le hra) hs.le
      have hb' : 0 < q.b :=
        pos_of_mul_pos_right ((mul_pos hq (hp.b_pos hs)).trans_le hrb) hs.le
      exact ⟨ha, hb, hq.le, hsq, iff_of_false hq.ne' ha'.ne', iff_of_false ha'.ne' hb'.ne'⟩
    · -- all shares returned: the move must empty the reserves
      obtain ⟨ha0, hb0⟩ := hzero hq.symm
      exact ⟨ha, hb, hq.symm ▸ le_rfl, hsq, iff_of_true hq.symm ha0, iff_of_true ha0 hb0⟩
  | trade ha hb hs hprod ha' hb' =>
    have hpos : 0 < q.shares := hs ▸ hp.shares_pos ha
    exact ⟨ha'.le, hb'.le, hpos.le, hs ▸ hp.sq_le.trans hprod,
      iff_of_false hpos.ne' ha'.ne', iff_of_false ha'.ne' hb'.ne'⟩

/-- **No move dilutes the shares.** While the pool has shares before and after, the
squared value of a share, `a b / shares²`, does not fall. -/
theorem Move.value_le (hgood : Good p) (h : Move p q) (hp : 0 < p.shares)
    (hq : 0 < q.shares) :
    p.a * p.b * (q.shares * q.shares) ≤ q.a * q.b * (p.shares * p.shares) := by
  cases h with
  | create => exact absurd hp (lt_irrefl 0)
  | rescale hs ha _ _ hra hrb _ =>
    calc p.a * p.b * (q.shares * q.shares) = (q.shares * p.a) * (q.shares * p.b) := by ring
      _ ≤ (p.shares * q.a) * (p.shares * q.b) :=
          mul_le_mul hra hrb (mul_nonneg hq.le hgood.b_nonneg) (mul_nonneg hs.le ha)
      _ = q.a * q.b * (p.shares * p.shares) := by ring
  | trade _ _ hs hprod =>
    rw [hs]
    exact mul_le_mul_of_nonneg_right hprod (mul_self_nonneg _)

end ConstantProduct

end HcnetCore
