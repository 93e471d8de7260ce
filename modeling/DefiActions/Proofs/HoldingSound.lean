import DefiActions.Proofs.LiquiditySound
import Mathlib.Algebra.Order.Field.Basic
import Mathlib.Data.Rat.Floor
import Mathlib.Tactic.FieldSimp
import Mathlib.Tactic.Ring

/-!
# What a position holds

Before any rounding, a unit of liquidity holds a share of each token: the
difference of the inverse roots from the price up to the upper bound, and the
difference of the roots from the lower bound up to the price. The amounts are
the shares of all the liquidity rounded down once, whatever divisions compute
them. So a position trades one way as the price rises, a range can be split for
at most one unit of each token, and sizing what is held gives nothing extra.
-/

namespace DefiActions.Liquidity

variable {price price' a b m p q s t x y L M : Int} {precision : Precision}

/-! ## Shares -/

/-- The number that a ratio stands for, which is the root of a price. -/
def root (p : Int) : ℚ := p / Tick.unit

def share0 (p b : Int) : ℚ := (root p)⁻¹ - (root b)⁻¹

def share1 (a p : Int) : ℚ := root p - root a

theorem cast_unit_pos : (0 : ℚ) < Tick.unit := by exact_mod_cast unit_pos

theorem root_pos (h : 0 < p) : 0 < root p := div_pos (by exact_mod_cast h) cast_unit_pos

theorem root_lt (h : p < q) : root p < root q := div_lt_div_of_pos_right (by exact_mod_cast h) cast_unit_pos

theorem root_le (h : p ≤ q) : root p ≤ root q := div_le_div_of_nonneg_right (by exact_mod_cast h) cast_unit_pos.le

@[simp] theorem share0_self (b : Int) : share0 b b = 0 := sub_self _

@[simp] theorem share1_self (a : Int) : share1 a a = 0 := sub_self _

theorem share1_mono (h : p ≤ q) : share1 a p ≤ share1 a q := sub_le_sub_right (root_le h) _

theorem share1_nonneg (h : a ≤ p) : 0 ≤ share1 a p := sub_nonneg.mpr (root_le h)

theorem share0_anti (hp : 0 < p ∨ p = b) (hpq : p ≤ q) (hqb : q ≤ b) : share0 q b ≤ share0 p b := by
  rcases hp with hp | rfl
  · exact sub_le_sub_right (inv_anti₀ (root_pos hp) (root_le hpq)) _
  · obtain rfl : q = p := Int.le_antisymm hqb hpq
    exact le_refl _

theorem share0_nonneg (hp : 0 < p ∨ p = b) (hpb : p ≤ b) : 0 ≤ share0 p b := by
  have h := share0_anti hp hpb (le_refl b)
  rwa [share0_self] at h

/-! ## The price in the range -/

theorem le_clamp : a ≤ clamp price a b := by unfold clamp; omega

theorem clamp_le (hab : a < b) : clamp price a b ≤ b := by unfold clamp; omega

theorem clamp_mono (h : price ≤ price') : clamp price a b ≤ clamp price' a b := by unfold clamp; omega

theorem clamp_pos (hprice : 0 < price) (hab : a < b) : 0 < clamp price a b ∨ clamp price a b = b := by
  -- the bounds need not be positive, but below the upper bound the price is
  unfold clamp; omega

theorem share_pos (hprice : 0 < price) (hab : a < b) :
    0 < share0 (clamp price a b) b ∨ 0 < share1 a (clamp price a b) := by
  by_cases hbelow : price ≤ a
  · left
    rw [clamp_below hab hbelow]
    exact sub_pos.mpr (inv_strictAnti₀ (root_pos (by omega)) (root_lt hab))
  · right
    have habove : a < clamp price a b := by unfold clamp; omega
    exact sub_pos.mpr (root_lt habove)

/-! ## Amounts -/

/-- The shares of all the liquidity, each rounded down. -/
def held (price a b L : Int) : Int × Int :=
  (⌊L * share0 (clamp price a b) b⌋, ⌊L * share1 a (clamp price a b)⌋)

theorem quotient_floor {den : Int} (h : 0 < den) (z : ℚ) : quotient ⌊z⌋ den = .ok ⌊z / den⌋ := by
  rw [quotient_of_pos h, Int.floor_div_cast_of_nonneg h.le]

theorem quotient_cast {den : Int} (h : 0 < den) (num : Int) : quotient num den = .ok ⌊(num : ℚ) / den⌋ := by
  have hfloor := quotient_floor h num
  rwa [Int.floor_intCast] at hfloor

theorem amount0_eq (ha : 0 < a) (hab : a < b) (L : Int) : amount0 a b L = .ok ⌊L * share0 a b⌋ := by
  have hb : 0 < b := by omega
  have ha' : (a : ℚ) ≠ 0 := by exact_mod_cast ha.ne'
  have hb' : (b : ℚ) ≠ 0 := by exact_mod_cast hb.ne'
  have hu := cast_unit_pos.ne'
  have hshare : (L : ℚ) * share0 a b = ((L * Tick.unit * (b - a) : Int) : ℚ) / b / a := by
    rw [share0, root, root]
    push_cast
    field_simp
  -- rounding before the second quotient makes no difference to what it rounds to
  simp only [amount0, ordered_of_lt hab, ok_bind, quotient_cast hb, quotient_floor ha, hshare]

theorem amount1_eq (hab : a < b) (L : Int) : amount1 a b L = .ok ⌊L * share1 a b⌋ := by
  have hshare : (L : ℚ) * share1 a b = ((L * (b - a) : Int) : ℚ) / Tick.unit := by
    rw [share1, root, root]
    push_cast
    ring
  simp only [amount1, ordered_of_lt hab, ok_bind, pure_eq_ok]
  rw [hshare, Int.floor_div_cast_of_nonneg unit_pos.le, Int.floor_intCast, Int.fdiv_eq_ediv_of_nonneg _ unit_pos.le]

theorem amounts_of_lt (hprice : 0 < price) (hab : a < b) (L : Int) :
    amounts price a b L = .ok (held price a b L) := by
  rw [amounts, ordered_of_lt hab, ok_bind, held]
  dsimp only
  by_cases hbelow : price ≤ a
  · rw [if_pos hbelow, clamp_below hab hbelow, amount0_eq (by omega) hab]
    simp
  rw [if_neg hbelow]
  have habove : a < price := Int.not_le.mp hbelow
  by_cases hwithin : price < b
  · rw [if_pos hwithin, clamp_within habove hwithin, amount0_eq hprice hwithin, amount1_eq habove]
    rfl
  · rw [if_neg hwithin, clamp_above hab (Int.not_lt.mp hwithin), amount1_eq hab]
    simp

theorem amounts_of_ne (hst : s ≠ t) (price L : Int) :
    amounts price s t L = amounts price (min s t) (max s t) L := by
  obtain ⟨hordered, hlt⟩ := ordered_of_ne hst
  rw [amounts, amounts, hordered, ordered_of_lt hlt]

theorem amounts_eq (hprice : 0 < price) (hst : s ≠ t) (L : Int) :
    amounts price s t L = .ok (held price (min s t) (max s t) L) := by
  rw [amounts_of_ne hst, amounts_of_lt hprice (ordered_of_ne hst).2]

/-! ## Prices that rise -/

theorem held_of_rise (hprice : 0 < price) (hrise : price ≤ price') (hab : a < b) (hL : 0 ≤ L) :
    (held price' a b L).1 ≤ (held price a b L).1 ∧ (held price a b L).2 ≤ (held price' a b L).2 := by
  have hL' : (0 : ℚ) ≤ L := by exact_mod_cast hL
  constructor
  · refine Int.floor_le_floor (mul_le_mul_of_nonneg_left ?_ hL')
    exact share0_anti (clamp_pos hprice hab) (clamp_mono hrise) (clamp_le hab)
  · refine Int.floor_le_floor (mul_le_mul_of_nonneg_left ?_ hL')
    exact share1_mono (clamp_mono hrise)

theorem held_mono (hprice : 0 < price) (hab : a < b) (h : L ≤ M) : held price a b L ≤ held price a b M := by
  have h' : (L : ℚ) ≤ M := by exact_mod_cast h
  constructor
  · refine Int.floor_le_floor (mul_le_mul_of_nonneg_right h' ?_)
    exact share0_nonneg (clamp_pos hprice hab) (clamp_le hab)
  · exact Int.floor_le_floor (mul_le_mul_of_nonneg_right h' (share1_nonneg le_clamp))

/-- **A position only trades token 0 for token 1 as the price rises**, wherever the two prices are, and more
liquidity holds no less of either. -/
theorem trades_one_way {price price' s t L L' : Int} (hprice : 0 < price) (hrise : price ≤ price') (hst : s ≠ t)
    (hL : 0 ≤ L) (hmore : L ≤ L') :
    ∃ before after more : Int × Int, amounts price s t L = .ok before ∧ amounts price' s t L = .ok after ∧
      amounts price s t L' = .ok more ∧ (after.1 ≤ before.1 ∧ before.2 ≤ after.2) ∧ before ≤ more := by
  have hab := (ordered_of_ne hst).2
  refine ⟨_, _, _, amounts_eq hprice hst L, amounts_eq (by omega) hst L, amounts_eq hprice hst L', ?_, ?_⟩
  · exact held_of_rise hprice hrise hab hL
  · exact held_mono hprice hab hmore

/-- From below the range into it, with the bounds given from above. -/
theorem some_trade : amounts Tick.unit (4 * Tick.unit) (2 * Tick.unit) 13 = .ok (3, 0) ∧
    amounts (3 * Tick.unit) (4 * Tick.unit) (2 * Tick.unit) 13 = .ok (1, 13) ∧
    amounts Tick.unit (4 * Tick.unit) (2 * Tick.unit) 16 = .ok (4, 0) ∧
    ((1 : Int) ≤ 3 ∧ (0 : Int) ≤ 13) ∧ ((3, 0) : Int × Int) ≤ (4, 0) := by
  obtain ⟨before, after, more, hbefore, hafter, hmore, htrade⟩ := @trades_one_way Tick.unit (3 * Tick.unit)
    (4 * Tick.unit) (2 * Tick.unit) 13 16 (by decide) (by decide) (by decide) (by decide) (by decide)
  have h : amounts Tick.unit (4 * Tick.unit) (2 * Tick.unit) 13 = .ok (3, 0) := eq_ok_of_isOk (by decide)
  have h' : amounts (3 * Tick.unit) (4 * Tick.unit) (2 * Tick.unit) 13 = .ok (1, 13) := eq_ok_of_isOk (by decide)
  have h'' : amounts Tick.unit (4 * Tick.unit) (2 * Tick.unit) 16 = .ok (4, 0) := eq_ok_of_isOk (by decide)
  obtain rfl := Except.ok.inj (hbefore.symm.trans h)
  obtain rfl := Except.ok.inj (hafter.symm.trans h')
  obtain rfl := Except.ok.inj (hmore.symm.trans h'')
  exact ⟨h, h', h'', htrade⟩

/-! ## Ranges that are split -/

theorem clamp_split (ham : a < m) (hmb : m < b) (price : Int) :
    clamp price a m = clamp price a b ∧ clamp price m b = m ∨
      clamp price a m = m ∧ clamp price m b = clamp price a b := by
  unfold clamp; omega

theorem share0_split (ham : a < m) (hmb : m < b) (price : Int) :
    share0 (clamp price a b) b = share0 (clamp price a m) m + share0 (clamp price m b) b := by
  -- one of the two parts of the range does not see the price, and is single-sided
  rcases clamp_split ham hmb price with ⟨hlow, hhigh⟩ | ⟨hlow, hhigh⟩
  · rw [hlow, hhigh, share0, share0, share0, sub_add_sub_cancel]
  · rw [hlow, hhigh, share0_self, zero_add]

theorem share1_split (ham : a < m) (hmb : m < b) (price : Int) :
    share1 a (clamp price a b) = share1 a (clamp price a m) + share1 m (clamp price m b) := by
  rcases clamp_split ham hmb price with ⟨hlow, hhigh⟩ | ⟨hlow, hhigh⟩
  · rw [hlow, hhigh, share1_self, add_zero]
  · rw [hlow, hhigh, share1, share1, share1, sub_add_sub_cancel']

theorem held_split (ham : a < m) (hmb : m < b) (price L : Int) :
    held price a m L + held price m b L ≤ held price a b L ∧
      held price a b L ≤ held price a m L + held price m b L + 1 := by
  unfold held
  rw [share0_split ham hmb, share1_split ham hmb, mul_add, mul_add]
  have h0 := Int.le_floor_add_floor (L * share0 (clamp price a m) m) (L * share0 (clamp price m b) b)
  have h1 := Int.le_floor_add_floor (L * share1 a (clamp price a m)) (L * share1 m (clamp price m b))
  exact ⟨⟨Int.le_floor_add _ _, Int.le_floor_add _ _⟩, sub_le_iff_le_add.mp h0, sub_le_iff_le_add.mp h1⟩

/-- **Splitting a range loses at most one unit of each token**, wherever the price is. -/
theorem split_loses_one {price a m b : Int} (hprice : 0 < price) (ham : a < m) (hmb : m < b) (L : Int) :
    ∃ low high whole : Int × Int, amounts price a m L = .ok low ∧ amounts price m b L = .ok high ∧
      amounts price a b L = .ok whole ∧ low + high ≤ whole ∧ whole ≤ low + high + 1 := by
  refine ⟨_, _, _, amounts_of_lt hprice ham L, amounts_of_lt hprice hmb L,
    amounts_of_lt hprice (ham.trans hmb) L, ?_⟩
  exact held_split ham hmb price L

/-- The two parts hold one unit of token 0 less than the whole. -/
theorem some_split : amounts Tick.unit (2 * Tick.unit) (3 * Tick.unit) 11 = .ok (1, 0) ∧
    amounts Tick.unit (3 * Tick.unit) (4 * Tick.unit) 11 = .ok (0, 0) ∧
    amounts Tick.unit (2 * Tick.unit) (4 * Tick.unit) 11 = .ok (2, 0) ∧
    ((1, 0) + (0, 0) : Int × Int) ≤ (2, 0) ∧ ((2, 0) : Int × Int) ≤ (1, 0) + (0, 0) + 1 := by
  obtain ⟨low, high, whole, hlow, hhigh, hwhole, hsplit⟩ :=
    @split_loses_one Tick.unit (2 * Tick.unit) (3 * Tick.unit)
    (4 * Tick.unit) (by decide) (by decide) (by decide) 11
  have h : amounts Tick.unit (2 * Tick.unit) (3 * Tick.unit) 11 = .ok (1, 0) := eq_ok_of_isOk (by decide)
  have h' : amounts Tick.unit (3 * Tick.unit) (4 * Tick.unit) 11 = .ok (0, 0) := eq_ok_of_isOk (by decide)
  have h'' : amounts Tick.unit (2 * Tick.unit) (4 * Tick.unit) 11 = .ok (2, 0) := eq_ok_of_isOk (by decide)
  obtain rfl := Except.ok.inj (hlow.symm.trans h)
  obtain rfl := Except.ok.inj (hhigh.symm.trans h')
  obtain rfl := Except.ok.inj (hwhole.symm.trans h'')
  exact ⟨h, h', h'', hsplit⟩

/-! ## Sizing and back -/

theorem Pays0.share_le (h : Pays0 p b x L) (hp : 0 < p ∨ p = b) (hpb : p ≤ b) (hx : 0 ≤ x) :
    L * share0 p b ≤ x := by
  rcases hp with hp | rfl
  · have hp' : (0 : ℚ) < p := by exact_mod_cast hp
    have hb' : (0 : ℚ) < b := by exact_mod_cast hp.trans_le hpb
    have hshare : L * share0 p b = L * Tick.unit * (b - p) / (p * b) := by
      rw [share0, root, root]
      field_simp
    rw [hshare, div_le_iff₀ (mul_pos hp' hb')]
    exact_mod_cast h
  · rw [share0_self, mul_zero]
    exact_mod_cast hx

theorem Pays1.share_le (h : Pays1 a p y L) : L * share1 a p ≤ y := by
  have hshare : L * share1 a p = L * (p - a) / Tick.unit := by
    rw [share1, root, root]
    ring
  rw [hshare, div_le_iff₀ cast_unit_pos]
  exact_mod_cast h

theorem floor_le_of_le {z : ℚ} {n : Int} (h : z ≤ n) : ⌊z⌋ ≤ n := Int.floor_le_iff.mpr (h.trans_lt (lt_add_one _))

namespace Paid

theorem share0_le (h : Paid price a b x y L) (hprice : 0 < price) (hab : a < b) (hx : 0 ≤ x) :
    L * share0 (clamp price a b) b ≤ x :=
  h.token0.share_le (clamp_pos hprice hab) (clamp_le hab) hx

theorem held_le (h : Paid price a b x y L) (hprice : 0 < price) (hab : a < b) (hx : 0 ≤ x) :
    held price a b L ≤ (x, y) :=
  ⟨floor_le_of_le (h.share0_le hprice hab hx), floor_le_of_le h.token1.share_le⟩

end Paid

theorem held_nonneg (hprice : 0 < price) (hab : a < b) (hL : 0 ≤ L) : 0 ≤ held price a b L := by
  have hL' : (0 : ℚ) ≤ L := by exact_mod_cast hL
  constructor
  · exact Int.floor_nonneg.mpr (mul_nonneg hL' (share0_nonneg (clamp_pos hprice hab) (clamp_le hab)))
  · exact Int.floor_nonneg.mpr (mul_nonneg hL' (share1_nonneg le_clamp))

theorem le_of_paid_held (h : Paid price a b (held price a b L).1 (held price a b L).2 M) (hprice : 0 < price)
    (hab : a < b) (hL : 0 ≤ L) : M ≤ L := by
  obtain ⟨hnonneg, -⟩ := held_nonneg hprice hab hL
  have h0 : M * share0 (clamp price a b) b ≤ L * share0 (clamp price a b) b :=
    (h.share0_le hprice hab hnonneg).trans (Int.floor_le _)
  have h1 : M * share1 a (clamp price a b) ≤ L * share1 a (clamp price a b) :=
    h.token1.share_le.trans (Int.floor_le _)
  -- one token may have no share in the liquidity, but then the other has
  rcases share_pos hprice hab with hpos | hpos
  · exact_mod_cast le_of_mul_le_mul_right h0 hpos
  · exact_mod_cast le_of_mul_le_mul_right h1 hpos

/-- **A position holds no more than it was sized for.** -/
theorem amounts_of_maxForRatios (h : maxForRatios price s t x y precision = .ok L) :
    0 ≤ L ∧ ∃ u v, amounts price s t L = .ok (u, v) ∧ 0 ≤ u ∧ u ≤ x ∧ 0 ≤ v ∧ v ≤ y := by
  obtain ⟨hprice, hst, hx, hy⟩ := wellPosed_of_maxForRatios h
  have hab := (ordered_of_ne hst).2
  have hpaid := paid_of_maxForRatios h
  obtain ⟨hnonneg0, hnonneg1⟩ := held_nonneg hprice hab hpaid.nonneg
  obtain ⟨hle0, hle1⟩ := hpaid.held_le hprice hab hx
  exact ⟨hpaid.nonneg, _, _, amounts_eq hprice hst L, hnonneg0, hle0, hnonneg1, hle1⟩

theorem amounts_of_maxForTicks {lower upper : Int} (h : maxForTicks lower upper price x y precision = .ok L) :
    0 ≤ L ∧ ∃ a b u v, Tick.sqrtRatio lower = .ok a ∧ Tick.sqrtRatio upper = .ok b ∧
      amounts price a b L = .ok (u, v) ∧ 0 ≤ u ∧ u ≤ x ∧ 0 ≤ v ∧ v ≤ y := by
  obtain ⟨a, ha, h⟩ := bind_eq_ok.mp h
  obtain ⟨b, hb, h⟩ := bind_eq_ok.mp h
  obtain ⟨hL, u, v, hamounts⟩ := amounts_of_maxForRatios h
  exact ⟨hL, a, b, u, v, ha, hb, hamounts⟩

/-- **Sizing and its inverse never create value**, with either precision. What is sized for two amounts holds no
more than they are, and what a liquidity holds sizes to no more than it. -/
theorem never_creates_value {price s t : Int} (hprice : 0 < price) (hst : s ≠ t) (precision : Precision) :
    (∀ x y : Int, 0 ≤ x → 0 ≤ y → ∃ L u v, maxForRatios price s t x y precision = .ok L ∧
      amounts price s t L = .ok (u, v) ∧ (0 ≤ u ∧ u ≤ x) ∧ 0 ≤ v ∧ v ≤ y) ∧
    ∀ L : Int, 0 ≤ L → ∃ u v M, amounts price s t L = .ok (u, v) ∧
      maxForRatios price s t u v precision = .ok M ∧ 0 ≤ M ∧ M ≤ L := by
  have hab := (ordered_of_ne hst).2
  constructor
  · intro x y hx hy
    obtain ⟨L, hL, -⟩ := exists_paid hprice hab hx hy precision
    rw [← maxForRatios_of_ne hst] at hL
    obtain ⟨-, u, v, hamounts, hu, hux, hv⟩ := amounts_of_maxForRatios hL
    exact ⟨L, u, v, hL, hamounts, ⟨hu, hux⟩, hv⟩
  · intro L hL
    obtain ⟨hu, hv⟩ := held_nonneg hprice hab hL
    obtain ⟨M, hM, hpaid⟩ := exists_paid hprice hab hu hv precision
    rw [← maxForRatios_of_ne hst] at hM
    exact ⟨_, _, M, amounts_eq hprice hst L, hM, hpaid.nonneg, le_of_paid_held hpaid hprice hab hL⟩

/-- Inside a range, 12 is sized for amounts that it holds, and what 13 holds sizes to 12 again. -/
theorem some_sized_back :
    (maxForRatios (3 * Tick.unit) (4 * Tick.unit) (2 * Tick.unit) 1 100 .early = .ok 12 ∧
      ∃ u v, amounts (3 * Tick.unit) (4 * Tick.unit) (2 * Tick.unit) 12 = .ok (u, v) ∧
        (0 ≤ u ∧ u ≤ 1) ∧ 0 ≤ v ∧ v ≤ 100) ∧
    amounts (3 * Tick.unit) (4 * Tick.unit) (2 * Tick.unit) 13 = .ok (1, 13) ∧
      ∃ M, maxForRatios (3 * Tick.unit) (4 * Tick.unit) (2 * Tick.unit) 1 13 .early = .ok M ∧ 0 ≤ M ∧ M ≤ 13 := by
  obtain ⟨hsized, hback⟩ := @never_creates_value (3 * Tick.unit) (4 * Tick.unit) (2 * Tick.unit) (by decide)
    (by decide) .early
  have h : maxForRatios (3 * Tick.unit) (4 * Tick.unit) (2 * Tick.unit) 1 100 .early = .ok 12 :=
    eq_ok_of_isOk (by decide)
  have h' : amounts (3 * Tick.unit) (4 * Tick.unit) (2 * Tick.unit) 13 = .ok (1, 13) := eq_ok_of_isOk (by decide)
  obtain ⟨L, u, v, hL, hamounts⟩ := hsized 1 100 (by decide) (by decide)
  obtain rfl := Except.ok.inj (hL.symm.trans h)
  obtain ⟨u', v', M, hheld, hM⟩ := hback 13 (by decide)
  obtain ⟨rfl, rfl⟩ := Prod.mk.inj (Except.ok.inj (hheld.symm.trans h'))
  exact ⟨⟨h, u, v, hamounts⟩, h', M, hM⟩

end DefiActions.Liquidity
