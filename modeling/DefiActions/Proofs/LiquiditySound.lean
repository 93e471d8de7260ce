import DefiActions.Liquidity
import DefiActions.Proofs.ExceptLemmas
import Mathlib.Algebra.Order.Ring.Int

/-!
# Sized liquidity

The liquidity of an amount is rounded down, with either precision. A price
outside the range counts as the bound next to it, and with that the two amounts
pay for what is sized in each of the three regions of the price. With the full
product the liquidities up to the one that is computed are the feasible ones.
-/

namespace DefiActions.Liquidity

theorem unit_pos : 0 < Tick.unit := by decide

/-! ## Quotients and bounds -/

theorem quotient_of_pos {num den : Int} (h : 0 < den) : quotient num den = .ok (num / den) := by
  rw [quotient, if_neg (Int.ne_of_gt h), Int.fdiv_eq_ediv_of_nonneg num (Int.le_of_lt h)]

theorem ordered_of_lt {a b : Int} (h : a < b) : ordered a b = .ok (a, b) := by
  rw [ordered, if_neg (by omega), if_neg (by omega)]

theorem ordered_of_ne {s t : Int} (h : s ≠ t) : ordered s t = .ok (min s t, max s t) ∧ min s t < max s t := by
  rcases Int.lt_or_gt_of_ne h with hlt | hgt
  · rw [Int.min_eq_left (Int.le_of_lt hlt), Int.max_eq_right (Int.le_of_lt hlt)]
    exact ⟨ordered_of_lt hlt, hlt⟩
  · rw [Int.min_eq_right (Int.le_of_lt hgt), Int.max_eq_left (Int.le_of_lt hgt), ordered, if_pos hgt]
    exact ⟨rfl, hgt⟩

section

variable {a b x y L : Int}

/-! ## From amounts to liquidity -/

def Pays0 (a b x L : Int) : Prop := L * Tick.unit * (b - a) ≤ x * (a * b)

def Pays1 (a b y L : Int) : Prop := L * (b - a) ≤ y * Tick.unit

theorem Pays0.mono {K : Int} (hab : a < b) (h : Pays0 a b x L) (hK : K ≤ L) : Pays0 a b x K := by
  have hu := unit_pos
  have hprod : 0 ≤ Tick.unit * (b - a) := Int.mul_nonneg (by omega) (by omega)
  have hle := Int.mul_le_mul_of_nonneg_right hK hprod
  unfold Pays0 at h ⊢
  rw [Int.mul_assoc] at h ⊢
  exact Int.le_trans hle h

theorem Pays1.mono {K : Int} (hab : a < b) (h : Pays1 a b y L) (hK : K ≤ L) : Pays1 a b y K :=
  Int.le_trans (Int.mul_le_mul_of_nonneg_right hK (by omega)) h

theorem exists_forAmount0 (ha : 0 < a) (hab : a < b) (hx : 0 ≤ x) (precision : Precision) :
    ∃ L, forAmount0 a b x precision = .ok L ∧ 0 ≤ L ∧ Pays0 a b x L := by
  have hu := unit_pos
  have hd : 0 < b - a := by omega
  have hp : 0 ≤ a * b := Int.mul_nonneg (by omega) (by omega)
  simp only [forAmount0, ordered_of_lt hab, ok_bind]
  cases precision with
  | full =>
    have hden : 0 < Tick.unit * (b - a) := Int.mul_pos hu hd
    have hnum : 0 ≤ x * a * b := Int.mul_nonneg (Int.mul_nonneg hx (by omega)) (by omega)
    have hle := Int.ediv_mul_le (x * a * b) (Int.ne_of_gt hden)
    refine ⟨_, quotient_of_pos hden, Int.ediv_nonneg hnum (by omega), ?_⟩
    rw [Pays0, Int.mul_assoc, ← Int.mul_assoc x a b]
    exact hle
  | early =>
    -- One division comes before the product, and what it drops is to the bad of the liquidity.
    rw [Int.fdiv_eq_ediv_of_nonneg _ (Int.le_of_lt hu)]
    have hq : 0 ≤ a * b / Tick.unit := Int.ediv_nonneg hp (by omega)
    have hunit := Int.ediv_mul_le (a * b) (Int.ne_of_gt hu)
    have hle := Int.ediv_mul_le (x * (a * b / Tick.unit)) (Int.ne_of_gt hd)
    refine ⟨_, quotient_of_pos hd, Int.ediv_nonneg (Int.mul_nonneg hx hq) (by omega), ?_⟩
    unfold Pays0
    generalize x * (a * b / Tick.unit) / (b - a) = L at hle ⊢
    calc L * Tick.unit * (b - a) = L * (b - a) * Tick.unit := Int.mul_right_comm L Tick.unit (b - a)
      _ ≤ x * (a * b / Tick.unit) * Tick.unit := Int.mul_le_mul_of_nonneg_right hle (by omega)
      _ = x * ((a * b / Tick.unit) * Tick.unit) := Int.mul_assoc ..
      _ ≤ x * (a * b) := Int.mul_le_mul_of_nonneg_left hunit hx

theorem exists_forAmount1 (hab : a < b) (hy : 0 ≤ y) :
    ∃ L, forAmount1 a b y = .ok L ∧ 0 ≤ L ∧ Pays1 a b y L := by
  have hu := unit_pos
  have hd : 0 < b - a := by omega
  simp only [forAmount1, ordered_of_lt hab, ok_bind]
  exact ⟨_, quotient_of_pos hd, Int.ediv_nonneg (Int.mul_nonneg hy (by omega)) (by omega),
    Int.ediv_mul_le _ (Int.ne_of_gt hd)⟩

/-! ## Both tokens -/

/-- The price at which a position stands: outside its range, the bound next to the price. -/
def clamp (price a b : Int) : Int := max a (min price b)

theorem clamp_below {price : Int} (hab : a < b) (h : price ≤ a) : clamp price a b = a := by unfold clamp; omega

theorem clamp_within {price : Int} (h : a < price) (h' : price < b) : clamp price a b = price := by
  unfold clamp; omega

theorem clamp_above {price : Int} (hab : a < b) (h : b ≤ price) : clamp price a b = b := by unfold clamp; omega

/-- The two amounts pay for a liquidity, each for the side of the price that it is on. -/
structure Paid (price a b x y L : Int) : Prop where
  nonneg : 0 ≤ L
  token0 : Pays0 (clamp price a b) b x L
  token1 : Pays1 a (clamp price a b) y L

theorem pays0_self (hx : 0 ≤ x) (L : Int) : Pays0 b b x L := by
  unfold Pays0
  rw [Int.sub_self, Int.mul_zero]
  exact Int.mul_nonneg hx (mul_self_nonneg b)

theorem pays1_self (hy : 0 ≤ y) (L : Int) : Pays1 a a y L := by
  unfold Pays1
  rw [Int.sub_self, Int.mul_zero]
  exact Int.mul_nonneg hy (Int.le_of_lt unit_pos)

variable {price s t : Int} {precision : Precision}

theorem maxForRatios_of_lt (hprice : 0 < price) (hab : a < b) (hx : 0 ≤ x) (hy : 0 ≤ y) (precision : Precision) :
    maxForRatios price a b x y precision =
      if price ≤ a then forAmount0 a b x precision
      else if price < b then do
        let liquidity0 ← forAmount0 price b x precision
        let liquidity1 ← forAmount1 a price y
        return min liquidity0 liquidity1
      else forAmount1 a b y := by
  rw [maxForRatios, if_neg (by omega), if_neg (by omega), ordered_of_lt hab, ok_bind]

theorem maxForRatios_of_ne (hst : s ≠ t) (price x y : Int) (precision : Precision) :
    maxForRatios price s t x y precision = maxForRatios price (min s t) (max s t) x y precision := by
  obtain ⟨hordered, hlt⟩ := ordered_of_ne hst
  rw [maxForRatios, maxForRatios, hordered, ordered_of_lt hlt]

/-- Sizing never fails, and what it comes to is paid for. -/
theorem exists_paid (hprice : 0 < price) (hab : a < b) (hx : 0 ≤ x) (hy : 0 ≤ y) (precision : Precision) :
    ∃ L, maxForRatios price a b x y precision = .ok L ∧ Paid price a b x y L := by
  rw [maxForRatios_of_lt hprice hab hx hy]
  by_cases hbelow : price ≤ a
  · obtain ⟨L, hL, hnonneg, hpays⟩ := exists_forAmount0 (by omega) hab hx precision
    rw [if_pos hbelow]
    refine ⟨L, hL, hnonneg, ?_, ?_⟩
    · rwa [clamp_below hab hbelow]
    · rw [clamp_below hab hbelow]
      exact pays1_self hy L
  rw [if_neg hbelow]
  have habove : a < price := Int.not_le.mp hbelow
  by_cases hwithin : price < b
  · obtain ⟨L0, h0, hL0, hpays0⟩ := exists_forAmount0 hprice hwithin hx precision
    obtain ⟨L1, h1, hL1, hpays1⟩ := exists_forAmount1 habove hy
    rw [if_pos hwithin, h0, h1]
    -- each amount pays for a liquidity of its own, and so for the smaller of the two
    refine ⟨min L0 L1, rfl, by omega, ?_, ?_⟩
    · rw [clamp_within habove hwithin]
      exact hpays0.mono hwithin (Int.min_le_left _ _)
    · rw [clamp_within habove hwithin]
      exact hpays1.mono habove (Int.min_le_right _ _)
  · obtain ⟨L, hL, hnonneg, hpays⟩ := exists_forAmount1 hab hy
    have hbeyond : b ≤ price := Int.not_lt.mp hwithin
    rw [if_neg hwithin]
    refine ⟨L, hL, hnonneg, ?_, ?_⟩
    · rw [clamp_above hab hbeyond]
      exact pays0_self hx L
    · rwa [clamp_above hab hbeyond]

theorem wellPosed_of_maxForRatios (h : maxForRatios price s t x y precision = .ok L) :
    0 < price ∧ s ≠ t ∧ 0 ≤ x ∧ 0 ≤ y := by
  unfold maxForRatios at h
  split at h
  · exact absurd h refuse_ne_ok
  split at h
  · exact absurd h refuse_ne_ok
  refine ⟨by omega, ?_, by omega⟩
  intro hst
  subst hst
  rw [ordered, if_neg (Int.lt_irrefl s), if_pos rfl] at h
  exact absurd h nofun

theorem paid_of_maxForRatios (h : maxForRatios price s t x y precision = .ok L) :
    Paid price (min s t) (max s t) x y L := by
  obtain ⟨hprice, hst, hx, hy⟩ := wellPosed_of_maxForRatios h
  obtain ⟨L', hL', hpaid⟩ := exists_paid hprice (ordered_of_ne hst).2 hx hy precision
  rw [maxForRatios_of_ne hst] at h
  obtain rfl := Except.ok.inj (h.symm.trans hL')
  exact hpaid

end

end DefiActions.Liquidity

namespace DefiActions.Liquidity

/-! ## Feasible liquidity

A liquidity is feasible when the exact amounts that it takes up, before any
rounding, are there. -/

variable {a b x y price : Int}

theorem le_quotient_iff {num den : Int} (h : 0 < den) :
    ∃ m, quotient num den = .ok m ∧ ∀ L, L ≤ m ↔ L * den ≤ num :=
  ⟨num / den, quotient_of_pos h, fun _ => Int.le_ediv_iff_mul_le h⟩

theorem le_forAmount0_iff (hab : a < b) (x : Int) :
    ∃ m, forAmount0 a b x .full = .ok m ∧ ∀ L, L ≤ m ↔ Pays0 a b x L := by
  have hden : 0 < Tick.unit * (b - a) := Int.mul_pos unit_pos (by omega)
  obtain ⟨m, hm, hle⟩ := @le_quotient_iff (x * a * b) _ hden
  refine ⟨m, ?_, fun L => ?_⟩
  · simp only [forAmount0, ordered_of_lt hab, ok_bind, hm]
  · rw [hle, Pays0, Int.mul_assoc L, Int.mul_assoc x]

theorem le_forAmount1_iff (hab : a < b) (y : Int) :
    ∃ m, forAmount1 a b y = .ok m ∧ ∀ L, L ≤ m ↔ Pays1 a b y L := by
  have hden : 0 < b - a := by omega
  obtain ⟨m, hm, hle⟩ := @le_quotient_iff (y * Tick.unit) _ hden
  refine ⟨m, ?_, hle⟩
  simp only [forAmount1, ordered_of_lt hab, ok_bind, hm]

/-- The amounts are enough for the liquidity at the price: one of them outside the range, both inside it. -/
structure Feasible (price a b x y L : Int) : Prop where
  below : price ≤ a → Pays0 a b x L
  within : a < price → price < b → Pays0 price b x L ∧ Pays1 a price y L
  above : b ≤ price → Pays1 a b y L

theorem feasible_below (hab : a < b) (h : price ≤ a) (x y L : Int) : Feasible price a b x y L ↔ Pays0 a b x L :=
  ⟨fun hf => hf.below h, fun hp => ⟨fun _ => hp, fun _ _ => by omega, fun _ => by omega⟩⟩

theorem feasible_within (h : a < price) (h' : price < b) (x y L : Int) :
    Feasible price a b x y L ↔ Pays0 price b x L ∧ Pays1 a price y L :=
  ⟨fun hf => hf.within h h', fun hp => ⟨fun _ => by omega, fun _ _ => hp, fun _ => by omega⟩⟩

theorem feasible_above (hab : a < b) (h : b ≤ price) (x y L : Int) : Feasible price a b x y L ↔ Pays1 a b y L :=
  ⟨fun hf => hf.above h, fun hp => ⟨fun _ => by omega, fun _ _ => by omega, fun _ => hp⟩⟩

/-- **The computed liquidity is the greatest feasible one**,
whatever the order of the bounds and wherever the price is. -/
theorem le_maxForRatios_iff {s t : Int} (hprice : 0 < price) (hst : s ≠ t) (hx : 0 ≤ x) (hy : 0 ≤ y) :
    ∃ m, maxForRatios price s t x y .full = .ok m ∧ ∀ L, L ≤ m ↔ Feasible price (min s t) (max s t) x y L := by
  obtain ⟨hordered, hab⟩ := ordered_of_ne hst
  rw [maxForRatios, if_neg (by omega), if_neg (by omega), hordered, ok_bind]
  generalize min s t = a at *
  generalize max s t = b at *
  dsimp only
  by_cases hbelow : price ≤ a
  · rw [if_pos hbelow]
    simp only [feasible_below hab hbelow]
    exact le_forAmount0_iff hab x
  rw [if_neg hbelow]
  have ha : a < price := Int.not_le.mp hbelow
  by_cases hwithin : price < b
  · rw [if_pos hwithin]
    obtain ⟨m₀, h₀, hle₀⟩ := le_forAmount0_iff hwithin x
    obtain ⟨m₁, h₁, hle₁⟩ := le_forAmount1_iff ha y
    rw [h₀, h₁]
    refine ⟨min m₀ m₁, rfl, fun L => ?_⟩
    rw [feasible_within ha hwithin, Int.le_min, hle₀, hle₁]
  · rw [if_neg hwithin]
    simp only [feasible_above hab (Int.not_lt.mp hwithin)]
    exact le_forAmount1_iff hab y

/-- Inside a range whose bounds are given from above, token 0 limits the liquidity to 12, and 13 is one too many. -/
theorem some_greatest : maxForRatios (3 * Tick.unit) (4 * Tick.unit) (2 * Tick.unit) 1 100 .full = .ok 12 ∧
    Feasible (3 * Tick.unit) (2 * Tick.unit) (4 * Tick.unit) 1 100 12 ∧
    ¬ Feasible (3 * Tick.unit) (2 * Tick.unit) (4 * Tick.unit) 1 100 13 := by
  obtain ⟨m, hm, hle⟩ := @le_maxForRatios_iff 1 100 (3 * Tick.unit) (4 * Tick.unit) (2 * Tick.unit) (by decide)
    (by decide) (by decide) (by decide)
  have hcomputed : maxForRatios (3 * Tick.unit) (4 * Tick.unit) (2 * Tick.unit) 1 100 .full = .ok 12 :=
    eq_ok_of_isOk (by decide)
  obtain rfl := Except.ok.inj (hm.symm.trans hcomputed)
  exact ⟨hcomputed, (hle 12).mp (Int.le_refl 12), fun h => absurd ((hle 13).mpr h) (by decide)⟩

end DefiActions.Liquidity
