import DefiActions.Proofs.HoldingSound
import Mathlib.Tactic.Linarith

/-!
# The cost of an early division

The product of the two prices is divided by the unit either last or first. What
the early division drops is less than one before the amount multiplies it and
the width of the range divides it, so that the two liquidities are that much
apart at most.
-/

namespace DefiActions.Liquidity

variable {price a b s t x y : Int}

/-! ## Rates -/

def rate0 (a b : Int) : Precision → ℚ
  | .full => ((a * b : Int) / Tick.unit : ℚ) / (b - a : Int)
  | .early => (⌊((a * b : Int) / Tick.unit : ℚ)⌋ : ℚ) / (b - a : Int)

def rate1 (a b : Int) : ℚ := Tick.unit / (b - a : Int)

theorem forAmount0_eq (hab : a < b) (x : Int) (precision : Precision) :
    forAmount0 a b x precision = .ok ⌊x * rate0 a b precision⌋ := by
  have hd : 0 < b - a := by omega
  simp only [forAmount0, ordered_of_lt hab, ok_bind]
  cases precision with
  | full =>
    have hrate : (x : ℚ) * rate0 a b .full = (x * a * b : Int) / (Tick.unit * (b - a) : Int) := by
      rw [rate0]
      push_cast
      rw [div_div, mul_div_assoc', mul_assoc]
    rw [quotient_cast (Int.mul_pos unit_pos hd), hrate]
  | early =>
    rw [quotient_cast hd, rate0, Int.floor_div_cast_of_nonneg unit_pos.le, Int.floor_intCast,
      Int.fdiv_eq_ediv_of_nonneg _ unit_pos.le, Int.cast_mul, mul_div_assoc]

theorem forAmount1_eq (hab : a < b) (y : Int) : forAmount1 a b y = .ok ⌊y * rate1 a b⌋ := by
  have hd : 0 < b - a := by omega
  simp only [forAmount1, ordered_of_lt hab, ok_bind]
  rw [quotient_cast hd, rate1, Int.cast_mul, mul_div_assoc]

theorem rate0_near (hab : a < b) :
    rate0 a b .early ≤ rate0 a b .full ∧ rate0 a b .full ≤ rate0 a b .early + 1 / (b - a : Int) := by
  have hd : (0 : ℚ) ≤ (b - a : Int) := by exact_mod_cast (Int.sub_pos.mpr hab).le
  unfold rate0
  rw [← add_div]
  exact ⟨div_le_div_of_nonneg_right (Int.floor_le _) hd, div_le_div_of_nonneg_right (Int.lt_floor_add_one _).le hd⟩

/-! ## One token -/

theorem floor_sub_le_ceil {z w d : ℚ} (h : w ≤ z + d) : ⌊w⌋ - ⌊z⌋ ≤ ⌈d⌉ := by
  have hw := Int.floor_le w
  have hz := Int.lt_floor_add_one z
  have hd := Int.le_ceil d
  have hlt : (⌊w⌋ : ℚ) < ⌊z⌋ + 1 + ⌈d⌉ := by linarith
  have hlt' : ⌊w⌋ < ⌊z⌋ + 1 + ⌈d⌉ := by exact_mod_cast hlt
  omega

/-- The early liquidity is the smaller one, by no more than the amount over the width. -/
theorem exists_near (hab : a < b) (hx : 0 ≤ x) :
    ∃ full early, forAmount0 a b x .full = .ok full ∧ forAmount0 a b x .early = .ok early ∧
      early ≤ full ∧ full - early ≤ ⌈(x / (b - a : Int) : ℚ)⌉ := by
  have hx' : (0 : ℚ) ≤ x := by exact_mod_cast hx
  obtain ⟨hle, hgap⟩ := rate0_near hab
  refine ⟨_, _, forAmount0_eq hab x .full, forAmount0_eq hab x .early, ?_, ?_⟩
  · exact Int.floor_le_floor (mul_le_mul_of_nonneg_left hle hx')
  · refine floor_sub_le_ceil ?_
    calc x * rate0 a b .full ≤ x * (rate0 a b .early + 1 / (b - a : Int)) := mul_le_mul_of_nonneg_left hgap hx'
      _ = x * rate0 a b .early + x / (b - a : Int) := by rw [mul_add, mul_one_div]

/-! ## Both tokens -/

theorem exists_sized_near (hprice : 0 < price) (hab : a < b) (hx : 0 ≤ x) (hy : 0 ≤ y) (h : price < b) :
    ∃ full early, maxForRatios price a b x y .full = .ok full ∧ maxForRatios price a b x y .early = .ok early ∧
      early ≤ full ∧ full - early ≤ ⌈(x / (b - max price a : Int) : ℚ)⌉ := by
  rw [maxForRatios_of_lt hprice hab hx hy, maxForRatios_of_lt hprice hab hx hy]
  by_cases hbelow : price ≤ a
  · rw [if_pos hbelow, if_pos hbelow, max_eq_right hbelow]
    exact exists_near hab hx
  · have habove : a < price := Int.not_le.mp hbelow
    rw [if_neg hbelow, if_neg hbelow, if_pos h, if_pos h, max_eq_left habove.le]
    obtain ⟨full, early, hfull, hearly, hle, hgap⟩ := exists_near h hx
    obtain ⟨other, hother, -⟩ := exists_forAmount1 habove hy
    rw [hfull, hearly, hother]
    -- the other token can only bring the two liquidities closer
    exact ⟨min full other, min early other, rfl, rfl, by omega, by omega⟩

theorem exists_sized_alike (hprice : 0 < price) (hab : a < b) (hx : 0 ≤ x) (hy : 0 ≤ y) (h : b ≤ price) :
    ∃ L, maxForRatios price a b x y .full = .ok L ∧ maxForRatios price a b x y .early = .ok L := by
  obtain ⟨L, hL, -⟩ := exists_forAmount1 hab hy
  rw [maxForRatios_of_lt hprice hab hx hy, maxForRatios_of_lt hprice hab hx hy]
  simp only [if_neg (show ¬ price ≤ a by omega), if_neg (show ¬ price < b by omega)]
  exact ⟨L, hL, hL⟩

/-- **An early division costs little.** The liquidity that it gives is never
the greater one. It falls short by no more than the amount of token 0 over
what is left of the range, and not at all where token 0 does not count. -/
theorem early_near_full {price s t x y : Int} (hprice : 0 < price) (hst : s ≠ t) (hx : 0 ≤ x) (hy : 0 ≤ y) :
    ∃ full early, maxForRatios price s t x y .full = .ok full ∧ maxForRatios price s t x y .early = .ok early ∧
      early ≤ full ∧
      (max price (min s t) < max s t → full - early ≤ ⌈(x / (max s t - max price (min s t) : Int) : ℚ)⌉) ∧
      (max s t ≤ price ∨ x = 0 → full = early) := by
  have hab := (ordered_of_ne hst).2
  simp only [maxForRatios_of_ne hst]
  generalize min s t = a at *
  generalize max s t = b at *
  by_cases h : price < b
  · obtain ⟨full, early, hfull, hearly, hle, hgap⟩ := exists_sized_near hprice hab hx hy h
    refine ⟨full, early, hfull, hearly, hle, fun _ => hgap, ?_⟩
    rintro (hbeyond | rfl)
    · omega
    · rw [Int.cast_zero, zero_div, Int.ceil_zero] at hgap
      omega
  · obtain ⟨L, hfull, hearly⟩ := exists_sized_alike hprice hab hx hy (Int.not_lt.mp h)
    refine ⟨L, L, hfull, hearly, Int.le_refl L, ?_, fun _ => rfl⟩
    intro hleft
    omega

/-- Next to one, the early division costs 4 of the 5 that it may. -/
theorem some_near :
    maxForRatios (Tick.unit - 1) (Tick.unit + 1) 1 10 (10 * Tick.unit) .full = .ok (5 * Tick.unit - 1) ∧
    maxForRatios (Tick.unit - 1) (Tick.unit + 1) 1 10 (10 * Tick.unit) .early = .ok (5 * Tick.unit - 5) ∧
    5 * Tick.unit - 1 - (5 * Tick.unit - 5) ≤ ⌈((10 : Int) / (2 : Int) : ℚ)⌉ := by
  obtain ⟨full, early, hfull, hearly, -, hgap, -⟩ := @early_near_full (Tick.unit - 1) (Tick.unit + 1) 1 10
    (10 * Tick.unit) (by decide) (by decide) (by decide) (by decide)
  have h : maxForRatios (Tick.unit - 1) (Tick.unit + 1) 1 10 (10 * Tick.unit) .full = .ok (5 * Tick.unit - 1) :=
    eq_ok_of_isOk (by decide)
  have h' : maxForRatios (Tick.unit - 1) (Tick.unit + 1) 1 10 (10 * Tick.unit) .early = .ok (5 * Tick.unit - 5) :=
    eq_ok_of_isOk (by decide)
  have hwidth : max (Tick.unit + 1) 1 - max (Tick.unit - 1) (min (Tick.unit + 1) 1) = 2 := by decide
  obtain rfl := Except.ok.inj (hfull.symm.trans h)
  obtain rfl := Except.ok.inj (hearly.symm.trans h')
  rw [hwidth] at hgap
  exact ⟨h, h', hgap (by decide)⟩

end DefiActions.Liquidity
