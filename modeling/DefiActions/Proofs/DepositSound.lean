import DefiActions.Proofs.PrecisionSound
import Mathlib.Algebra.Group.Prod

/-!
# Deposits that are split

At a given price each token gives liquidity at a rate of its own, whichever
precision sets it, and what an amount gives is rounded down once. The parts of a
deposit are rounded down one by one, and the token that is short in one part
need not be short in the other, so that together they give no more than the
whole.
-/

namespace DefiActions.Liquidity

variable {price a b s t : Int} {precision : Precision}

/-! ## Deposits -/

/-- What a deposit of the two tokens gives: inside the range, what the one that is short gives. -/
def sized (price a b : Int) (precision : Precision) (d : Int × Int) : Int :=
  if price ≤ a then ⌊d.1 * rate0 a b precision⌋
  else if price < b then min ⌊d.1 * rate0 price b precision⌋ ⌊d.2 * rate1 a price⌋
  else ⌊d.2 * rate1 a b⌋

theorem maxForRatios_eq_sized (hprice : 0 < price) (hab : a < b) (precision : Precision) {d : Int × Int}
    (hd : 0 ≤ d) :
    maxForRatios price a b d.1 d.2 precision = .ok (sized price a b precision d) := by
  rw [maxForRatios_of_lt hprice hab hd.1 hd.2, sized]
  by_cases hbelow : price ≤ a
  · rw [if_pos hbelow, if_pos hbelow, forAmount0_eq hab]
  rw [if_neg hbelow, if_neg hbelow]
  by_cases hwithin : price < b
  · rw [if_pos hwithin, if_pos hwithin, forAmount0_eq hwithin, forAmount1_eq (Int.not_le.mp hbelow)]
    rfl
  · rw [if_neg hwithin, if_neg hwithin, forAmount1_eq hab]

theorem floor_add_le (m n : Int) (r : ℚ) : ⌊m * r⌋ + ⌊n * r⌋ ≤ ⌊(m + n : Int) * r⌋ := by
  rw [Int.cast_add, add_mul]
  exact Int.le_floor_add _ _

theorem sized_add_le (price a b : Int) (precision : Precision) (d e : Int × Int) :
    sized price a b precision d + sized price a b precision e ≤ sized price a b precision (d + e) := by
  have h0 : ∀ r : ℚ, ⌊d.1 * r⌋ + ⌊e.1 * r⌋ ≤ ⌊(d + e).1 * r⌋ := floor_add_le d.1 e.1
  have h1 : ∀ r : ℚ, ⌊d.2 * r⌋ + ⌊e.2 * r⌋ ≤ ⌊(d + e).2 * r⌋ := floor_add_le d.2 e.2
  unfold sized
  by_cases hbelow : price ≤ a
  · simp only [if_pos hbelow]
    exact h0 _
  by_cases hwithin : price < b
  · simp only [if_neg hbelow, if_pos hwithin]
    -- what a part gives is no more than what either of its tokens gives
    exact le_min ((add_le_add (min_le_left _ _) (min_le_left _ _)).trans (h0 _))
      ((add_le_add (min_le_right _ _) (min_le_right _ _)).trans (h1 _))
  · simp only [if_neg hbelow, if_neg hwithin]
    exact h1 _

theorem sized_nonneg (hprice : 0 < price) (hab : a < b) (precision : Precision) {d : Int × Int} (hd : 0 ≤ d) :
    0 ≤ sized price a b precision d :=
  (paid_of_maxForRatios (maxForRatios_eq_sized hprice hab precision hd)).nonneg

theorem sized_mono (hprice : 0 < price) (hab : a < b) (precision : Precision) {d e : Int × Int} (h : d ≤ e) :
    sized price a b precision d ≤ sized price a b precision e := by
  -- what a deposit is increased by is a deposit of its own
  have hrest : 0 ≤ e - d := ⟨sub_nonneg.mpr h.1, sub_nonneg.mpr h.2⟩
  have hmore := sized_nonneg hprice hab precision hrest
  have hadd := sized_add_le price a b precision d (e - d)
  rw [add_sub_cancel] at hadd
  omega

theorem maxForRatios_eq (hprice : 0 < price) (hst : s ≠ t) (precision : Precision) {x y : Int} (hx : 0 ≤ x)
    (hy : 0 ≤ y) :
    maxForRatios price s t x y precision = .ok (sized price (min s t) (max s t) precision (x, y)) := by
  have hd : (0 : Int × Int) ≤ (x, y) := ⟨hx, hy⟩
  rw [maxForRatios_of_ne hst]
  exact maxForRatios_eq_sized hprice (ordered_of_ne hst).2 precision hd

/-- **Splitting a deposit never yields more liquidity**, with either
precision, and depositing more of a token never yields less. -/
theorem split_deposit_le {price s t : Int} (hprice : 0 < price) (hst : s ≠ t) (precision : Precision) :
    (∀ x₀ x₁ y₀ y₁ : Int, 0 ≤ x₀ → 0 ≤ x₁ → 0 ≤ y₀ → 0 ≤ y₁ → ∃ first second whole,
      maxForRatios price s t x₀ x₁ precision = .ok first ∧ maxForRatios price s t y₀ y₁ precision = .ok second ∧
      maxForRatios price s t (x₀ + y₀) (x₁ + y₁) precision = .ok whole ∧ first + second ≤ whole) ∧
    ∀ x₀ x₁ y₀ y₁ : Int, 0 ≤ x₀ → 0 ≤ x₁ → x₀ ≤ y₀ → x₁ ≤ y₁ → ∃ less more,
      maxForRatios price s t x₀ x₁ precision = .ok less ∧ maxForRatios price s t y₀ y₁ precision = .ok more ∧
      less ≤ more := by
  constructor
  · intro x₀ x₁ y₀ y₁ hx₀ hx₁ hy₀ hy₁
    refine ⟨_, _, _, maxForRatios_eq hprice hst precision hx₀ hx₁, maxForRatios_eq hprice hst precision hy₀ hy₁,
      maxForRatios_eq hprice hst precision (by omega) (by omega), ?_⟩
    exact sized_add_le _ _ _ precision (x₀, x₁) (y₀, y₁)
  · intro x₀ x₁ y₀ y₁ hx₀ hx₁ h₀ h₁
    refine ⟨_, _, maxForRatios_eq hprice hst precision hx₀ hx₁,
      maxForRatios_eq hprice hst precision (by omega) (by omega), ?_⟩
    exact sized_mono hprice (ordered_of_ne hst).2 precision ⟨h₀, h₁⟩

/-- The first of two parts is short of token 1 and the second has none of token 0. -/
theorem some_split_deposit :
    (maxForRatios (3 * Tick.unit) (4 * Tick.unit) (2 * Tick.unit) 1 5 .early = .ok 5 ∧
      maxForRatios (3 * Tick.unit) (4 * Tick.unit) (2 * Tick.unit) 0 7 .early = .ok 0 ∧
      maxForRatios (3 * Tick.unit) (4 * Tick.unit) (2 * Tick.unit) 1 12 .early = .ok 12 ∧ (5 + 0 : Int) ≤ 12) ∧
    ∃ more, maxForRatios (3 * Tick.unit) (4 * Tick.unit) (2 * Tick.unit) 2 12 .early = .ok more ∧ 12 ≤ more := by
  obtain ⟨hsplit, hmono⟩ := @split_deposit_le (3 * Tick.unit) (4 * Tick.unit) (2 * Tick.unit) (by decide)
    (by decide)
    .early
  have h : maxForRatios (3 * Tick.unit) (4 * Tick.unit) (2 * Tick.unit) 1 5 .early = .ok 5 :=
    eq_ok_of_isOk (by decide)
  have h' : maxForRatios (3 * Tick.unit) (4 * Tick.unit) (2 * Tick.unit) 0 7 .early = .ok 0 :=
    eq_ok_of_isOk (by decide)
  have h'' : maxForRatios (3 * Tick.unit) (4 * Tick.unit) (2 * Tick.unit) 1 12 .early = .ok 12 :=
    eq_ok_of_isOk (by decide)
  obtain ⟨first, second, whole, hfirst, hsecond, hwhole, hle⟩ := hsplit 1 5 0 7 (by decide) (by decide) (by decide)
    (by decide)
  obtain rfl := Except.ok.inj (hfirst.symm.trans h)
  obtain rfl := Except.ok.inj (hsecond.symm.trans h')
  obtain rfl := Except.ok.inj (hwhole.symm.trans h'')
  obtain ⟨less, more, hless, hmore⟩ := hmono 1 12 2 12 (by decide) (by decide) (by decide) (by decide)
  obtain rfl := Except.ok.inj (hless.symm.trans h'')
  exact ⟨⟨h, h', h'', hle⟩, more, hmore⟩

end DefiActions.Liquidity
