import DefiActions.Proofs.ExceptLemmas
import DefiActions.Tick

/-!
# Ratios of ticks

A product of factors is least where every binary digit is set, and even that
one has binary digits left after all the rounding. So every ratio is positive.
-/

namespace DefiActions.Tick

/-! ## Products -/

def multiplyAll : (factors : List Nat) → (ratio : Nat) → Nat
  | [], ratio => ratio
  | f :: fs, ratio => multiplyAll fs (ratio * f / twoPow 128)

theorem multiplyAll_mono {fs : List Nat} {r s : Nat} (h : r ≤ s) : multiplyAll fs r ≤ multiplyAll fs s := by
  induction fs generalizing r s with
  | nil => exact h
  | cons f fs ih => exact ih (Nat.div_le_div_right (Nat.mul_le_mul_right f h))

theorem mul_factor_le {f : Nat} (hf : f ≤ twoPow 128) (r : Nat) : r * f / twoPow 128 ≤ r := by
  refine Nat.div_le_of_le_mul ?_
  rw [Nat.mul_comm]
  exact Nat.mul_le_mul_right r hf

/-- A factor makes a product no greater, so that leaving some out makes it no less. -/
theorem multiplyAll_le {fs : List Nat} (hf : ∀ f ∈ fs, f ≤ twoPow 128) (n r : Nat) :
    multiplyAll fs r ≤ multiply fs n r := by
  induction fs generalizing n r with
  | nil => exact Nat.le_refl _
  | cons f fs ih =>
    -- Where a digit is not set the factor is left out, which `multiplyAll_mono` accounts for.
    have hfs := ih fun g hg => hf g (List.mem_cons_of_mem _ hg)
    rw [multiply, multiplyAll]
    split
    · exact hfs _ _
    · exact Nat.le_trans (multiplyAll_mono (mul_factor_le (hf f (List.mem_cons_self ..)) r)) (hfs _ _)

theorem factors_le : ∀ f ∈ factors, f ≤ twoPow 128 := by decide

theorem product_pos (n : Nat) : 0 < product n := by
  have hodd : 0 < multiplyAll factors oddFactor := by decide
  have hle : oddFactor ≤ twoPow 128 := by decide
  unfold product
  split
  · exact Nat.lt_of_lt_of_le hodd (multiplyAll_le factors_le _ _)
  · exact Nat.lt_of_lt_of_le hodd (Nat.le_trans (multiplyAll_mono hle) (multiplyAll_le factors_le _ _))

theorem multiply_le {fs : List Nat} (hf : ∀ f ∈ fs, f ≤ twoPow 128) (n r : Nat) : multiply fs n r ≤ r := by
  induction fs generalizing n r with
  | nil => exact Nat.le_refl _
  | cons f fs ih =>
    have hfs := ih fun g hg => hf g (List.mem_cons_of_mem _ hg)
    rw [multiply]
    refine Nat.le_trans (hfs _ _) ?_
    split
    · exact mul_factor_le (hf f (List.mem_cons_self ..)) r
    · exact Nat.le_refl _

theorem product_le (n : Nat) : product n ≤ twoPow 128 := by
  have hle : oddFactor ≤ twoPow 128 := by decide
  refine Nat.le_trans (multiply_le factors_le _ _) ?_
  split
  · exact hle
  · exact Nat.le_refl _

/-! ## Ratios -/

theorem roundUp_bounds (r : Nat) : r ≤ roundUp r * twoPow 32 ∧ roundUp r * twoPow 32 < r + twoPow 32 := by
  have h32 : twoPow 32 = 4294967296 := rfl
  unfold roundUp
  rw [h32]
  split <;> omega

theorem roundUp_pos {r : Nat} (h : 0 < r) : 0 < roundUp r :=
  Nat.pos_of_mul_pos_right (Nat.lt_of_lt_of_le h (roundUp_bounds r).1)

theorem ratio_pos (t : Int) : 0 < ratio t := by
  unfold ratio
  refine roundUp_pos ?_
  split
  · have hbig : twoPow 128 ≤ twoPow 256 - 1 := by decide
    exact Nat.div_pos (Nat.le_trans (product_le _) hbig) (product_pos _)
  · exact product_pos _

/-! ## Ticks with a ratio -/

variable {t r : Int}

theorem natAbs_le_iff : t.natAbs ≤ 887272 ↔ least ≤ t ∧ t ≤ greatest := by
  rw [least, greatest]
  omega

theorem sqrtRatio_of_le (h : t.natAbs ≤ 887272) : sqrtRatio t = .ok (ratio t) := by
  rw [sqrtRatio, if_neg (by rw [greatest]; omega)]

theorem sqrtRatio_of_outside (h : ¬ t.natAbs ≤ 887272) : sqrtRatio t = refuse (.tickOutside t) := by
  rw [sqrtRatio, if_pos (by rw [greatest]; omega)]

theorem sqrtRatio_eq_ok (h : sqrtRatio t = .ok r) : t.natAbs ≤ 887272 ∧ r = ratio t := by
  by_cases ht : t.natAbs ≤ 887272
  · rw [sqrtRatio_of_le ht] at h
    exact ⟨ht, (Except.ok.inj h).symm⟩
  · rw [sqrtRatio_of_outside ht] at h
    exact absurd h refuse_ne_ok

end DefiActions.Tick
