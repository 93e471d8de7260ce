import DefiActions.Proofs.BlameLemmas
import DefiActions.Proofs.TickPriceSound

/-!
# The ladder of ratios

The ratios of all ticks climb from the least to the greatest ratio, each of them
as accurate as its last rounding lets it be. A tick and its opposite share one
product, which one of them rounds up and the other inverts first, so that their
ratios are inverse to each other but for the rounding.
-/

namespace DefiActions.Tick

variable {t : Int}

/-! ## Accuracy -/

theorem natAbs_le_of_abs_le (h : |t| ≤ greatest) : t.natAbs ≤ 887272 := by
  rw [Int.abs_eq_natAbs, greatest] at h
  omega

/-- **Ratios are accurate.** The square of a ratio is the price of its tick, but for one part in `2 ^ 29`. -/
theorem sqrtRatio_accurate {t : Int} (h : |t| ≤ 887272) :
    ∃ r : Int, sqrtRatio t = .ok r ∧
      (1 - 1 / 2 ^ 29) * (2 ^ 192 * (10001 / 10000) ^ t) ≤ (r : ℚ) ^ 2 ∧
      (r : ℚ) ^ 2 ≤ (1 + 1 / 2 ^ 29) * (2 ^ 192 * (10001 / 10000) ^ t) := by
  have ht := natAbs_le_of_abs_le h
  have hclose := close_ratio ht
  exact ⟨ratio t, sqrtRatio_of_le ht, hclose.lower, hclose.upper⟩

/-- At the least tick, where the ratio has 33 digits. -/
theorem least_accurate : |least| ≤ 887272 ∧ sqrtRatio least = .ok leastRatio ∧
    (1 - 1 / 2 ^ 29) * (2 ^ 192 * (10001 / 10000) ^ least) ≤ (leastRatio : ℚ) ^ 2 ∧
    (leastRatio : ℚ) ^ 2 ≤ (1 + 1 / 2 ^ 29) * (2 ^ 192 * (10001 / 10000) ^ least) := by
  have hleast : |least| ≤ 887272 := by decide
  have h : sqrtRatio least = .ok leastRatio := eq_ok_of_isOk (by decide +kernel)
  obtain ⟨r, hr, hlower, hupper⟩ := sqrtRatio_accurate hleast
  obtain rfl := Except.ok.inj (hr.symm.trans h)
  exact ⟨hleast, h, hlower, hupper⟩

/-! ## Growth -/

/-- **Ratios grow with their ticks**, from the least ratio to the greatest, and a tick out of bounds has none. -/
theorem sqrtRatio_increasing :
    (∀ t, least ≤ t → t ≤ greatest → ∃ r, sqrtRatio t = .ok r ∧ leastRatio ≤ r ∧ r ≤ greatestRatio ∧ r < 2 ^ 160) ∧
    (∀ t t' r r', sqrtRatio t = .ok r → sqrtRatio t' = .ok r' → (r < r' ↔ t < t') ∧ (r = r' ↔ t = t')) ∧
    sqrtRatio least = .ok leastRatio ∧ sqrtRatio greatest = .ok greatestRatio ∧
    ∀ t, t < least ∨ greatest < t → ∃ f, sqrtRatio t = .error f ∧ f.label = "ValueError" := by
  have hfits : greatestRatio < 2 ^ 160 := by decide
  refine ⟨?_, ?_, ?_, ?_, ?_⟩
  · intro t hleast hgreatest
    have ht := natAbs_le_iff.mpr ⟨hleast, hgreatest⟩
    have hle := ratio_le_greatestRatio ht
    exact ⟨ratio t, sqrtRatio_of_le ht, leastRatio_le_ratio ht, hle, hle.trans_lt hfits⟩
  · intro t t' r r' hr hr'
    obtain ⟨ht, rfl⟩ := sqrtRatio_eq_ok hr
    obtain ⟨ht', rfl⟩ := sqrtRatio_eq_ok hr'
    have hlt := ratio_lt_iff ht ht'
    have hgt := ratio_lt_iff ht' ht
    constructor
    · exact_mod_cast hlt
    · omega
  · rw [sqrtRatio_of_le (by decide), ratio_least]
  · rw [sqrtRatio_of_le (by decide), ratio_greatest]
  · intro t h
    exact ⟨_, sqrtRatio_of_outside (by rw [natAbs_le_iff]; omega), Failure.label_ofRejection _⟩

/-- Neighbours that differ in all twenty binary digits. -/
theorem neighbours_increasing : ∃ r r', sqrtRatio 524287 = .ok r ∧ sqrtRatio 524288 = .ok r' ∧ r < r' ∧
    ∃ f, sqrtRatio 887273 = .error f ∧ f.label = "ValueError" := by
  obtain ⟨hok, hcompare, -, -, hrefused⟩ := sqrtRatio_increasing
  obtain ⟨r, hr, -⟩ := hok 524287 (by decide) (by decide)
  obtain ⟨r', hr', -⟩ := hok 524288 (by decide) (by decide)
  exact ⟨r, r', hr, hr', (hcompare _ _ _ _ hr hr').1.mpr (by decide), hrefused 887273 (by decide)⟩

/-! ## Opposite ticks -/

/-- The product of two ratios is one, but for the rounding of both. -/
structure Inverse (A B : Int) : Prop where
  lower : 2 ^ 192 - 2 ^ 64 < A * B
  upper : A * B < 2 ^ 192 + A + B + 1

theorem Inverse.symm {A B : Int} (h : Inverse A B) : Inverse B A := by
  obtain ⟨lower, upper⟩ := h
  rw [mul_comm] at lower upper
  exact ⟨lower, by omega⟩

theorem roundUp_mul_between (m n : ℕ) :
    m * n ≤ roundUp m * roundUp n * 2 ^ 64 ∧ (roundUp m - 1) * (roundUp n - 1) * 2 ^ 64 ≤ m * n := by
  obtain ⟨hm, hm'⟩ := roundUp_bounds m
  obtain ⟨hn, hn'⟩ := roundUp_bounds n
  rw [twoPow_eq] at hm hm' hn hn'
  constructor
  · calc m * n ≤ (roundUp m * 2 ^ 32) * (roundUp n * 2 ^ 32) := Nat.mul_le_mul hm hn
      _ = roundUp m * roundUp n * 2 ^ 64 := by ring
  · calc (roundUp m - 1) * (roundUp n - 1) * 2 ^ 64
        = ((roundUp m - 1) * 2 ^ 32) * ((roundUp n - 1) * 2 ^ 32) := by ring
      _ ≤ m * n := Nat.mul_le_mul (by omega) (by omega)

theorem reciprocal_mul_between {P : ℕ} (hP : 0 < P) :
    2 ^ 256 ≤ (twoPow 256 - 1) / P * P + P ∧ (twoPow 256 - 1) / P * P < 2 ^ 256 := by
  have hle := Nat.div_mul_le_self (twoPow 256 - 1) P
  have hlt := Nat.lt_div_mul_add (a := twoPow 256 - 1) hP
  rw [twoPow_eq] at hle hlt ⊢
  omega

theorem inverse_roundUp {P : ℕ} (hP : 0 < P) (hP' : P ≤ 2 ^ 128) :
    Inverse (roundUp ((twoPow 256 - 1) / P)) (roundUp P) := by
  -- at one the lower bound of the product is met, so that the two ratios are computed
  rcases eq_or_lt_of_le hP' with rfl | hlt
  · exact ⟨by decide +kernel, by decide +kernel⟩
  have hbig : P ≤ twoPow 256 - 1 := hP'.trans (by decide)
  have hA := roundUp_pos (Nat.div_pos hbig hP)
  have hB := roundUp_pos hP
  obtain ⟨hlow, hhigh⟩ := reciprocal_mul_between hP
  obtain ⟨hprod, hprod'⟩ := roundUp_mul_between ((twoPow 256 - 1) / P) P
  generalize roundUp ((twoPow 256 - 1) / P) = A at *
  generalize roundUp P = B at *
  have hlower : 2 ^ 192 < A * B + 2 ^ 64 := by omega
  have hupper : (A - 1) * (B - 1) < 2 ^ 192 := by omega
  have hexpand : ((A - 1 : ℕ) : ℤ) * (B - 1 : ℕ) = A * B - A - B + 1 := by
    rw [Nat.cast_pred hA, Nat.cast_pred hB]
    ring
  have hlower' : (2 : ℤ) ^ 192 < A * B + 2 ^ 64 := by exact_mod_cast hlower
  have hupper' : ((A - 1 : ℕ) : ℤ) * (B - 1 : ℕ) < 2 ^ 192 := by exact_mod_cast hupper
  rw [hexpand] at hupper'
  exact ⟨by omega, by omega⟩

theorem inverse_ratio_of_pos (ht : 0 < t) : Inverse (ratio t) (ratio (-t)) := by
  unfold ratio
  dsimp only
  rw [if_pos ht, if_neg (by omega), Int.natAbs_neg]
  exact inverse_roundUp (product_pos _) (product_le _)

theorem inverse_ratio (t : Int) : Inverse (ratio t) (ratio (-t)) := by
  rcases lt_trichotomy t 0 with hneg | rfl | hpos
  · have hinverse := inverse_ratio_of_pos (Int.neg_pos_of_neg hneg)
    rw [neg_neg] at hinverse
    exact hinverse.symm
  · exact ⟨by decide +kernel, by decide +kernel⟩
  · exact inverse_ratio_of_pos hpos

/-- **Opposite ticks have inverse ratios**, up to rounding. -/
theorem opposite_inverse {t : Int} (h : |t| ≤ greatest) :
    ∃ A B : Int, sqrtRatio t = .ok A ∧ sqrtRatio (-t) = .ok B ∧
      2 ^ 192 - 2 ^ 64 < A * B ∧ A * B < 2 ^ 192 + A + B + 1 := by
  have ht := natAbs_le_of_abs_le h
  have ht' : (-t).natAbs ≤ 887272 := by rwa [Int.natAbs_neg]
  obtain ⟨lower, upper⟩ := inverse_ratio t
  exact ⟨ratio t, ratio (-t), sqrtRatio_of_le ht, sqrtRatio_of_le ht', lower, upper⟩

/-- At the greatest tick and the least. -/
theorem bounds_inverse : |greatest| ≤ greatest ∧ sqrtRatio greatest = .ok greatestRatio ∧
    sqrtRatio (-greatest) = .ok leastRatio ∧ 2 ^ 192 - 2 ^ 64 < greatestRatio * leastRatio ∧
    greatestRatio * leastRatio < 2 ^ 192 + greatestRatio + leastRatio + 1 := by
  have hle : |greatest| ≤ greatest := by decide
  have h : sqrtRatio greatest = .ok greatestRatio := eq_ok_of_isOk (by decide +kernel)
  have h' : sqrtRatio (-greatest) = .ok leastRatio := eq_ok_of_isOk (by decide +kernel)
  obtain ⟨A, B, hA, hB, hinverse⟩ := opposite_inverse hle
  obtain rfl := Except.ok.inj (hA.symm.trans h)
  obtain rfl := Except.ok.inj (hB.symm.trans h')
  exact ⟨hle, h, h', hinverse⟩

end DefiActions.Tick
