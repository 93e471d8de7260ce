import DefiActions.Proofs.RoundingSound
import DefiActions.Proofs.TickSound
import Mathlib.Data.Nat.Cast.Order.Field

/-!
# Ratios and prices

The square of the ratio of a tick is its price, but for one part in `2 ^ 29`. The
factors are far closer than that to the powers that they stand for, and a product
loses little with each of its divisions; what counts is the last rounding, where
the ratios are small. Neighbouring prices differ by one part in ten thousand,
so that ratios grow with their ticks.
-/

namespace DefiActions.Tick

/-! ## Slips -/

/-- The part by which a number may be off for each time that it was rounded. -/
def slip : ℚ := 1 / 2 ^ 50

theorem slip_pos : 0 < slip := by norm_num [slip]

theorem slip_lt_one : slip < 1 := by norm_num [slip]

/-- The number `x` is `y`, but for `k` slips. -/
structure Near (k : ℕ) (x y : ℚ) : Prop where
  lower : (1 - slip) ^ k * y ≤ x
  upper : x ≤ (1 + slip) ^ k * y

namespace Near

variable {j k : ℕ} {x y z x' y' : ℚ}

theorem nonneg (h : Near k x y) (hy : 0 ≤ y) : 0 ≤ x :=
  le_trans (mul_nonneg (pow_nonneg (sub_nonneg.mpr slip_lt_one.le) k) hy) h.lower

theorem mono (h : Near j x y) (hjk : j ≤ k) (hy : 0 ≤ y) : Near k x y := by
  have hs := slip_pos
  have hlow : (1 - slip) ^ k ≤ (1 - slip) ^ j :=
    pow_le_pow_of_le_one (sub_nonneg.mpr slip_lt_one.le) (by linarith) hjk
  have hup : (1 + slip) ^ j ≤ (1 + slip) ^ k := pow_le_pow_right₀ (by linarith) hjk
  exact ⟨le_trans (mul_le_mul_of_nonneg_right hlow hy) h.lower,
    le_trans h.upper (mul_le_mul_of_nonneg_right hup hy)⟩

theorem trans (h : Near j x y) (h' : Near k y z) : Near (j + k) x z := by
  have hs := slip_pos
  have hlow : (0 : ℚ) ≤ (1 - slip) ^ j := pow_nonneg (sub_nonneg.mpr slip_lt_one.le) j
  have hup : (0 : ℚ) ≤ (1 + slip) ^ j := pow_nonneg (by linarith) j
  constructor
  · calc (1 - slip) ^ (j + k) * z = (1 - slip) ^ j * ((1 - slip) ^ k * z) := by rw [pow_add, mul_assoc]
      _ ≤ (1 - slip) ^ j * y := mul_le_mul_of_nonneg_left h'.lower hlow
      _ ≤ x := h.lower
  · calc x ≤ (1 + slip) ^ j * y := h.upper
      _ ≤ (1 + slip) ^ j * ((1 + slip) ^ k * z) := mul_le_mul_of_nonneg_left h'.upper hup
      _ = (1 + slip) ^ (j + k) * z := by rw [pow_add, mul_assoc]

theorem mul_right (h : Near k x y) (hz : 0 ≤ z) : Near k (x * z) (y * z) := by
  constructor
  · rw [← mul_assoc]
    exact mul_le_mul_of_nonneg_right h.lower hz
  · rw [← mul_assoc]
    exact mul_le_mul_of_nonneg_right h.upper hz

theorem mul (h : Near j x y) (h' : Near k x' y') (hy : 0 ≤ y) (hy' : 0 ≤ y') : Near (j + k) (x * x') (y * y') := by
  refine (h.mul_right (h'.nonneg hy')).trans ?_
  rw [mul_comm y, mul_comm y]
  exact h'.mul_right hy

end Near

/-! ## Squares -/

theorem sq_between {δ x z : ℚ} (hδ : 0 ≤ δ) (hδ' : δ ≤ 1) (hz : 0 ≤ z) (lo : (1 - δ) * z ≤ x)
    (hi : x ≤ (1 + δ) * z) :
    (1 - 2 * δ) * z ^ 2 ≤ x ^ 2 ∧ x ^ 2 ≤ (1 + 3 * δ) * z ^ 2 := by
  have hzero : 0 ≤ (1 - δ) * z := mul_nonneg (by linarith) hz
  have hsq : 0 ≤ z ^ 2 := sq_nonneg z
  have hδδ : δ * δ ≤ δ := mul_le_of_le_one_left hδ hδ'
  constructor
  · calc (1 - 2 * δ) * z ^ 2 ≤ (1 - 2 * δ + δ * δ) * z ^ 2 :=
          mul_le_mul_of_nonneg_right (by linarith [mul_self_nonneg δ]) hsq
      _ = ((1 - δ) * z) ^ 2 := by ring
      _ ≤ x ^ 2 := pow_le_pow_left₀ hzero lo 2
  · calc x ^ 2 ≤ ((1 + δ) * z) ^ 2 := pow_le_pow_left₀ (hzero.trans lo) hi 2
      _ = (1 + 2 * δ + δ * δ) * z ^ 2 := by ring
      _ ≤ (1 + 3 * δ) * z ^ 2 := mul_le_mul_of_nonneg_right (by linarith) hsq

theorem div_lt_succ (m : ℕ) {d : ℕ} (hd : 0 < d) : (m : ℚ) / d < (m / d : ℕ) + 1 := by
  rw [div_lt_iff₀ (Nat.cast_pos.mpr hd), mul_comm]
  exact_mod_cast Nat.lt_mul_div_succ m hd

def square (r : ℕ) : ℚ := ((r : ℚ) / 2 ^ 128) ^ 2

theorem square_mono {r s : ℕ} (h : r ≤ s) : square r ≤ square s :=
  pow_le_pow_left₀ (div_nonneg (Nat.cast_nonneg r) (by norm_num))
    (div_le_div_of_nonneg_right (Nat.cast_le.mpr h) (by norm_num)) 2

theorem square_one : square (twoPow 128) = 1 := by
  rw [square, cast_twoPow, div_self (by norm_num), one_pow]

theorem near_mul_div {r f : ℕ} (h : twoPow 52 ≤ r * f / twoPow 128) :
    Near 1 (square (r * f / twoPow 128)) (square r * square f) := by
  have hle : ((r * f / twoPow 128 : ℕ) : ℚ) ≤ (r * f : ℕ) / (twoPow 128 : ℕ) := Nat.cast_div_le
  have hlt := div_lt_succ (r * f) (twoPow_pos 128)
  have hq : (2 : ℚ) ^ 52 ≤ ((r * f / twoPow 128 : ℕ) : ℚ) := by
    rw [← cast_twoPow]
    exact_mod_cast h
  have hprod : square r * square f = ((((r * f : ℕ) : ℚ) / (twoPow 128 : ℕ)) / 2 ^ 128) ^ 2 := by
    rw [square, square, cast_twoPow, Nat.cast_mul]
    ring
  rw [hprod, square]
  -- a number of 52 digits is off by one part in `2 ^ 52` when it is rounded down
  generalize ((r * f / twoPow 128 : ℕ) : ℚ) = q at *
  generalize ((r * f : ℕ) : ℚ) / (twoPow 128 : ℕ) = z at *
  have hz : 0 ≤ z / 2 ^ 128 := div_nonneg (by linarith) (by norm_num)
  have hpart : (1 - 1 / 2 ^ 52) * (z / 2 ^ 128) ≤ q / 2 ^ 128 := by
    rw [← mul_div_assoc]
    refine div_le_div_of_nonneg_right ?_ (by norm_num)
    linarith
  have hpart' : q / 2 ^ 128 ≤ (1 + 1 / 2 ^ 52) * (z / 2 ^ 128) := by
    rw [← mul_div_assoc]
    refine div_le_div_of_nonneg_right ?_ (by norm_num)
    linarith
  obtain ⟨lo, hi⟩ := sq_between (by norm_num) (by norm_num) hz hpart hpart'
  have hsq : 0 ≤ (z / 2 ^ 128) ^ 2 := sq_nonneg _
  constructor
  · exact le_trans (mul_le_mul_of_nonneg_right (by norm_num [slip]) hsq) lo
  · exact le_trans hi (mul_le_mul_of_nonneg_right (by norm_num [slip]) hsq)

/-! ## Factors -/

/-- The price of a tick in terms of the tick above it. -/
def down : ℚ := 10000 / 10001

theorem down_pos : 0 < down := by norm_num [down]

def fits (f e : ℕ) : Bool :=
  (twoPow 50 - 1) * (twoPow 256 * Nat.pow 10000 e) ≤ twoPow 50 * (f * f * Nat.pow 10001 e) &&
    twoPow 50 * (f * f * Nat.pow 10001 e) ≤ (twoPow 50 + 1) * (twoPow 256 * Nat.pow 10000 e)

def allFit : (factors : List ℕ) → (e : ℕ) → Bool
  | [], _ => true
  | f :: fs, e => f ≤ twoPow 128 && fits f e && allFit fs (2 * e)

theorem factors_fit : allFit (oddFactor :: factors) 1 = true := by decide +kernel

theorem le_of_allFit {fs : List ℕ} {e : ℕ} (h : allFit fs e = true) : ∀ f ∈ fs, f ≤ twoPow 128 := by
  induction fs generalizing e with
  | nil => exact nofun
  | cons f fs ih =>
    simp only [allFit, Bool.and_eq_true, decide_eq_true_eq] at h
    exact List.forall_mem_cons.mpr ⟨h.1.1, ih h.2⟩

theorem near_of_fits {f e : ℕ} (h : fits f e = true) : Near 1 (square f) (down ^ e) := by
  simp only [fits, Bool.and_eq_true, decide_eq_true_eq] at h
  obtain ⟨lo, hi⟩ := h
  have hpow : (0 : ℚ) < 10001 ^ e := pow_pos (by norm_num) e
  have hlo : ((2 : ℚ) ^ 50 - 1) * (2 ^ 256 * 10000 ^ e) ≤ 2 ^ 50 * (f * f * 10001 ^ e) := by
    have := (Nat.cast_le (α := ℚ)).mpr lo
    simpa [Nat.cast_sub (twoPow_pos 50), cast_twoPow] using this
  have hhi : (2 : ℚ) ^ 50 * (f * f * 10001 ^ e) ≤ (2 ^ 50 + 1) * (2 ^ 256 * 10000 ^ e) := by
    have := (Nat.cast_le (α := ℚ)).mpr hi
    simpa [cast_twoPow] using this
  rw [down, div_pow]
  constructor
  · rw [pow_one, ← mul_div_assoc, div_le_iff₀ hpow, square, slip]
    linarith
  · rw [pow_one, ← mul_div_assoc, le_div_iff₀ hpow, square, slip]
    linarith

/-! ## Products -/

theorem near_multiply {fs : List ℕ} {e k n r : ℕ} {x : ℚ} (hfs : allFit fs e = true) (hx : 0 ≤ x)
    (hr : Near k (square r) x) (hn : n < 2 ^ fs.length) (h : twoPow 52 ≤ multiply fs n r) :
    Near (k + 2 * fs.length) (square (multiply fs n r)) (x * down ^ (e * n)) := by
  induction fs generalizing e k n r x with
  | nil =>
    obtain rfl : n = 0 := Nat.lt_one_iff.mp hn
    rw [multiply, Nat.mul_zero, pow_zero, mul_one]
    exact hr
  | cons f fs ih =>
    simp only [allFit, Bool.and_eq_true, decide_eq_true_eq] at hfs
    obtain ⟨⟨hle, hf⟩, hrest⟩ := hfs
    have hlen : n / 2 < 2 ^ fs.length := by
      rw [List.length_cons, Nat.pow_succ] at hn
      omega
    have hpow : (0 : ℚ) ≤ down ^ e := (pow_pos down_pos e).le
    have hdigits : 2 * (n / 2) + n % 2 = n := Nat.div_add_mod n 2
    rw [multiply] at h ⊢
    rw [List.length_cons]
    split at h
    · rename_i hodd
      rw [if_pos hodd]
      -- a digit that is set costs a slip for its factor and one for the division
      have hbig : twoPow 52 ≤ r * f / twoPow 128 := Nat.le_trans h (multiply_le (le_of_allFit hrest) _ _)
      have hstep : Near (1 + (k + 1)) (square (r * f / twoPow 128)) (x * down ^ e) :=
        (near_mul_div hbig).trans (hr.mul (near_of_fits hf) hx hpow)
      have hall := ih hrest (mul_nonneg hx hpow) hstep hlen h
      have hexp : e * n = e + 2 * e * (n / 2) := by
        conv_lhs => rw [← hdigits, hodd]
        ring
      rw [hexp, pow_add, ← mul_assoc]
      exact hall.mono (by omega) (mul_nonneg (mul_nonneg hx hpow) (pow_pos down_pos _).le)
    · rename_i heven
      rw [if_neg heven]
      have hall := ih hrest hx hr hlen h
      have hexp : e * n = 2 * e * (n / 2) := by
        conv_lhs => rw [← hdigits, show n % 2 = 0 by omega]
        ring
      rw [hexp]
      exact hall.mono (by omega) (mul_nonneg hx (pow_pos down_pos _).le)

theorem product_eq (n : ℕ) : product n = multiply (oddFactor :: factors) n (twoPow 128) := by
  rw [multiply, Nat.mul_div_cancel_left _ (twoPow_pos 128)]
  rfl

theorem twoPow_le_product (n : ℕ) : twoPow 52 ≤ product n := by
  -- a product is least where all digits are set
  have hall : twoPow 52 ≤ multiplyAll (oddFactor :: factors) (twoPow 128) := by decide
  rw [product_eq]
  exact Nat.le_trans hall (multiplyAll_le (le_of_allFit factors_fit) _ _)

theorem near_product {n : ℕ} (hn : n < 2 ^ 20) : Near 40 (square (product n)) (down ^ n) := by
  have hlow := twoPow_le_product n
  rw [product_eq] at hlow ⊢
  have h := near_multiply factors_fit zero_le_one (k := 0) (r := twoPow 128)
    ⟨by rw [square_one]; norm_num, by rw [square_one]; norm_num⟩ hn hlow
  rwa [one_mul, Nat.one_mul] at h

theorem twoPow_le_product_of_le {n : ℕ} (hn : n ≤ 887272) : twoPow 63 ≤ product n := by
  -- the tick that is farthest out has 64 digits left, and no other product is half of its
  have hlast : twoPow 64 ≤ product 887272 := by decide +kernel
  have hdown : down ^ 887272 ≤ down ^ n := pow_le_pow_of_le_one down_pos.le (by norm_num [down]) hn
  have hlower := (@near_product n (by omega)).lower
  have hupper := (@near_product 887272 (by norm_num)).upper
  have hparts : (1 + slip) ^ 40 ≤ 2 * (1 - slip) ^ 40 := by norm_num [slip]
  by_contra hlt
  have hchain : square (twoPow 64) ≤ 2 * square (twoPow 63) :=
    calc square (twoPow 64) ≤ square (product 887272) := square_mono hlast
      _ ≤ (1 + slip) ^ 40 * down ^ 887272 := hupper
      _ ≤ 2 * (1 - slip) ^ 40 * down ^ 887272 := mul_le_mul_of_nonneg_right hparts (pow_pos down_pos _).le
      _ ≤ 2 * (1 - slip) ^ 40 * down ^ n := mul_le_mul_of_nonneg_left hdown (by norm_num [slip])
      _ = 2 * ((1 - slip) ^ 40 * down ^ n) := mul_assoc ..
      _ ≤ 2 * square (product n) := mul_le_mul_of_nonneg_left hlower (by norm_num)
      _ ≤ 2 * square (twoPow 63) := mul_le_mul_of_nonneg_left (square_mono (Nat.not_le.mp hlt).le) (by norm_num)
  norm_num [square, cast_twoPow] at hchain

/-! ## Ratios -/

def price (t : ℤ) : ℚ := (10001 / 10000) ^ t

theorem price_pos (t : ℤ) : 0 < price t := zpow_pos (by norm_num) t

theorem price_of_nonpos {t : ℤ} (h : t ≤ 0) : price t = down ^ t.natAbs := by
  have ht : t = -(t.natAbs : ℤ) := by omega
  conv_lhs => rw [ht]
  rw [price, zpow_neg, zpow_natCast, ← inv_pow, down, inv_div]

theorem price_of_nonneg {t : ℤ} (h : 0 ≤ t) : price t = (down ^ t.natAbs)⁻¹ := by
  have ht : t = (t.natAbs : ℤ) := by omega
  conv_lhs => rw [ht]
  rw [price, zpow_natCast, ← inv_pow, down, inv_div]

theorem price_le {t t' : ℤ} (h : t < t') : 10001 / 10000 * price t ≤ price t' := by
  have hle : price (t + 1) ≤ price t' := zpow_le_zpow_right₀ (by norm_num) (by omega)
  rwa [price, zpow_add_one₀ (by norm_num), mul_comm] at hle

theorem roundUp_between (r : ℕ) : (r : ℚ) / 2 ^ 32 ≤ roundUp r ∧ (roundUp r : ℚ) ≤ r / 2 ^ 32 + 1 := by
  obtain ⟨lo, hi⟩ := roundUp_bounds r
  have hlow : (r : ℚ) ≤ roundUp r * 2 ^ 32 := by
    rw [← cast_twoPow]
    exact_mod_cast lo
  have hhigh : (roundUp r : ℚ) * 2 ^ 32 ≤ r + 2 ^ 32 := by
    rw [← cast_twoPow]
    exact_mod_cast hi.le
  constructor
  · rw [div_le_iff₀ (by norm_num)]
    linarith
  · linarith

structure Close (b : ℕ) (x y : ℚ) : Prop where
  lower : (1 - 1 / 2 ^ b) * y ≤ x
  upper : x ≤ (1 + 1 / 2 ^ b) * y

theorem Near.close {x y : ℚ} (h : Near 40 x y) (hy : 0 ≤ y) : Close 44 x y where
  lower := le_trans (mul_le_mul_of_nonneg_right (by norm_num [slip]) hy) h.lower
  upper := le_trans h.upper (mul_le_mul_of_nonneg_right (by norm_num [slip]) hy)

theorem Near.close_inv {x y : ℚ} (h : Near 40 x y) (hy : 0 < y) : Close 44 x⁻¹ y⁻¹ := by
  have hlow : 0 < (1 - slip) ^ 40 * y := mul_pos (by norm_num [slip]) hy
  have hx : 0 < x := hlow.trans_le h.lower
  have hinv : 0 ≤ y⁻¹ := inv_nonneg.mpr hy.le
  constructor
  · refine le_trans ?_ (inv_anti₀ hx h.upper)
    rw [mul_inv]
    exact mul_le_mul_of_nonneg_right (by norm_num [slip]) hinv
  · refine le_trans (inv_anti₀ hlow h.lower) ?_
    rw [mul_inv]
    exact mul_le_mul_of_nonneg_right (by norm_num [slip]) hinv

/-- Rounding a number of 31 digits to a whole one costs the most. -/
theorem Close.of_round {A y z : ℚ} (hz : 2 ^ 31 ≤ z) (lo : z - 1 ≤ A) (hi : A ≤ z + 1) (h : Close 44 (z ^ 2) y) :
    Close 29 (A ^ 2) y := by
  have hy : 0 ≤ y := by
    have := (sq_nonneg z).trans h.upper
    exact (mul_nonneg_iff_of_pos_left (by norm_num)).mp this
  obtain ⟨hlow, hhigh⟩ := sq_between (δ := 1 / 2 ^ 31) (x := A) (z := z) (by norm_num) (by norm_num) (by linarith)
    (by linarith) (by linarith)
  constructor
  · calc (1 - 1 / 2 ^ 29) * y ≤ (1 - 2 * (1 / 2 ^ 31)) * ((1 - 1 / 2 ^ 44) * y) := by
          rw [← mul_assoc]
          exact mul_le_mul_of_nonneg_right (by norm_num) hy
      _ ≤ (1 - 2 * (1 / 2 ^ 31)) * z ^ 2 := mul_le_mul_of_nonneg_left h.lower (by norm_num)
      _ ≤ A ^ 2 := hlow
  · calc A ^ 2 ≤ (1 + 3 * (1 / 2 ^ 31)) * z ^ 2 := hhigh
      _ ≤ (1 + 3 * (1 / 2 ^ 31)) * ((1 + 1 / 2 ^ 44) * y) := mul_le_mul_of_nonneg_left h.upper (by norm_num)
      _ ≤ (1 + 1 / 2 ^ 29) * y := by
          rw [← mul_assoc]
          exact mul_le_mul_of_nonneg_right (by norm_num) hy

theorem Close.mul_left {b : ℕ} {x y c : ℚ} (h : Close b x y) (hc : 0 ≤ c) : Close b (c * x) (c * y) where
  lower := by
    rw [mul_left_comm]
    exact mul_le_mul_of_nonneg_left h.lower hc
  upper := by
    rw [mul_left_comm]
    exact mul_le_mul_of_nonneg_left h.upper hc

theorem reciprocal_between {P : ℕ} (hP : 0 < P) :
    2 ^ 224 / (P : ℚ) - 1 ≤ roundUp ((twoPow 256 - 1) / P) ∧
      (roundUp ((twoPow 256 - 1) / P) : ℚ) ≤ 2 ^ 224 / P + 1 := by
  have hone : (1 : ℚ) ≤ P := Nat.one_le_cast.mpr hP
  have hinv : 1 / (P : ℚ) ≤ 1 := (div_le_one (by linarith)).mpr hone
  have hinv' : 0 ≤ 1 / (P : ℚ) := by positivity
  have hle : (((twoPow 256 - 1) / P : ℕ) : ℚ) ≤ (twoPow 256 - 1 : ℕ) / P := Nat.cast_div_le
  have hlt := div_lt_succ (twoPow 256 - 1) hP
  have hcast : ((twoPow 256 - 1 : ℕ) : ℚ) / P = 2 ^ 256 * (1 / P) - 1 / P := by
    rw [Nat.cast_sub (twoPow_pos 256), cast_twoPow]
    ring
  have hz : 2 ^ 224 / (P : ℚ) = 2 ^ 224 * (1 / P) := by ring
  obtain ⟨lo, hi⟩ := roundUp_between ((twoPow 256 - 1) / P)
  rw [hcast] at hle hlt
  rw [hz]
  constructor
  · linarith
  · linarith

/-- **The square of the ratio of a tick is its price, but for one part in `2 ^ 29`.** -/
theorem close_ratio {t : ℤ} (h : t.natAbs ≤ 887272) : Close 29 ((ratio t : ℚ) ^ 2) (2 ^ 192 * price t) := by
  have hnear := @near_product t.natAbs (by omega)
  have hlow : (2 : ℚ) ^ 63 ≤ product t.natAbs := by
    rw [← cast_twoPow]
    exact_mod_cast twoPow_le_product_of_le h
  have hhigh : (product t.natAbs : ℚ) ≤ 2 ^ 128 := by
    rw [← cast_twoPow]
    exact_mod_cast product_le t.natAbs
  have hpos : (0 : ℚ) < product t.natAbs := by linarith
  have hdown : 0 < down ^ t.natAbs := pow_pos down_pos _
  unfold ratio
  dsimp only
  rcases lt_or_ge 0 t with ht | ht
  · rw [if_pos ht, price_of_nonneg ht.le]
    obtain ⟨lo, hi⟩ := reciprocal_between (product_pos t.natAbs)
    have hsquare : (2 ^ 224 / (product t.natAbs : ℚ)) ^ 2 = 2 ^ 192 * (square (product t.natAbs))⁻¹ := by
      rw [square]
      field_simp
    refine Close.of_round (z := 2 ^ 224 / product t.natAbs) ?_ lo hi ?_
    · rw [le_div_iff₀ hpos]
      linarith
    · rw [hsquare]
      exact (hnear.close_inv hdown).mul_left (by norm_num)
  · rw [if_neg (not_lt.mpr ht), price_of_nonpos ht]
    obtain ⟨lo, hi⟩ := roundUp_between (product t.natAbs)
    have hsquare : ((product t.natAbs : ℚ) / 2 ^ 32) ^ 2 = 2 ^ 192 * square (product t.natAbs) := by
      rw [square]
      ring
    refine Close.of_round (z := product t.natAbs / 2 ^ 32) ?_ (by linarith) hi ?_
    · rw [le_div_iff₀ (by norm_num)]
      linarith
    · rw [hsquare]
      exact (hnear.close hdown.le).mul_left (by norm_num)

/-! ## Growth -/

theorem ratio_growth {t t' : ℤ} (ht : t.natAbs ≤ 887272) (ht' : t'.natAbs ≤ 887272) (h : t < t') :
    ratio t * (2 ^ 15 + 1) ≤ ratio t' * 2 ^ 15 := by
  have hupper := (close_ratio ht).upper
  have hlower := (close_ratio ht').lower
  -- prices grow by one part in ten thousand, and both squares are far less off
  have hprice := price_le h
  have hpos := price_pos t
  have hsq : ((ratio t : ℚ) * (2 ^ 15 + 1)) ^ 2 ≤ ((ratio t' : ℚ) * 2 ^ 15) ^ 2 := by
    rw [mul_pow, mul_pow]
    linarith
  have hle : (ratio t : ℚ) * (2 ^ 15 + 1) ≤ ratio t' * 2 ^ 15 :=
    (pow_le_pow_iff_left₀ (by positivity) (by positivity) two_ne_zero).mp hsq
  exact_mod_cast hle

theorem ratio_lt {t t' : ℤ} (ht : t.natAbs ≤ 887272) (ht' : t'.natAbs ≤ 887272) (h : t < t') :
    ratio t < ratio t' := by
  have hpos := ratio_pos t
  have hgrowth := ratio_growth ht ht' h
  omega

theorem ratio_le {t t' : ℤ} (ht : t.natAbs ≤ 887272) (ht' : t'.natAbs ≤ 887272) (h : t ≤ t') :
    ratio t ≤ ratio t' := by
  rcases eq_or_lt_of_le h with rfl | hlt
  · exact le_refl _
  · exact (ratio_lt ht ht' hlt).le

theorem ratio_lt_iff {t t' : ℤ} (ht : t.natAbs ≤ 887272) (ht' : t'.natAbs ≤ 887272) :
    ratio t < ratio t' ↔ t < t' :=
  ⟨lt_imp_lt_of_le_imp_le (ratio_le ht' ht), ratio_lt ht ht'⟩

theorem ratio_least : (ratio least : ℤ) = leastRatio := by decide +kernel

theorem ratio_greatest : (ratio greatest : ℤ) = greatestRatio := by decide +kernel

theorem leastRatio_le_ratio {t : ℤ} (ht : t.natAbs ≤ 887272) : leastRatio ≤ ratio t := by
  rw [← ratio_least]
  exact_mod_cast ratio_le (by decide) ht (natAbs_le_iff.mp ht).1

theorem ratio_le_greatestRatio {t : ℤ} (ht : t.natAbs ≤ 887272) : (ratio t : ℤ) ≤ greatestRatio := by
  rw [← ratio_greatest]
  exact_mod_cast ratio_le ht (by decide) (natAbs_le_iff.mp ht).2

end DefiActions.Tick
