import DefiActions.Decimal
import Mathlib.Algebra.Order.Field.Power
import Mathlib.Algebra.Order.Ring.Rat
import Mathlib.Data.Nat.Cast.Field
import Mathlib.Tactic.FieldSimp
import Mathlib.Tactic.Linarith
import Mathlib.Tactic.Positivity
import Mathlib.Tactic.Ring

/-!
# Rounding to binary floating point numbers

The rationals that round to a canonical number are those between the midpoints
to its neighbours, and the midpoints themselves where the significand is even.
Quotients and decimals are taken there to that number, and every quotient is
taken to some canonical number or out of range.
-/

namespace DefiActions

theorem twoPow_eq (n : Nat) : twoPow n = 2 ^ n := rfl

theorem tenPow_eq (n : Nat) : tenPow n = 10 ^ n := rfl

section

variable {R : Type*} [Semiring R]

theorem cast_twoPow (n : Nat) : ((twoPow n : Nat) : R) = 2 ^ n := by
  rw [twoPow_eq, Nat.cast_pow, Nat.cast_ofNat]

theorem cast_tenPow (n : Nat) : ((tenPow n : Nat) : R) = 10 ^ n := by
  rw [tenPow_eq, Nat.cast_pow, Nat.cast_ofNat]

end

theorem twoPow_pos (n : Nat) : 0 < twoPow n := Nat.pow_pos (by decide)

theorem twoPow_le_twoPow {m n : Nat} (h : m ≤ n) : twoPow m ≤ twoPow n := Nat.pow_le_pow_right (by decide) h

theorem tenPow_pos (n : Nat) : 0 < tenPow n := Nat.pow_pos (by decide)

namespace Binary64

/-! ## Numbers of 64 bits -/

/-- A significand and an exponent in the one form that a number of 64 bits has. -/
structure Canonical (m : Nat) (e : Int) : Prop where
  lt : m < twoPow 53
  least : leastExponent ≤ e
  greatest : e ≤ greatestExponent
  full : twoPow 52 ≤ m ∨ e = leastExponent

def IsDouble : Binary64 → Prop
  | finite _ m e => Canonical m e
  | _ => True

/-- The midpoint to the number below; numbers lie twice as close below a power of two. -/
def lower (m : Nat) (e : Int) : ℚ :=
  (if m = twoPow 52 ∧ leastExponent < e then (m : ℚ) - 1 / 4 else m - 1 / 2) * 2 ^ e

def upper (m : Nat) (e : Int) : ℚ := (m + 1 / 2) * 2 ^ e

def Rounds (m : Nat) (e : Int) (q : ℚ) : Prop :=
  if m % 2 = 0 then lower m e ≤ q ∧ q ≤ upper m e else lower m e < q ∧ q < upper m e

variable {m : Nat} {e : Int} {q : ℚ}

theorem Canonical.eq_least (hc : Canonical 0 e) : e = leastExponent := hc.full.resolve_left (by decide)

theorem two_zpow_pos (e : Int) : (0 : ℚ) < 2 ^ e := zpow_pos (by norm_num) e

theorem rounds_of_between (lo : lower m e < q) (hi : q < upper m e) : Rounds m e q := by
  unfold Rounds
  split
  · exact ⟨lo.le, hi.le⟩
  · exact ⟨lo, hi⟩

theorem Rounds.lower_le (h : Rounds m e q) : lower m e ≤ q := by
  unfold Rounds at h
  split at h
  · exact h.1
  · exact h.1.le

theorem Rounds.le_upper (h : Rounds m e q) : q ≤ upper m e := by
  unfold Rounds at h
  split at h
  · exact h.2
  · exact h.2.le

theorem Rounds.even_of_eq (h : Rounds m e q) (hq : q = lower m e ∨ q = upper m e) : m % 2 = 0 := by
  unfold Rounds at h
  split at h
  · assumption
  · rcases hq with hq | hq
    · exact absurd hq h.1.ne'
    · exact absurd hq h.2.ne

theorem half_le_lower (m : Nat) (e : Int) : ((m : ℚ) - 1 / 2) * 2 ^ e ≤ lower m e := by
  unfold lower
  refine mul_le_mul_of_nonneg_right ?_ (two_zpow_pos e).le
  split
  · linarith
  · exact le_refl _

theorem lower_pos (hm : 0 < m) (e : Int) : 0 < lower m e := by
  have hone : (1 : ℚ) ≤ m := Nat.one_le_cast.mpr hm
  exact lt_of_lt_of_le (mul_pos (by linarith) (two_zpow_pos e)) (half_le_lower m e)

theorem Rounds.pos (h : Rounds m e q) (hm : 0 < m) : 0 < q := lt_of_lt_of_le (lower_pos hm e) h.lower_le

/-! ## Quotients -/

/-- A quotient rounds to a whole number that is at most a half away, an even one if it is a half. -/
theorem roundQuotient_eq {num den m : Nat} (hd : 0 < den) (lo : (m : ℚ) - 1 / 2 ≤ num / den)
    (hi : (num : ℚ) / den ≤ m + 1 / 2)
    (tie : (num : ℚ) / den = m - 1 / 2 ∨ (num : ℚ) / den = m + 1 / 2 → m % 2 = 0) : roundQuotient num den = m := by
  have hpos : (0 : ℚ) < den := Nat.cast_pos.mpr hd
  rw [le_div_iff₀ hpos] at lo
  rw [div_le_iff₀ hpos] at hi
  rw [div_eq_iff hpos.ne', div_eq_iff hpos.ne'] at tie
  have hsplit : den * (num / den) + num % den = num := Nat.div_add_mod num den
  have hlt : num % den < den := Nat.mod_lt num hd
  have hnum : (num : ℚ) = den * (num / den : Nat) + (num % den : Nat) := by exact_mod_cast hsplit.symm
  unfold roundQuotient
  dsimp only
  generalize num / den = q at *
  generalize num % den = r at *
  have hr : (r : ℚ) < den := Nat.cast_lt.mpr hlt
  have hrpos : (0 : ℚ) ≤ r := Nat.cast_nonneg r
  -- The whole part of the quotient is the number or the one below it.
  have hle : q ≤ m := by
    by_contra hgt
    have hge : (m : ℚ) + 1 ≤ q := by exact_mod_cast Nat.not_le.mp hgt
    nlinarith
  have hge : m ≤ q + 1 := by
    by_contra hgt
    have hge : (q : ℚ) + 2 ≤ m := by exact_mod_cast Nat.not_le.mp hgt
    nlinarith
  rcases Nat.lt_or_ge q m with hq | hq
  · obtain rfl : m = q + 1 := by omega
    push_cast at lo tie
    have hhalf : (den : ℚ) ≤ 2 * r := by nlinarith
    rcases hhalf.lt_or_eq with hmore | heven
    · have : den < 2 * r := by exact_mod_cast hmore
      rw [if_neg (by omega), if_pos this]
    · have htie := tie (Or.inl (by rw [hnum]; linarith))
      have : den = 2 * r := by exact_mod_cast heven
      rw [if_neg (by omega), if_neg (by omega)]
      omega
  · obtain rfl : q = m := by omega
    have hhalf : 2 * (r : ℚ) ≤ den := by nlinarith
    rcases hhalf.lt_or_eq with hless | heven
    · have : 2 * r < den := by exact_mod_cast hless
      rw [if_pos this]
    · have htie := tie (Or.inr (by rw [hnum]; linarith))
      have : 2 * r = den := by exact_mod_cast heven
      rw [if_neg (by omega), if_neg (by omega), htie, Nat.add_zero]

theorem scaled_pos {num den : Nat} (hd : 0 < den) (e : Int) : 0 < (scaled num den e).2 := by
  unfold scaled
  split
  · exact Nat.mul_pos hd (twoPow_pos _)
  · exact hd

theorem scaled_div (num den : Nat) (e : Int) :
    ((scaled num den e).1 : ℚ) / (scaled num den e).2 = num / den / 2 ^ e := by
  unfold scaled
  split
  · rename_i he
    obtain ⟨n, rfl⟩ := Int.eq_ofNat_of_zero_le he
    rw [Int.toNat_natCast, Nat.cast_mul, cast_twoPow, zpow_natCast, div_div]
  · rename_i he
    obtain ⟨n, hn⟩ := Int.eq_ofNat_of_zero_le (by omega : 0 ≤ -e)
    obtain rfl : e = -n := by omega
    rw [neg_neg, Int.toNat_natCast, Nat.cast_mul, cast_twoPow, zpow_neg, zpow_natCast, div_inv_eq_mul,
      mul_div_right_comm]

theorem le_scaled_iff {num den : Nat} (hd : 0 < den) (k : Nat) (e : Int) :
    k ≤ (scaled num den e).1 / (scaled num den e).2 ↔ (k : ℚ) * 2 ^ e ≤ num / den := by
  have hpos := @scaled_pos num den hd e
  rw [Nat.le_div_iff_mul_le hpos, ← le_div_iff₀ (two_zpow_pos e), ← scaled_div, le_div_iff₀ (Nat.cast_pos.mpr hpos)]
  exact_mod_cast Iff.rfl

theorem two_pow_mul_zpow (n : Nat) (e : Int) : (2 : ℚ) ^ n * 2 ^ e = 2 ^ (n + e) := by
  rw [zpow_add₀ two_ne_zero, zpow_natCast]

theorem div_between {num den : Nat} (hn : 0 < num) (hd : 0 < den) :
    (2 : ℚ) ^ ((num.log2 : Int) - den.log2 - 1) ≤ num / den ∧
      (num : ℚ) / den < 2 ^ ((num.log2 : Int) - den.log2 + 1) := by
  have hnum : (2 : ℚ) ^ num.log2 ≤ num := by exact_mod_cast Nat.log2_self_le hn.ne'
  have hnum' : (num : ℚ) < 2 ^ (num.log2 + 1) := by exact_mod_cast Nat.lt_log2_self
  have hden : (2 : ℚ) ^ den.log2 ≤ den := by exact_mod_cast Nat.log2_self_le hd.ne'
  have hden' : (den : ℚ) < 2 ^ (den.log2 + 1) := by exact_mod_cast Nat.lt_log2_self
  have hpos : (0 : ℚ) < den := Nat.cast_pos.mpr hd
  have hlo : (2 : ℚ) ^ ((num.log2 : Int) - den.log2 - 1) = 2 ^ num.log2 / 2 ^ (den.log2 + 1) := by
    rw [sub_sub, zpow_sub₀ two_ne_zero, zpow_natCast]
    rfl
  have hhi : (2 : ℚ) ^ ((num.log2 : Int) - den.log2 + 1) = 2 ^ (num.log2 + 1) / 2 ^ den.log2 := by
    rw [sub_add_eq_add_sub, zpow_sub₀ two_ne_zero, zpow_natCast]
    rfl
  rw [hlo, hhi, div_le_div_iff₀ (by positivity) hpos, div_lt_div_iff₀ hpos (by positivity)]
  exact ⟨mul_le_mul hnum hden'.le hpos.le (Nat.cast_nonneg _),
    mul_lt_mul hnum' hden (by positivity) (by positivity)⟩

/-- The exponent of a quotient is the one at which its whole part has 53 bits, unless that is too small. -/
theorem exists_exponentFor {num den : Nat} (hn : 0 < num) (hd : 0 < den) : ∃ e : Int,
    exponentFor num den = max leastExponent e ∧ (2 : ℚ) ^ 52 * 2 ^ e ≤ num / den ∧
      (num : ℚ) / den < 2 ^ 53 * 2 ^ e := by
  obtain ⟨hlo, hhi⟩ := div_between hn hd
  have hwhole := @le_scaled_iff num den hd (twoPow 53) (num.log2 - den.log2 - 53)
  rw [cast_twoPow] at hwhole
  unfold exponentFor
  dsimp only
  by_cases h : twoPow 53 ≤ (scaled num den (num.log2 - den.log2 - 53)).1 /
      (scaled num den (num.log2 - den.log2 - 53)).2
  · refine ⟨num.log2 - den.log2 - 53 + 1, by rw [if_pos h], ?_, ?_⟩
    · rw [hwhole, two_pow_mul_zpow] at h
      rw [two_pow_mul_zpow]
      convert h using 2
      omega
    · rw [two_pow_mul_zpow]
      convert hhi using 2
      omega
  · refine ⟨num.log2 - den.log2 - 53, by rw [if_neg h], ?_, ?_⟩
    · rw [two_pow_mul_zpow]
      convert hlo using 2
      omega
    · rw [hwhole, not_le] at h
      exact h

theorem zpow_lt_of_mul_le {a b : Int} {r : ℚ} {i j : Nat} (lo : (2 : ℚ) ^ i * 2 ^ a ≤ r) (hi : r < 2 ^ j * 2 ^ b) :
    i + a < j + b := by
  rw [two_pow_mul_zpow] at lo hi
  exact (zpow_lt_zpow_iff_right₀ one_lt_two).mp (lo.trans_lt hi)

theorem exponentFor_eq {num den : Nat} (hd : 0 < den) {e : Int} (hl : leastExponent ≤ e)
    (lo : (2 : ℚ) ^ 52 * 2 ^ e ≤ num / den) (hi : (num : ℚ) / den < 2 ^ 53 * 2 ^ e) : exponentFor num den = e := by
  have hn : 0 < num := by
    rw [Nat.pos_iff_ne_zero]
    rintro rfl
    have := mul_pos (by positivity : (0 : ℚ) < 2 ^ 52) (two_zpow_pos e)
    rw [Nat.cast_zero, zero_div] at lo
    linarith
  obtain ⟨f, hf, lo', hi'⟩ := exists_exponentFor hn hd
  have := zpow_lt_of_mul_le lo hi'
  have := zpow_lt_of_mul_le lo' hi
  rw [hf]
  omega

theorem exponentFor_eq_least {num den : Nat} (hn : 0 < num) (hd : 0 < den)
    (hi : (num : ℚ) / den < 2 ^ 53 * 2 ^ leastExponent) : exponentFor num den = leastExponent := by
  obtain ⟨f, hf, lo', -⟩ := exists_exponentFor hn hd
  have := zpow_lt_of_mul_le lo' hi
  rw [hf]
  omega

/-! ## Rounding -/

theorem ofRatio_eq {num den m : Nat} {e : Int} (hn : 0 < num) (he : exponentFor num den = e)
    (hm : roundQuotient (scaled num den e).1 (scaled num den e).2 = m) (negative : Bool) :
    ofRatio negative num den =
      if m = twoPow 53 then
        if greatestExponent < e + 1 then infinite negative else finite negative (twoPow 52) (e + 1)
      else if greatestExponent < e then infinite negative else finite negative m e := by
  unfold ofRatio
  rw [if_neg hn.ne']
  dsimp only
  rw [he, hm]
  split <;> rfl

/-- **What lies between the midpoints around a canonical number rounds to it.** -/
theorem ofRatio_of_rounds {num den : Nat} (hd : 0 < den) (hc : Canonical m e) (hm : 0 < m)
    (h : Rounds m e (num / den)) (negative : Bool) : ofRatio negative num den = finite negative m e := by
  have hn : 0 < num := by
    have hq := h.pos hm
    rw [Nat.pos_iff_ne_zero]
    rintro rfl
    rw [Nat.cast_zero, zero_div] at hq
    exact lt_irrefl _ hq
  have hpow := two_zpow_pos e
  have hlt : (m : ℚ) + 1 ≤ 2 ^ 53 := by rw [← cast_twoPow]; exact_mod_cast hc.lt
  have hle := h.le_upper
  have hge := (half_le_lower m e).trans h.lower_le
  have htie := h.even_of_eq
  have hgreatest := hc.greatest
  unfold upper at hle htie
  -- Below the power of two the number is, the quotient is rounded at the exponent below and carries.
  by_cases hbelow : (num : ℚ) / den < 2 ^ 52 * 2 ^ e ∧ leastExponent < e
  · obtain ⟨hlow, hleast⟩ := hbelow
    have hfull : m = twoPow 52 := by
      have hge52 : twoPow 52 ≤ m := hc.full.resolve_right hleast.ne'
      have hlt52 : (m : ℚ) < twoPow 52 + 1 := by
        rw [cast_twoPow]
        by_contra hcon
        nlinarith
      have : m < twoPow 52 + 1 := by exact_mod_cast hlt52
      omega
    subst hfull
    have hlower := h.lower_le
    have hpred : (2 : ℚ) ^ e = 2 * 2 ^ (e - 1) := by
      rw [zpow_sub_one₀ two_ne_zero]
      field_simp
    have hppos := two_zpow_pos (e - 1)
    rw [lower, if_pos ⟨rfl, hleast⟩, cast_twoPow, hpred] at hlower
    rw [hpred] at hlow
    have hexp : exponentFor num den = e - 1 := by
      refine exponentFor_eq hd (by omega) ?_ (by linarith)
      linarith
    have hround : roundQuotient (scaled num den (e - 1)).1 (scaled num den (e - 1)).2 = twoPow 53 := by
      refine roundQuotient_eq (scaled_pos hd _) ?_ ?_ fun _ => by decide
      · rw [scaled_div, le_div_iff₀ hppos, cast_twoPow]
        linarith
      · rw [scaled_div, div_le_iff₀ hppos, cast_twoPow]
        linarith
    rw [ofRatio_eq hn hexp hround, if_pos rfl, sub_add_cancel, if_neg (by omega)]
  · have hexp : exponentFor num den = e := by
      have hhi : (num : ℚ) / den < 2 ^ 53 * 2 ^ e := by nlinarith
      rcases hc.least.eq_or_lt with heq | hlt
      · rw [← heq] at hhi ⊢
        exact exponentFor_eq_least hn hd hhi
      · exact exponentFor_eq hd hc.least (not_lt.mp fun hcon => hbelow ⟨hcon, hlt⟩) hhi
    have hround : roundQuotient (scaled num den e).1 (scaled num den e).2 = m := by
      refine roundQuotient_eq (scaled_pos hd _) ?_ ?_ ?_
      · rw [scaled_div, le_div_iff₀ hpow]
        exact hge
      · rw [scaled_div, div_le_iff₀ hpow]
        exact hle
      · rw [scaled_div, div_eq_iff hpow.ne', div_eq_iff hpow.ne']
        rintro (heq | heq)
        · refine htie (Or.inl (le_antisymm ?_ h.lower_le))
          rw [heq]
          exact half_le_lower m e
        · exact htie (Or.inr heq)
    rw [ofRatio_eq hn hexp hround, if_neg hc.lt.ne, if_neg (by omega)]

theorem le_roundQuotient (num den : Nat) : num / den ≤ roundQuotient num den := by
  unfold roundQuotient
  dsimp only
  split
  · exact le_refl _
  split <;> omega

theorem roundQuotient_le (num den : Nat) : roundQuotient num den ≤ num / den + 1 := by
  unfold roundQuotient
  dsimp only
  split
  · exact Nat.le_succ _
  split <;> omega

theorem canonical_zero : Canonical 0 leastExponent := ⟨by decide, le_refl _, by decide, Or.inr rfl⟩

/-- Whatever the quotient is, it rounds to a canonical number or out of range. -/
theorem isDouble_ofRatio (negative : Bool) (num : Nat) {den : Nat} (hd : 0 < den) :
    (ofRatio negative num den).IsDouble := by
  rcases Nat.eq_zero_or_pos num with rfl | hn
  · exact canonical_zero
  obtain ⟨f, hf, hlo, hhi⟩ := exists_exponentFor hn hd
  have hleast : leastExponent ≤ exponentFor num den := by omega
  have hsmall : (scaled num den (exponentFor num den)).1 / (scaled num den (exponentFor num den)).2 <
      twoPow 53 := by
    rw [← Nat.not_le, le_scaled_iff hd, not_le, cast_twoPow]
    have hmono : (2 : ℚ) ^ f ≤ 2 ^ exponentFor num den := zpow_le_zpow_right₀ one_le_two (by omega)
    exact hhi.trans_le (mul_le_mul_of_nonneg_left hmono (by positivity))
  have hfull : exponentFor num den = f → twoPow 52 ≤
      (scaled num den (exponentFor num den)).1 / (scaled num den (exponentFor num den)).2 := by
    rintro rfl
    rwa [le_scaled_iff hd, cast_twoPow]
  have hround := le_roundQuotient (scaled num den (exponentFor num den)).1 (scaled num den (exponentFor num den)).2
  have hround' := roundQuotient_le (scaled num den (exponentFor num den)).1 (scaled num den (exponentFor num den)).2
  rw [ofRatio_eq hn rfl rfl]
  generalize roundQuotient (scaled num den (exponentFor num den)).1 (scaled num den (exponentFor num den)).2 =
    m at *
  generalize exponentFor num den = e at *
  by_cases hm : m = twoPow 53
  · rw [if_pos hm]
    by_cases he : greatestExponent < e + 1
    · rw [if_pos he]
      trivial
    · rw [if_neg he]
      exact ⟨by decide, by omega, by omega, Or.inl (le_refl _)⟩
  · rw [if_neg hm]
    by_cases he : greatestExponent < e
    · rw [if_pos he]
      trivial
    · rw [if_neg he]
      refine ⟨by omega, hleast, by omega, ?_⟩
      by_cases hmax : e = leastExponent
      · exact Or.inr hmax
      · exact Or.inl ((hfull (by omega)).trans hround)

/-! ## Decimals -/

theorem ten_zpow_pos (e : Int) : (0 : ℚ) < 10 ^ e := zpow_pos (by norm_num) e

theorem ten_zpow_lt {a b : Int} (h : (10 : ℚ) ^ a < 10 ^ b) : a < b :=
  (zpow_lt_zpow_iff_right₀ (by norm_num)).mp h

theorem digits_between {n : Nat} (hn : 0 < n) :
    (10 : ℚ) ^ (((Nat.toDigits 10 n).length : Int) - 1) ≤ n ∧
      (n : ℚ) < 10 ^ ((Nat.toDigits 10 n).length : Int) := by
  have hpos : 0 < (Nat.toDigits 10 n).length := Nat.length_toDigits_pos
  constructor
  · obtain ⟨k, hk⟩ := Nat.exists_eq_succ_of_ne_zero hpos.ne'
    rw [hk, Nat.succ_eq_add_one, Nat.cast_add_one, add_sub_cancel_right, zpow_natCast]
    rcases Nat.eq_zero_or_pos k with rfl | hkpos
    · rw [pow_zero, Nat.one_le_cast]
      exact hn
    · have hlong : ¬ (Nat.toDigits 10 n).length ≤ k := by omega
      rw [Nat.length_toDigits_le_iff (by decide) hkpos, Nat.not_lt] at hlong
      exact_mod_cast hlong
  · rw [zpow_natCast]
    exact_mod_cast (Nat.length_toDigits_le_iff (by decide) hpos).mp (le_refl _)

/-- The sizes at which decimals are settled without rounding lie far outside of the canonical numbers. -/
theorem upper_lt (hc : Canonical m e) : upper m e < 10 ^ (400 : Int) := by
  have hm : (m : ℚ) + 1 / 2 ≤ 2 ^ 53 := by
    have : (m : ℚ) + 1 ≤ 2 ^ 53 := by rw [← cast_twoPow]; exact_mod_cast hc.lt
    linarith
  have hsize : ((twoPow 1024 : ℕ) : ℚ) < (tenPow 400 : ℕ) := Nat.cast_lt.mpr (by decide +kernel)
  rw [cast_twoPow, cast_tenPow] at hsize
  calc upper m e ≤ 2 ^ 53 * 2 ^ e := mul_le_mul_of_nonneg_right hm (two_zpow_pos e).le
    _ ≤ 2 ^ 53 * 2 ^ greatestExponent :=
      mul_le_mul_of_nonneg_left (zpow_le_zpow_right₀ one_le_two hc.greatest) (by positivity)
    _ = 2 ^ 1024 := by
      rw [two_pow_mul_zpow, ← zpow_natCast]
      rfl
    _ < 10 ^ 400 := hsize
    _ = 10 ^ (400 : Int) := (zpow_natCast 10 400).symm

theorem lt_lower (hc : Canonical m e) (hm : 0 < m) : (10 : ℚ) ^ (-400 : Int) < lower m e := by
  have hone : (1 : ℚ) ≤ m := Nat.one_le_cast.mpr hm
  have hsize : ((twoPow 1075 : ℕ) : ℚ) < (tenPow 400 : ℕ) := Nat.cast_lt.mpr (by decide +kernel)
  rw [cast_twoPow, cast_tenPow] at hsize
  have hhalf : (1 / 2 : ℚ) * 2 ^ leastExponent = (2 ^ 1075)⁻¹ := by
    have hexp : (1 / 2 : ℚ) = 2 ^ (-1 : Int) := by norm_num
    rw [hexp, ← zpow_add₀ two_ne_zero, ← zpow_natCast, ← zpow_neg]
    rfl
  calc (10 : ℚ) ^ (-400 : Int) = (10 ^ 400)⁻¹ := by
        rw [← zpow_natCast, ← zpow_neg]
        rfl
    _ < (2 ^ 1075)⁻¹ := inv_strictAnti₀ (by positivity) hsize
    _ = 1 / 2 * 2 ^ leastExponent := hhalf.symm
    _ ≤ (m - 1 / 2) * 2 ^ e :=
      mul_le_mul (by linarith) (zpow_le_zpow_right₀ one_le_two hc.least) (two_zpow_pos _).le (by linarith)
    _ ≤ lower m e := half_le_lower m e

/-- **Decimals between the midpoints around a canonical number are read as it.** -/
theorem ofDecimal_of_rounds {digits : Nat} {exponent : Int} (hc : Canonical m e) (hm : 0 < m)
    (h : Rounds m e (digits * 10 ^ exponent)) (negative : Bool) :
    ofDecimal negative digits exponent = finite negative m e := by
  have hpos := h.pos hm
  have hten := ten_zpow_pos exponent
  have hdigits : 0 < digits := by
    rw [Nat.pos_iff_ne_zero]
    rintro rfl
    rw [Nat.cast_zero, zero_mul] at hpos
    exact lt_irrefl _ hpos
  obtain ⟨hfrom, hto⟩ := digits_between hdigits
  have hsmall : ((Nat.toDigits 10 digits).length : Int) - 1 + exponent < 400 := by
    refine ten_zpow_lt (lt_of_le_of_lt ?_ (upper_lt hc))
    rw [zpow_add₀ (by norm_num)]
    exact (mul_le_mul_of_nonneg_right hfrom hten.le).trans h.le_upper
  have hlarge : -400 < ((Nat.toDigits 10 digits).length : Int) + exponent := by
    refine ten_zpow_lt ((lt_lower hc hm).trans_le (h.lower_le.trans ?_))
    rw [zpow_add₀ (by norm_num)]
    exact (mul_lt_mul_of_pos_right hto hten).le
  unfold ofDecimal
  dsimp only
  rw [if_neg hdigits.ne', if_neg (by omega), if_neg (by omega)]
  split
  · rename_i he
    refine ofRatio_of_rounds Nat.one_pos hc hm ?_ negative
    rw [Nat.cast_one, div_one, Nat.cast_mul, cast_tenPow, ← zpow_natCast, Int.toNat_of_nonneg he]
    exact h
  · rename_i he
    refine ofRatio_of_rounds (tenPow_pos _) hc hm ?_ negative
    rw [cast_tenPow, ← zpow_natCast, Int.toNat_of_nonneg (by omega), zpow_neg, div_inv_eq_mul]
    exact h

/-! ## Whole numbers -/

def toRat : Binary64 → ℚ
  | finite negative m e => (if negative then -1 else 1) * (m * 2 ^ e)
  | _ => 0

theorem cast_signed (negative : Bool) (n : Nat) :
    ((signed negative n : Int) : ℚ) = (if negative then -1 else 1) * n := by
  cases negative <;> simp [signed]

theorem twoPow_zero : twoPow 0 = 1 := rfl

theorem whole?_finite (negative : Bool) (m : Nat) (e : Int) : (finite negative m e).whole? =
    if twoPow (-e).toNat ∣ m * twoPow e.toNat then
      some (signed negative (m * twoPow e.toNat / twoPow (-e).toNat)) else none := by
  by_cases he : 0 ≤ e
  · have hdown : (-e).toNat = 0 := by omega
    simp [whole?, he, hdown, twoPow_zero]
  · have hup : e.toNat = 0 := by omega
    by_cases hdvd : twoPow (-e).toNat ∣ m
    · simp [whole?, he, hup, twoPow_zero, hdvd, Nat.dvd_iff_mod_eq_zero.mp hdvd]
    · simp [whole?, he, hup, twoPow_zero, hdvd, mt Nat.dvd_iff_mod_eq_zero.mpr hdvd]

theorem magnitude_eq (m : Nat) (e : Int) :
    (m : ℚ) * 2 ^ e = ((m * twoPow e.toNat : Nat) : ℚ) / (twoPow (-e).toNat : Nat) := by
  have hsplit : (2 : ℚ) ^ e.toNat / 2 ^ (-e).toNat = 2 ^ e := by
    rw [← zpow_natCast, ← zpow_natCast, ← zpow_sub₀ two_ne_zero]
    congr 1
    omega
  rw [Nat.cast_mul, cast_twoPow, cast_twoPow, mul_div_assoc, hsplit]

theorem whole?_eq_some_iff {negative : Bool} {m : Nat} {e n : Int} :
    (finite negative m e).whole? = some n ↔ (finite negative m e).toRat = n := by
  have hpos : (0 : ℚ) < (twoPow (-e).toNat : Nat) := Nat.cast_pos.mpr (twoPow_pos _)
  rw [whole?_finite, toRat, magnitude_eq]
  generalize m * twoPow e.toNat = num
  generalize twoPow (-e).toNat = den at *
  constructor
  · intro h
    split at h
    · rename_i hdvd
      rw [← Option.some.inj h, cast_signed, Nat.cast_div hdvd hpos.ne']
    · cases h
  · intro h
    have hnum : (num : Int) = signed negative 1 * n * den := by
      have hrat : (num : ℚ) = (if negative then -1 else 1) * n * den := by
        rw [← h]
        cases negative <;> field_simp <;> simp
      rw [← @Int.cast_inj ℚ]
      push_cast
      rw [cast_signed, hrat]
      simp
    have hdvd : den ∣ num := Int.natCast_dvd_natCast.mp ⟨signed negative 1 * n, by rw [hnum]; ring⟩
    rw [if_pos hdvd, Option.some.injEq, ← @Int.cast_inj ℚ, cast_signed, Nat.cast_div hdvd hpos.ne', h]

end Binary64

end DefiActions
