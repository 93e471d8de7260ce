import DefiActions.Decimal
import DefiActions.Proofs.RoundingSound
import Mathlib.Data.Nat.Cast.Order.Field
import Mathlib.Tactic.Ring

/-!
# Shortest decimals read back

The shortest decimal of a canonical number lies between the midpoints around it,
so that it is read as that number: of the grid points with seventeen digits the
nearest one always lies there.
-/

namespace DefiActions.Binary64

variable {m : Nat} {e : Int}

def GridPoint.value (p : GridPoint) : ℚ := p.digits * 10 ^ p.exponent

/-! ## Comparing -/

theorem pow_toNat {a : ℚ} (ha : a ≠ 0) (s : Int) : a ^ s.toNat = a ^ s * a ^ (-s).toNat := by
  rw [← zpow_natCast, ← zpow_natCast, ← zpow_add₀ ha]
  congr 1
  omega

theorem commonScale_eq (x : Nat) (s : Int) (d : Nat) (t : Int) : ∃ c : ℚ, 0 < c ∧
    ((commonScale x s d t).1 : ℚ) = x * 2 ^ s * c ∧ ((commonScale x s d t).2 : ℚ) = d * 10 ^ t * c := by
  refine ⟨2 ^ (-s).toNat * 10 ^ (-t).toNat, by positivity, ?_, ?_⟩
  · simp only [commonScale, Nat.cast_mul, cast_twoPow, cast_tenPow, pow_toNat two_ne_zero s]
    ring
  · have hten : (10 : ℚ) ≠ 0 := by norm_num
    simp only [commonScale, Nat.cast_mul, cast_twoPow, cast_tenPow, pow_toNat hten t]
    ring

theorem commonScale_lt_iff {x : Nat} {s : Int} {d : Nat} {t : Int} :
    (commonScale x s d t).1 < (commonScale x s d t).2 ↔ (x : ℚ) * 2 ^ s < d * 10 ^ t := by
  obtain ⟨c, hc, h₁, h₂⟩ := commonScale_eq x s d t
  rw [← @Nat.cast_lt ℚ, h₁, h₂, mul_lt_mul_iff_left₀ hc]

theorem lt_commonScale_iff {x : Nat} {s : Int} {d : Nat} {t : Int} :
    (commonScale x s d t).2 < (commonScale x s d t).1 ↔ (d : ℚ) * 10 ^ t < x * 2 ^ s := by
  obtain ⟨c, hc, h₁, h₂⟩ := commonScale_eq x s d t
  rw [← @Nat.cast_lt ℚ, h₁, h₂, mul_lt_mul_iff_left₀ hc]

theorem quarters (x : ℚ) (e : Int) : 4 * x * 2 ^ (e - 2) = x * 2 ^ e := by
  rw [zpow_sub₀ two_ne_zero]
  ring

/-- A grid point reads back as a number exactly where it rounds to it. -/
theorem readsBack_iff (hm : 0 < m) {p : GridPoint} : readsBack m e p = true ↔ Rounds m e p.value := by
  have hlower : (((if m = twoPow 52 ∧ leastExponent < e then 4 * m - 1 else 4 * m - 2 : Nat) : ℚ)) * 2 ^ (e - 2) =
      lower m e := by
    unfold lower
    rw [← quarters _ e]
    congr 1
    split
    · rw [Nat.cast_sub (by omega)]
      push_cast
      ring
    · rw [Nat.cast_sub (by omega)]
      push_cast
      ring
  have hupper : ((4 * m + 2 : Nat) : ℚ) * 2 ^ (e - 2) = upper m e := by
    unfold upper
    rw [← quarters _ e]
    congr 1
    push_cast
    ring
  unfold readsBack Rounds GridPoint.value
  dsimp only
  rw [← hlower, ← hupper]
  split
  · simp only [Bool.and_eq_true, decide_eq_true_eq, ← not_lt, commonScale_lt_iff, lt_commonScale_iff]
  · simp only [Bool.and_eq_true, decide_eq_true_eq, commonScale_lt_iff, lt_commonScale_iff]

theorem digits_ne_zero_of_rounds (hm : 0 < m) {p : GridPoint} (h : Rounds m e p.value) : p.digits ≠ 0 := by
  intro hzero
  have hvalue := h.pos hm
  rw [GridPoint.value, hzero, Nat.cast_zero, zero_mul] at hvalue
  exact lt_irrefl _ hvalue

/-! ## Neighbours on a grid -/

theorem exists_near (m : Nat) (e t : Int) :
    ∃ p ∈ gridNeighbours m e t, p.value - m * 2 ^ e ≤ 10 ^ t / 2 ∧ m * 2 ^ e - p.value ≤ 10 ^ t / 2 := by
  obtain ⟨c, hc, hv, hunit⟩ := commonScale_eq m e 1 t
  have hstep := ten_zpow_pos t
  unfold gridNeighbours GridPoint.value
  dsimp only
  generalize commonScale m e 1 t = scale at *
  obtain ⟨v, unit⟩ := scale
  dsimp only at *
  rw [Nat.cast_one, one_mul] at hunit
  have hpos : 0 < unit := by
    rw [← @Nat.cast_pos ℚ, hunit]
    exact mul_pos hstep hc
  have hsplit : (v : ℚ) = unit * (v / unit : Nat) + (v % unit : Nat) := by
    exact_mod_cast (Nat.div_add_mod v unit).symm
  have hlt : ((v % unit : Nat) : ℚ) < unit := Nat.cast_lt.mpr (Nat.mod_lt v hpos)
  have hrest : (0 : ℚ) ≤ (v % unit : Nat) := Nat.cast_nonneg _
  rw [hv, hunit] at hsplit
  -- The nearer neighbour is the lower one where the remainder is at most half a step.
  by_cases hlow : 2 * (v % unit) ≤ unit
  · refine ⟨⟨v / unit, t⟩, by split <;> simp, ?_⟩
    have hhalf : 2 * ((v % unit : Nat) : ℚ) ≤ 10 ^ t * c := by
      rw [← hunit]
      exact_mod_cast hlow
    exact ⟨le_of_mul_le_mul_right (by linarith) hc, le_of_mul_le_mul_right (by linarith) hc⟩
  · refine ⟨⟨v / unit + 1, t⟩, by split <;> simp, ?_⟩
    have hhalf : 10 ^ t * c ≤ 2 * ((v % unit : Nat) : ℚ) := by
      rw [← hunit]
      exact_mod_cast (Nat.not_le.mp hlow).le
    rw [hunit] at hlt
    rw [Nat.cast_add_one]
    exact ⟨le_of_mul_le_mul_right (by linarith) hc, le_of_mul_le_mul_right (by linarith) hc⟩

/-! ## Seventeen digits -/

theorem le_magnitude (hc : Canonical m e) (hm : 0 < m) : (10 : ℚ) ^ (decimalExponent m e - 1) ≤ m * 2 ^ e := by
  have hsize := hc.least
  have htwo := two_zpow_pos e
  have hone : (1 : ℚ) ≤ m := Nat.one_le_cast.mpr hm
  have hdown : (0 : ℚ) < 2 ^ (-e).toNat := by positivity
  have hnat : ((m * tenPow 400 * twoPow e.toNat / twoPow (-e).toNat : Nat) : ℚ) ≤ m * 2 ^ e * 10 ^ 400 := by
    refine Nat.cast_div_le.trans ?_
    rw [Nat.cast_mul, Nat.cast_mul, cast_twoPow, cast_twoPow, cast_tenPow, pow_toNat two_ne_zero e,
      div_le_iff₀ hdown]
    generalize (10 : ℚ) ^ 400 = c
    exact le_of_eq (by ring)
  have hpos : 0 < m * tenPow 400 * twoPow e.toNat / twoPow (-e).toNat := by
    refine Nat.div_pos ?_ (twoPow_pos _)
    calc twoPow (-e).toNat ≤ twoPow 1074 := twoPow_le_twoPow (by unfold leastExponent at hsize; omega)
      _ ≤ tenPow 400 := by decide +kernel
      _ ≤ m * tenPow 400 := Nat.le_mul_of_pos_left _ hm
      _ ≤ m * tenPow 400 * twoPow e.toNat := Nat.le_mul_of_pos_right _ (twoPow_pos _)
  have hfrom := (digits_between hpos).1.trans hnat
  unfold decimalExponent
  dsimp only
  generalize (Nat.toDigits 10 (m * tenPow 400 * twoPow e.toNat / twoPow (-e).toNat)).length = n at *
  have hsplit : (10 : ℚ) ^ ((n : Int) - 400 - 1) * 10 ^ 400 = 10 ^ ((n : Int) - 1) := by
    rw [← zpow_natCast, ← zpow_add₀ (by norm_num)]
    congr 1
    omega
  rw [← hsplit] at hfrom
  exact le_of_mul_le_mul_right hfrom (by positivity)

/-- With seventeen digits the nearest grid point is between the midpoints. -/
theorem rounds_of_near (hc : Canonical m e) (hm : 0 < m) {q : ℚ}
    (hq : q - m * 2 ^ e ≤ 10 ^ (decimalExponent m e - 17) / 2)
    (hq' : m * 2 ^ e - q ≤ 10 ^ (decimalExponent m e - 17) / 2) :
    Rounds m e q := by
  have htwo := two_zpow_pos e
  have hlt : (m : ℚ) + 1 ≤ 2 ^ 53 := by rw [← cast_twoPow]; exact_mod_cast hc.lt
  have hstep : (10 : ℚ) ^ (decimalExponent m e - 17) * 10 ^ 16 ≤ m * 2 ^ e := by
    refine le_trans (le_of_eq ?_) (le_magnitude hc hm)
    rw [← zpow_natCast, ← zpow_add₀ (by norm_num)]
    congr 1
    omega
  -- Half a step is less than half the distance to the next number, and less than a quarter of it at a power of two.
  generalize (10 : ℚ) ^ (decimalExponent m e - 17) = step at *
  refine rounds_of_between ?_ ?_
  · unfold lower
    generalize (2 : ℚ) ^ e = unit at *
    split
    · rename_i hpow
      obtain ⟨rfl, -⟩ := hpow
      rw [cast_twoPow] at hq' hstep ⊢
      linarith
    · nlinarith
  · unfold upper
    generalize (2 : ℚ) ^ e = unit at *
    nlinarith

/-- The search ends at a point that reads back when the finest grid has one near the number. -/
theorem readsBack_shortestFrom {k : Int} (h : ∃ p ∈ gridNeighbours m e (k - 17), readsBack m e p = true)
    (tries : Nat) : readsBack m e (shortestFrom m e k (tries + 1)) = true := by
  induction tries with
  | zero =>
    obtain ⟨p, hp, hback⟩ := h
    unfold shortestFrom
    rw [Nat.cast_zero, sub_zero]
    cases hfind : (gridNeighbours m e (k - 17)).find? (readsBack m e) with
    | some p => exact List.find?_some hfind
    | none => exact absurd hback (List.find?_eq_none.mp hfind p hp)
  | succ tries ih =>
    unfold shortestFrom
    cases hfind : (gridNeighbours m e (k - (17 - (tries + 1 : Nat)))).find? (readsBack m e) with
    | some p => exact List.find?_some hfind
    | none => exact ih

theorem readsBack_shortest (hc : Canonical m e) (hm : 0 < m) : readsBack m e (shortest m e) = true := by
  obtain ⟨p, hp, hnear, hnear'⟩ := exists_near m e (decimalExponent m e - 17)
  have hback : readsBack m e p = true := (readsBack_iff hm).mpr (rounds_of_near hc hm hnear hnear')
  unfold shortest
  generalize decimalExponent m e = k at *
  exact readsBack_shortestFrom ⟨p, hp, hback⟩ 16

/-- **The shortest decimal of a canonical number rounds to it.** -/
theorem rounds_shortest (hc : Canonical m e) (hm : 0 < m) : Rounds m e (shortest m e).value :=
  (readsBack_iff hm).mp (readsBack_shortest hc hm)

end DefiActions.Binary64
