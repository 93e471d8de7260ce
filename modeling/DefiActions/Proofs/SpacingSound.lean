import DefiActions.Proofs.BlameLemmas
import DefiActions.Proofs.TickSound
import Mathlib.Algebra.Order.Group.Unbundled.Int

/-!
# Usable ticks

The usable ticks of a spacing are its multiples within the bounds. A tick is
rounded to the nearest multiple, and from a multiple past a bound one step
inwards. The step ends at the outermost usable tick for all ticks within the
bounds, and for those outside that are less than one and a half steps away from
it. From farther out one step is too short.
-/

namespace DefiActions.Tick

variable {t s q r m : Int}

/-! ## Multiples of a spacing -/

theorem add_le_of_dvd {a b : Int} (ha : s ∣ a) (hb : s ∣ b) (h : a < b) : a + s ≤ b := by
  have hle := Int.le_of_dvd (Int.sub_pos.mpr h) (Int.dvd_sub hb ha)
  omega

/-- The tick is less than half a step from the multiple, or half a step below it. -/
structure Rounds (s t q : Int) : Prop where
  multiple : s ∣ q
  lower : 2 * q - s ≤ 2 * t
  upper : 2 * t < 2 * q + s

def inward (s q : Int) : Int := if q < least then q + s else if greatest < q then q - s else q

theorem exists_rounds (hs : 0 < s) (t : Int) : ∃ q, Rounds s t q ∧ nearestUsable t s = .ok (inward s q) := by
  have hd : 0 < 2 * s := by omega
  have hsplit := Int.emod_add_mul_ediv (2 * t + s) (2 * s)
  rw [Int.mul_assoc, Int.mul_comm s] at hsplit
  have hnonneg := Int.emod_nonneg (2 * t + s) hd.ne'
  have hlt := Int.emod_lt_of_pos (2 * t + s) hd
  refine ⟨(2 * t + s) / (2 * s) * s, ⟨Int.dvd_mul_left _ _, by omega, by omega⟩, ?_⟩
  unfold nearestUsable
  rw [if_neg (by omega), Int.fdiv_eq_ediv_of_nonneg _ hd.le]
  rfl

theorem dvd_inward (h : s ∣ q) : s ∣ inward s q := by
  unfold inward
  split
  · exact Int.dvd_add h (Int.dvd_refl s)
  split
  · exact Int.dvd_sub h (Int.dvd_refl s)
  · exact h

/-! ## Usable ticks -/

theorem least_eq : least = -greatest := rfl

structure Usable (s m : Int) : Prop where
  multiple : s ∣ m
  lower : least ≤ m
  upper : m ≤ greatest

/-- The greatest usable tick; the least one is opposite to it. -/
def outermost (s : Int) : Int := greatest / s * s

theorem dvd_outermost (s : Int) : s ∣ outermost s := Int.dvd_mul_left _ _

theorem outermost_bounds (hs : 0 < s) : 0 ≤ outermost s ∧ outermost s ≤ greatest ∧ greatest < outermost s + s := by
  have hnonneg : 0 ≤ greatest / s := Int.ediv_nonneg (by decide) hs.le
  have hlt := Int.lt_ediv_add_one_mul_self greatest hs
  rw [Int.add_mul, Int.one_mul] at hlt
  exact ⟨Int.mul_nonneg hnonneg hs.le, Int.ediv_mul_le _ hs.ne', hlt⟩

theorem usable_iff (hs : 0 < s) : Usable s m ↔ s ∣ m ∧ -outermost s ≤ m ∧ m ≤ outermost s := by
  obtain ⟨-, hle, hlt⟩ := outermost_bounds hs
  have hopposite := least_eq
  constructor
  · rintro ⟨hm, hlower, hupper⟩
    refine ⟨hm, Int.not_lt.mp fun h => ?_, Int.not_lt.mp fun h => ?_⟩
    · have := add_le_of_dvd hm (Int.dvd_neg.mpr (dvd_outermost s)) h
      omega
    · have := add_le_of_dvd (dvd_outermost s) hm h
      omega
  · rintro ⟨hm, hlower, hupper⟩
    exact ⟨hm, by omega, by omega⟩

/-- A usable tick such that none is nearer to `t`; of those as near it is the greatest. -/
structure Nearest (s t r : Int) : Prop where
  usable : Usable s r
  nearest : ∀ m, Usable s m → |r - t| ≤ |m - t|
  greatest : ∀ m, Usable s m → |m - t| = |r - t| → m ≤ r

namespace Nearest

/-- Every usable tick is farther away, or as near and no greater. -/
theorem of_forall (hr : Usable s r) (h : ∀ m, Usable s m →
    (r - t).natAbs < (m - t).natAbs ∨ (r - t).natAbs = (m - t).natAbs ∧ m ≤ r) : Nearest s t r := by
  refine ⟨hr, fun m hm => ?_, fun m hm hequal => ?_⟩
  · have hfarther := h m hm
    rw [Int.abs_eq_natAbs, Int.abs_eq_natAbs]
    omega
  · have hfarther := h m hm
    rw [Int.abs_eq_natAbs, Int.abs_eq_natAbs] at hequal
    omega

theorem of_rounds (hq : Rounds s t q) (hu : Usable s q) : Nearest s t q := by
  obtain ⟨hdvd, hlower, hupper⟩ := hq
  refine of_forall hu fun m hm => ?_
  -- Another multiple is a whole step away, of which the tick is within half.
  rcases lt_trichotomy m q with h | h | h
  · have hstep := add_le_of_dvd hm.multiple hdvd h
    omega
  · omega
  · have hstep := add_le_of_dvd hdvd hm.multiple h
    omega

/-- Of a tick that is above them, the greatest usable tick is the nearest. -/
theorem of_above (hs : 0 < s) (ht : outermost s ≤ t) : Nearest s t (outermost s) := by
  have hnonneg := (outermost_bounds hs).1
  refine of_forall ((usable_iff hs).mpr ⟨dvd_outermost s, by omega, Int.le_refl _⟩) fun m hm => ?_
  have hm := ((usable_iff hs).mp hm).2.2
  omega

theorem of_below (hs : 0 < s) (ht : t ≤ -outermost s) : Nearest s t (-outermost s) := by
  have hnonneg := (outermost_bounds hs).1
  refine of_forall ((usable_iff hs).mpr ⟨Int.dvd_neg.mpr (dvd_outermost s), Int.le_refl _, by omega⟩) fun m hm => ?_
  have hm := ((usable_iff hs).mp hm).2.1
  omega

end Nearest

/-! ## One step inwards -/

def Reached (s t : Int) : Prop := -(2 * outermost s + 3 * s) ≤ 2 * t ∧ 2 * t < 2 * outermost s + 3 * s

instance (s t : Int) : Decidable (Reached s t) := inferInstanceAs (Decidable (_ ∧ _))

theorem reached_of_bounds (hs : 0 < s) (hl : least ≤ t) (hg : t ≤ greatest) : Reached s t := by
  have hlt := (outermost_bounds hs).2.2
  rw [least_eq] at hl
  exact ⟨by omega, by omega⟩

def Ends (s t r : Int) : Prop := Reached s t ∧ Nearest s t r ∨ ¬ Reached s t ∧ ¬ Usable s r

theorem ends_of_below (hs : 0 < s) (hq : Rounds s t q) (h : q < least) : Ends s t (q + s) := by
  obtain ⟨hnonneg, hle, -⟩ := outermost_bounds hs
  have hdvd := Int.dvd_neg.mpr (dvd_outermost s)
  obtain ⟨hmultiple, hlower, hupper⟩ := hq
  rw [least_eq] at h
  unfold Ends Reached
  -- The multiple is the first one past the bound, or two steps at least would be needed.
  rcases Int.lt_or_eq_of_le (add_le_of_dvd hmultiple hdvd (by omega)) with hshort | hends
  · have hstep := add_le_of_dvd (Int.dvd_add hmultiple (Int.dvd_refl s)) hdvd hshort
    refine .inr ⟨by omega, fun husable => ?_⟩
    exact absurd ((usable_iff hs).mp husable).2.1 (by omega)
  · rw [hends]
    exact .inl ⟨by omega, .of_below hs (by omega)⟩

theorem ends_of_above (hs : 0 < s) (hq : Rounds s t q) (h : greatest < q) : Ends s t (q - s) := by
  obtain ⟨hnonneg, hle, -⟩ := outermost_bounds hs
  have hdvd := dvd_outermost s
  obtain ⟨hmultiple, hlower, hupper⟩ := hq
  unfold Ends Reached
  rcases Int.lt_or_eq_of_le (add_le_of_dvd hdvd hmultiple (by omega)) with hshort | hends
  · have hstep := add_le_of_dvd (Int.dvd_add hdvd (Int.dvd_refl s)) hmultiple hshort
    refine .inr ⟨by omega, fun husable => ?_⟩
    exact absurd ((usable_iff hs).mp husable).2.2 (by omega)
  · have hinward : q - s = outermost s := by omega
    rw [hinward]
    exact .inl ⟨by omega, .of_above hs (by omega)⟩

theorem ends_inward (hs : 0 < s) (hq : Rounds s t q) : Ends s t (inward s q) := by
  unfold inward
  split
  · rename_i hbelow
    exact ends_of_below hs hq hbelow
  split
  · rename_i habove
    exact ends_of_above hs hq habove
  · have husable : Usable s q := ⟨hq.multiple, by omega, by omega⟩
    obtain ⟨-, hlow, hhigh⟩ := (usable_iff hs).mp husable
    have hlower := hq.lower
    have hupper := hq.upper
    exact .inl ⟨⟨by omega, by omega⟩, .of_rounds hq husable⟩

/-- **Ticks within the bounds are rounded to the nearest usable tick**, the upper one of two equally near. -/
theorem nearestUsable_nearest {t s : Int} (hs : 0 < s) (hl : least ≤ t) (hg : t ≤ greatest) :
    ∃ r, nearestUsable t s = .ok r ∧ Nearest s t r := by
  obtain ⟨q, hq, hr⟩ := exists_rounds hs t
  rcases ends_inward hs hq with ⟨-, hnearest⟩ | ⟨hfar, -⟩
  · exact ⟨_, hr, hnearest⟩
  · exact absurd (reached_of_bounds hs hl hg) hfar

/-- At a bound that is no multiple, and with a spacing that has no usable tick but zero. -/
theorem bounds_nearest : (0 < (60 : Int) ∧ least ≤ greatest ∧ greatest ≤ greatest) ∧
    nearestUsable greatest 60 = .ok 887220 ∧ Nearest 60 greatest 887220 ∧
    nearestUsable least 1000000 = .ok 0 ∧ Nearest 1000000 least 0 := by
  have h : nearestUsable greatest 60 = .ok 887220 := eq_ok_of_isOk (by decide)
  have h' : nearestUsable least 1000000 = .ok 0 := eq_ok_of_isOk (by decide)
  obtain ⟨r, hr, hnearest⟩ := @nearestUsable_nearest greatest 60 (by decide) (by decide) (by decide)
  obtain ⟨r', hr', hnearest'⟩ := @nearestUsable_nearest least 1000000 (by decide) (by decide) (by decide)
  obtain rfl := Except.ok.inj (hr.symm.trans h)
  obtain rfl := Except.ok.inj (hr'.symm.trans h')
  exact ⟨⟨by decide, by decide, by decide⟩, h, hnearest, h', hnearest'⟩

theorem exists_sqrtRatio_iff : (∃ p, sqrtRatio r = .ok p) ↔ least ≤ r ∧ r ≤ greatest := by
  rw [← natAbs_le_iff]
  constructor
  · rintro ⟨p, hp⟩
    exact (sqrtRatio_eq_ok hp).1
  · exact fun hr => ⟨_, sqrtRatio_of_le hr⟩

/-- **Which ticks are rounded to one with a ratio.** Every tick is rounded to a multiple of the spacing. That is
within the bounds, has a ratio and is the nearest usable tick exactly when the tick is no farther than one and a
half steps outside the usable ticks. -/
theorem rounded_usable_iff {t s : Int} (hs : 0 < s) :
    ∃ r, nearestUsable t s = .ok r ∧ s ∣ r ∧ (least ≤ r ∧ r ≤ greatest ↔ Reached s t) ∧
      ((∃ p, sqrtRatio r = .ok p) ↔ Reached s t) ∧ (Nearest s t r ↔ Reached s t) := by
  obtain ⟨q, hq, hr⟩ := exists_rounds hs t
  have hdvd := dvd_inward hq.multiple
  rcases ends_inward hs hq with ⟨hreached, hnearest⟩ | ⟨hfar, hunusable⟩
  · have hbounds := And.intro hnearest.usable.lower hnearest.usable.upper
    exact ⟨_, hr, hdvd, iff_of_true hbounds hreached, iff_of_true (exists_sqrtRatio_iff.mpr hbounds) hreached,
      iff_of_true hnearest hreached⟩
  · have hpast : ¬ (least ≤ inward s q ∧ inward s q ≤ greatest) := fun h => hunusable ⟨hdvd, h.1, h.2⟩
    exact ⟨_, hr, hdvd, iff_of_false hpast hfar, iff_of_false (mt exists_sqrtRatio_iff.mp hpast) hfar,
      iff_of_false (fun h => hunusable h.usable) hfar⟩

/-- Of two neighbours one and a half steps out, one is rounded to a tick with a ratio and the other is not. -/
theorem some_rounded_usable : 0 < (60 : Int) ∧ (∃ p, nearestUsable 887309 60 >>= sqrtRatio = .ok p) ∧
    ∀ p, nearestUsable 887310 60 >>= sqrtRatio ≠ .ok p := by
  obtain ⟨r, hr, -, -, hratio, -⟩ := @rounded_usable_iff 887309 60 (by decide)
  obtain ⟨r', hr', -, -, hratio', -⟩ := @rounded_usable_iff 887310 60 (by decide)
  have hreached : Reached 60 887309 := by decide
  have hfar : ¬ Reached 60 887310 := by decide
  refine ⟨by decide, ?_, fun p hp => ?_⟩
  · rw [hr]
    exact hratio.mpr hreached
  · rw [hr'] at hp
    exact hfar (hratio'.mp ⟨p, hp⟩)

/-- From far out the step does not come back to the bounds, and ends away from the nearest usable tick. -/
theorem rounded_past_bounds : nearestUsable 1000000 60 = .ok 999960 ∧ greatest < 999960 ∧
    (∃ f, sqrtRatio 999960 = .error f ∧ f.label = "ValueError") ∧ Nearest 60 1000000 887220 :=
  ⟨eq_ok_of_isOk (by decide), by decide, ⟨_, sqrtRatio_of_outside (by decide), Failure.label_ofRejection _⟩,
    .of_above (by decide) (by decide)⟩

end DefiActions.Tick
