import DefiActions.Proofs.AnswerSound
import DefiActions.Proofs.PlanSound
import DefiActions.Proofs.TickPriceSound
import DefiActions.Proofs.UnlockSound

/-!
# Sized liquidity fits

The bounds of a range are ratios of different ticks, so that they are far enough
apart for the liquidity of any amount of 128 digits to fit 256. Sizing a range
that was accepted never fails, and whether a plan is made does not depend on how
much liquidity was sized.
-/

namespace DefiActions

/-! ## Bounds -/

namespace Tick

theorem bounds_of_checkRange {lower upper : Int} {spacing : Option Int}
    (h : checkRange lower upper spacing = .ok ()) :
    lower < upper ∧ least ≤ lower ∧ upper ≤ greatest := by
  unfold checkRange at h
  split at h
  · exact absurd h refuse_ne_ok
  split at h
  · exact absurd h refuse_ne_ok
  · omega

structure Bounded (lower upper a b : Int) : Prop where
  lower_eq : sqrtRatio lower = .ok a
  upper_eq : sqrtRatio upper = .ok b
  pos : 0 < a
  apart : a ≤ twoPow 15 * (b - a)
  lt : b < twoPow 160

theorem exists_bounded {lower upper : Int} {spacing : Option Int} (h : checkRange lower upper spacing = .ok ()) :
    ∃ a b, Bounded lower upper a b := by
  obtain ⟨hlt, hleast, hgreatest⟩ := bounds_of_checkRange h
  have hl : lower.natAbs ≤ 887272 := natAbs_le_iff.mpr ⟨hleast, by omega⟩
  have hu : upper.natAbs ≤ 887272 := natAbs_le_iff.mpr ⟨by omega, hgreatest⟩
  have hgrowth : (ratio lower : Int) * (2 ^ 15 + 1) ≤ ratio upper * 2 ^ 15 := by
    exact_mod_cast ratio_growth hl hu hlt
  have hfits : greatestRatio < twoPow 160 := by decide
  refine ⟨ratio lower, ratio upper, sqrtRatio_of_le hl, sqrtRatio_of_le hu, ?_, ?_, ?_⟩
  · exact_mod_cast ratio_pos lower
  · rw [cast_twoPow]
    linarith
  · exact lt_of_le_of_lt (ratio_le_greatestRatio hu) hfits

end Tick

/-! ## Sizing -/

namespace Liquidity

variable {a b x y L price : Int} {precision : Precision}

theorem Pays0.lt (h : Pays0 a b x L) (ha : 0 < a) (hab : a < b) (hapart : a ≤ twoPow 15 * (b - a))
    (hb : b < twoPow 160) (hx : 0 ≤ x) (hx' : x < twoPow 128) : L < twoPow 256 := by
  have hd : 0 < b - a := by omega
  rw [cast_twoPow] at hapart hb hx' ⊢
  rw [Pays0, Tick.unit, cast_twoPow] at h
  have hprod : 0 ≤ (2 : Int) ^ 15 * (b - a) * 2 ^ 160 := by positivity
  have hle : L * 2 ^ 96 * (b - a) ≤ 2 ^ 207 * 2 ^ 96 * (b - a) :=
    calc L * 2 ^ 96 * (b - a) ≤ x * (a * b) := h
      _ ≤ x * (2 ^ 15 * (b - a) * 2 ^ 160) :=
          mul_le_mul_of_nonneg_left (mul_le_mul hapart (by omega) (by omega) (by positivity)) hx
      _ ≤ 2 ^ 128 * (2 ^ 15 * (b - a) * 2 ^ 160) := mul_le_mul_of_nonneg_right (by omega) hprod
      _ = 2 ^ 207 * 2 ^ 96 * (b - a) := by ring
  have := le_of_mul_le_mul_right hle hd
  omega

theorem Pays1.lt (h : Pays1 a b y L) (hab : a < b) (hL : 0 ≤ L) (hy : y < twoPow 128) : L < twoPow 256 := by
  have hle : L * 1 ≤ L * (b - a) := mul_le_mul_of_nonneg_left (by omega) hL
  rw [cast_twoPow] at hy ⊢
  rw [Pays1, Tick.unit, cast_twoPow] at h
  omega

theorem exists_maxForRatios (ha : 0 < a) (hapart : a ≤ twoPow 15 * (b - a)) (hb : b < twoPow 160) (hp : 0 < price)
    (hx : 0 ≤ x ∧ x < twoPow 128) (hy : 0 ≤ y ∧ y < twoPow 128) (precision : Precision) :
    ∃ L, maxForRatios price a b x y precision = .ok L ∧ L < twoPow 256 := by
  have hab : a < b := by
    rw [cast_twoPow] at hapart
    omega
  obtain ⟨L, hL, hpaid⟩ := exists_paid hp hab hx.1 hy.1 precision
  refine ⟨L, hL, ?_⟩
  by_cases habove : a < price
  · -- the price can be next to the upper bound, where only the amount of token 1 keeps the liquidity small
    have hclamp : a < clamp price a b := by unfold clamp; omega
    exact hpaid.token1.lt hclamp hpaid.nonneg hy.2
  · have hpays := hpaid.token0
    rw [clamp_below hab (Int.not_lt.mp habove)] at hpays
    exact hpays.lt ha hab hapart hb hx.1 hx.2

structure Fits (lower upper price x y : Int) (precision : Precision) (L : Int) : Prop where
  sized : maxForTicks lower upper price x y precision = .ok L
  liquidity : 0 ≤ L ∧ L < twoPow 256
  held : ∃ a b u v, Tick.sqrtRatio lower = .ok a ∧ Tick.sqrtRatio upper = .ok b ∧ amounts price a b L = .ok (u, v) ∧
    (0 ≤ u ∧ u < twoPow 128) ∧ 0 ≤ v ∧ v < twoPow 128

theorem exists_fits {lower upper : Int} {spacing : Option Int} (h : Tick.checkRange lower upper spacing = .ok ())
    (hp : 0 < price) (hx : 0 ≤ x ∧ x < twoPow 128) (hy : 0 ≤ y ∧ y < twoPow 128) (precision : Precision) :
    ∃ L, Fits lower upper price x y precision L := by
  obtain ⟨a, b, hr⟩ := Tick.exists_bounded h
  obtain ⟨L, hL, hlt⟩ := exists_maxForRatios hr.pos hr.apart hr.lt hp hx hy precision
  have hsized : maxForTicks lower upper price x y precision = .ok L := by
    rw [maxForTicks, hr.lower_eq, hr.upper_eq]
    exact hL
  obtain ⟨hnonneg, a, b, u, v, ha, hb, hamounts, hu, hux, hv, hvy⟩ := amounts_of_maxForTicks hsized
  exact ⟨L, hsized, ⟨hnonneg, hlt⟩, a, b, u, v, ha, hb, hamounts, ⟨hu, by omega⟩, hv, by omega⟩

end Liquidity

/-! ## Encoding -/

theorem Pool.Mint.recipient_of_encode {p : Position} {data : Bytes} (h : encode p = .ok data) :
    ∃ bs, bs.length = 20 ∧ Address.Spells p.recipient bs := by
  simp only [encode, mintParameter, bind_eq_ok] at h
  obtain ⟨mint, ⟨_, -, recipient, hr, _, -, he⟩, -⟩ := h
  obtain ⟨-, hl⟩ := key_and_recipient_of_encode he
  exact ⟨recipient, hl, Address.normalize_eq_literal_iff.mp ((Address.toBytes_iff hl).mp hr)⟩

theorem ContractCall.sqrtPrice_of_decodeSlot0 {data : Bytes} {slot0 : Slot0} (h : decodeSlot0 data = .ok slot0) :
    0 ≤ slot0.sqrtPrice := by
  obtain ⟨vs, hd, rfl⟩ := map_eq_ok.mp h
  have hread := @Abi.decode_numbers [.uint 160, .int 24, .uint 24, .uint 24] (by decide) data vs
  obtain ⟨ns, rfl, hn⟩ := hread.mp (decodeAnswer_eq_ok.mp hd)
  obtain _ | ⟨hprice, -⟩ := hn
  exact hprice.uint_bounds.1

namespace Workflow.Position

open Config (PositionConfig)
open Run (exec exec_bind_eq_ok exec_lift_bind_eq_ok)

/-! ## Planning -/

structure Ready (config : PositionConfig) (c : Collaborators) (key : Pool.Key) (want : Desired) (price : Int) :
    Prop where
  given : Text.isVacant config.recipient = false
  pool : poolKey config = .ok key
  range : Tick.checkRange config.tickLower config.tickUpper (some key.spacing.toInt) = .ok ()
  wanted : desired config key = .ok want
  priced : ∃ t, exec (currentPrice config c key) {} = (.ok price, t)

section

variable {config : PositionConfig} {c : Collaborators} {key : Pool.Key} {want : Desired} {price : Int}

/-- A pool whose price was read has an id, also where the price is the default. -/
theorem currentPrice_sound :
    Run.Yields (fun price => 0 < price ∧ ∃ i, key.id = .ok i) (currentPrice config c key) := by
  have hunit := Liquidity.unit_pos
  unfold currentPrice
  split
  · refine Run.yields_bind (Run.yields_lift fun i hi => hi) fun i hi => ?_
    refine Run.yields_after fun call => Run.yields_after fun answer => ?_
    refine Run.yields_bind (Run.yields_lift fun slot0 => ContractCall.sqrtPrice_of_decodeSlot0)
      fun slot0 hslot0 => ?_
    split
    · exact Run.yields_after fun _ => Run.yields_pure ⟨hunit, i, hi⟩
    · exact Run.yields_pure ⟨by omega, i, hi⟩
  · refine Run.yields_bind (Run.yields_lift fun i hi => map_eq_ok.mp hi) fun _ hid => ?_
    obtain ⟨i, hi, -⟩ := hid
    exact Run.yields_after fun _ => Run.yields_pure ⟨hunit, i, hi⟩

namespace Ready

theorem price_pos (h : Ready config c key want price) : 0 < price ∧ ∃ i, key.id = .ok i := by
  obtain ⟨t, hprice⟩ := h.priced
  exact currentPrice_sound {} price (congrArg Prod.fst hprice)

theorem want_lt (h : Ready config c key want price) :
    (want.amount0 : Int) < twoPow 128 ∧ (want.amount1 : Int) < twoPow 128 := by
  obtain ⟨forward, ho, -⟩ := poolKey_eq_ok h.pool
  obtain ⟨a, b, -, -, ha, hb, rfl⟩ := (desired_eq_ok_iff ho).mp h.wanted
  have ha' : (a : Int) < twoPow 128 := by exact_mod_cast ha
  have hb' : (b : Int) < twoPow 128 := by exact_mod_cast hb
  cases forward with
  | true => exact ⟨ha', hb'⟩
  | false => exact ⟨hb', ha'⟩

theorem exists_fits (h : Ready config c key want price) :
    ∃ L, Liquidity.Fits config.tickLower config.tickUpper price want.amount0 want.amount1 .early L := by
  obtain ⟨h0, h1⟩ := h.want_lt
  exact Liquidity.exists_fits h.range h.price_pos.1 ⟨by omega, h0⟩ ⟨by omega, h1⟩ .early

/-- Of all that is encoded, only the recipient can be refused. -/
theorem exists_encode_iff (h : Ready config c key want price) {L : Int} (hL : 0 ≤ L ∧ L < twoPow 256) :
    (∃ data, Pool.Mint.encode ⟨key, config.tickLower, config.tickUpper, L, config.recipient, want.amount0,
      want.amount1, .bytes []⟩ = .ok data) ↔ ∃ bs, bs.length = 20 ∧ Address.Spells config.recipient bs := by
  constructor
  · rintro ⟨data, hdata⟩
    exact Pool.Mint.recipient_of_encode hdata
  rintro ⟨bs, hl, hbs⟩
  have hc := Pool.Key.made_iff.mp (.create h.pool)
  obtain ⟨-, i, hi⟩ := h.price_pos
  obtain ⟨c0, c1, hooks, enc, hk, henc, -⟩ := Pool.Key.id_eq_ok hc.lt hc.normal hi
  have hd : Pool.Mint.Denotes ⟨key, config.tickLower, config.tickUpper, L, config.recipient, want.amount0,
      want.amount1, .bytes []⟩ c0 c1 hooks bs [] :=
    ⟨hk, ⟨enc, henc⟩, Address.normalize_eq_literal_iff.mpr hbs, rfl⟩
  obtain ⟨hlt, hleast, hgreatest⟩ := Tick.bounds_of_checkRange h.range
  have hbounds : (Tick.least = -887272 ∧ Tick.greatest = 887272) ∧ (twoPow 23 : Int) = 2 ^ 23 := ⟨⟨rfl, rfl⟩, rfl⟩
  obtain ⟨h0, h1⟩ := h.want_lt
  refine (Pool.Mint.exists_encode_iff hd hl).mpr ⟨?_, by decide⟩
  exact {
    tickLower := by dsimp only; omega
    tickUpper := by dsimp only; omega
    liquidity := hL
    maximum0 := ⟨by dsimp only; omega, h0⟩
    maximum1 := ⟨by dsimp only; omega, h1⟩ }

theorem planned_iff (h : Ready config c key want price) {L : Int}
    (hL : Liquidity.Fits config.tickLower config.tickUpper price want.amount0 want.amount1 .early L) :
    (∃ p, (Run.start (run config c)).1 = .ok (.planned p)) ↔
      L ≠ 0 ∧ ∃ bs, bs.length = 20 ∧ Address.Spells config.recipient bs := by
  obtain ⟨t, hprice⟩ := h.priced
  rw [← h.exists_encode_iff hL.liquidity]
  constructor
  · rintro ⟨p, hp⟩
    obtain ⟨t₀, hplan, -⟩ := @run_eq_ok config c p {} (exec (run config c) {}).2 (Prod.ext hp rfl)
    obtain ⟨key', want', price', L', _, _, _, _, data, hkey', hwant', hprice', hL', hne, -, -, -, hdata, -⟩ :=
      plan_eq_ok hplan
    obtain rfl := Except.ok.inj (h.pool.symm.trans hkey')
    obtain rfl := Except.ok.inj (h.wanted.symm.trans hwant')
    obtain rfl := Except.ok.inj (congrArg Prod.fst (hprice.symm.trans hprice'))
    obtain rfl := Except.ok.inj (hL.sized.symm.trans hL')
    exact ⟨hne, data, hdata⟩
  · rintro ⟨hne, data, hdata⟩
    obtain ⟨a, b, u, v, ha, hb, hused, -⟩ := hL.held
    obtain ⟨-, i, hi⟩ := h.price_pos
    have hid : key.idText = .ok (Hex.literal i) := map_eq_ok.mpr ⟨i, hi, rfl⟩
    exact exec_plan h.given h.pool h.range h.wanted hprice hL.sized hne ha hb hused hdata hid

end Ready

theorem exists_ready {p : Plan} (hp : (Run.start (run config c)).1 = .ok (.planned p)) :
    ∃ key want price, Ready config c key want price := by
  obtain ⟨t₀, h, -⟩ := @run_eq_ok config c p {} (exec (run config c) {}).2 (Prod.ext hp rfl)
  obtain ⟨recipient, hrecipient, h⟩ := exec_lift_bind_eq_ok.mp h
  obtain ⟨key, hkey, h⟩ := exec_lift_bind_eq_ok.mp h
  obtain ⟨_, hrange, h⟩ := exec_lift_bind_eq_ok.mp h
  obtain ⟨want, hwant, h⟩ := exec_lift_bind_eq_ok.mp h
  obtain ⟨price, t₁, hprice, -⟩ := exec_bind_eq_ok.mp h
  exact ⟨key, want, price, given_of_require hrecipient, hkey, hrange, hwant, t₁, hprice⟩

end

/-- **Sized liquidity fits its field.** For every range that is accepted, every price and all amounts of 128
digits, sizing and what it holds come to results that fit. So once a plan is ready to be sized, it is made
unless its amounts size to no liquidity or its recipient spells no address. -/
theorem liquidity_fits :
    (∀ (lower upper : Int) (spacing : Option Int) (price x y : Int) (precision : Liquidity.Precision),
      Tick.checkRange lower upper spacing = .ok () → 0 < price → 0 ≤ x ∧ x < twoPow 128 → 0 ≤ y ∧ y < twoPow 128 →
      ∃ L, Liquidity.Fits lower upper price x y precision L) ∧
    (∀ config c key want price, Ready config c key want price →
      ∃ L, Liquidity.Fits config.tickLower config.tickUpper price want.amount0 want.amount1 .early L ∧
        ((∃ p, (Run.start (run config c)).1 = .ok (.planned p)) ↔
          L ≠ 0 ∧ ∃ bs, bs.length = 20 ∧ Address.Spells config.recipient bs)) ∧
    ∀ config c p, (Run.start (run config c)).1 = .ok (.planned p) →
      ∃ key want price, Ready config c key want price := by
  refine ⟨?_, ?_, fun config c p => exists_ready⟩
  · intro lower upper spacing price x y precision hrange hpos hx hy
    exact Liquidity.exists_fits hrange hpos hx hy precision
  · intro config c key want price h
    obtain ⟨L, hL⟩ := h.exists_fits
    exact ⟨L, hL, h.planned_iff hL⟩

theorem ready_somePosition :
    Ready somePosition someReader Pool.Key.someKey ⟨1000000, 2000000⟩ (twoPow 96) where
  given := by decide +kernel
  pool := by
    have h : Pool.Key.forSwap somePosition.tokenA.address somePosition.tokenB.address (.int Pool.defaultFee)
        (.int Pool.defaultSpacing) Address.zero = .ok (Pool.Key.someKey, false) :=
      Pool.Key.denotes_someKey.forSwap Pool.Key.someKey_lt (by decide) (by decide)
    simp only [poolKey, somePosition, Option.bind_none, Option.filter_none, Option.getD_none] at h ⊢
    rw [Pool.Key.create, h]
    rfl
  range := by decide +kernel
  wanted := desired_somePosition
  priced := exec_currentPrice_somePosition

/-- The greatest amounts in the narrowest range, and a position that is planned. -/
theorem some_liquidity_fits :
    (∃ L, Liquidity.Fits 887271 887272 (twoPow 96) (twoPow 128 - 1) (twoPow 128 - 1) .full L) ∧
      ∃ L, Liquidity.Fits (-60) 60 (twoPow 96) (1000000 : Nat) (2000000 : Nat) .early L ∧
        ∃ p, (Run.start (run somePosition someReader)).1 = .ok (.planned p) := by
  obtain ⟨hsized, hplanned, -⟩ := liquidity_fits
  refine ⟨hsized _ _ none _ _ _ _ (by decide) (by decide) (by decide) (by decide), ?_⟩
  obtain ⟨L, hL, hiff⟩ := hplanned _ _ _ _ _ ready_somePosition
  have hne : L ≠ 0 := by
    have h : Liquidity.maxForTicks (-60) 60 (twoPow 96) (1000000 : Nat) (2000000 : Nat) .early = .ok 333850249 := by
      decide +kernel
    obtain rfl := Except.ok.inj (h.symm.trans hL.sized)
    decide
  refine ⟨L, hL, hiff.mpr ⟨hne, Pool.Key.someOctets 5, rfl, ?_⟩⟩
  exact Address.normalize_eq_literal_iff.mp (Address.normalize_literal _)

end Workflow.Position

end DefiActions
