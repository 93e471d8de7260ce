import DefiActions.Proofs.ConfinementSound

/-!
# Price limits of signed swaps

A swap is checked against the bound in front of it: its limit is on the near side
of that one whatever price was read. The bound behind it is not looked at, so
the limit is between both exactly where the price was on the near side of that
other bound.
-/

namespace DefiActions

namespace PriceLimit

variable {bounds : Bounds} {price limit : Int} {zeroForOne : Bool}

def Bounds.Inside (bounds : Bounds) (limit : Int) : Prop := bounds.least < limit ∧ limit < bounds.greatest

def Bounds.Admits (bounds : Bounds) (price : Int) (zeroForOne : Bool) : Prop :=
  if zeroForOne then price ≤ bounds.greatest else bounds.least ≤ price

/-- The limit is not past the bound in front of a swap, nor at it. -/
def Bounds.Stops (bounds : Bounds) (limit : Int) (zeroForOne : Bool) : Prop :=
  if zeroForOne then bounds.least < limit else limit < bounds.greatest

theorem after_eq_ok (h : after bounds price zeroForOne = .ok limit) :
    (zeroForOne = true ∧ limit = max (price - 1) (bounds.least + 1)) ∨
      (zeroForOne = false ∧ limit = price + 1 ∧ price + 1 < bounds.greatest) := by
  unfold after at h
  split at h
  · cases h
  split at h
  · rename_i hdown
    exact Or.inl ⟨hdown, (Except.ok.inj h).symm⟩
  split at h
  · cases h
  · rename_i hup hbound
    exact Or.inr ⟨Bool.eq_false_iff.mpr hup, (Except.ok.inj h).symm, Int.not_le.mp hbound⟩

theorem stops_of_after (h : after bounds price zeroForOne = .ok limit) : bounds.Stops limit zeroForOne := by
  unfold Bounds.Stops
  rcases after_eq_ok h with ⟨rfl, rfl⟩ | ⟨rfl, rfl, hlt⟩
  · rw [if_pos rfl]
    omega
  · rw [if_neg Bool.false_ne_true]
    exact hlt

theorem inside_iff_of_after (hb : bounds.least + 1 < bounds.greatest)
    (h : after bounds price zeroForOne = .ok limit) : bounds.Inside limit ↔ bounds.Admits price zeroForOne := by
  unfold Bounds.Inside Bounds.Admits
  rcases after_eq_ok h with ⟨rfl, rfl⟩ | ⟨rfl, rfl, hlt⟩
  · rw [if_pos rfl]
    omega
  · rw [if_neg Bool.false_ne_true]
    omega

theorem stops_widest (bounds : Bounds) (zeroForOne : Bool) :
    bounds.Stops (widest bounds zeroForOne) zeroForOne := by
  unfold Bounds.Stops widest
  split <;> omega

theorem inside_widest (hb : bounds.least + 1 < bounds.greatest) (zeroForOne : Bool) :
    bounds.Inside (widest bounds zeroForOne) := by
  unfold Bounds.Inside widest
  split <;> omega

end PriceLimit

namespace Workflow.Swap

open Config (SwapConfig)
open Run (exec)

def ReadPrice (config : SwapConfig) (c : Collaborators) (t : Trace) (price : Int) : Prop :=
  ∃ view reader call answer slot0, stateView? config = some view ∧ c.reader = some reader ∧
    t.reads = [⟨view, call⟩] ∧ reader (Run.start (minimumOut config)).2 view call = .ok answer ∧
    ContractCall.decodeSlot0 answer = .ok slot0 ∧ price = slot0.sqrtPrice

variable {config : SwapConfig} {c : Collaborators} {t : Trace}

/-- Collaborators are functions of what they see, so that one price at most was read. -/
theorem ReadPrice.unique {price price' : Int} (h : ReadPrice config c t price) (h' : ReadPrice config c t price') :
    price = price' := by
  obtain ⟨view, reader, call, answer, slot0, hview, hreader, hreads, hanswer, hslot0, rfl⟩ := h
  obtain ⟨view', reader', call', answer', slot0', hview', hreader', hreads', hanswer', hslot0', rfl⟩ := h'
  obtain rfl := Option.some.inj (hreader.symm.trans hreader')
  obtain ⟨rfl, rfl⟩ := ContractRead.mk.inj (List.head_eq_of_cons_eq (hreads.symm.trans hreads'))
  obtain rfl := Except.ok.inj (hanswer.symm.trans hanswer')
  obtain rfl := Except.ok.inj (hslot0.symm.trans hslot0')
  rfl

/-- The limit of a swap stops it in front, and is inside exactly where the price that was read is admitted. -/
theorem limit_of_priceLimit {key : Pool.Key} {zeroForOne : Bool} {limit : Int} {t' : Trace}
    (h : exec (priceLimit config c key zeroForOne) (exec (minimumOut config) {}).2 = (.ok limit, t))
    (ht : t'.reads = t.reads) : ({} : PriceLimit.Bounds).Stops limit zeroForOne ∧
      (({} : PriceLimit.Bounds).Inside limit ↔
        ∀ price, ReadPrice config c t' price → ({} : PriceLimit.Bounds).Admits price zeroForOne) := by
  have hb : ({} : PriceLimit.Bounds).least + 1 < ({} : PriceLimit.Bounds).greatest := by decide
  cases hv : stateView? config with
  | none =>
    obtain ⟨rfl, -⟩ := exec_priceLimit_of_none hv h
    refine ⟨PriceLimit.stops_widest _ _, iff_of_true (PriceLimit.inside_widest hb _) ?_⟩
    rintro price ⟨view, _, _, _, _, hview, -⟩
    cases hv.symm.trans hview
  | some view =>
    obtain ⟨reader, i, call, answer, slot0, hreader, -, -, hanswer, hslot0, hlimit, hreads⟩ :=
      exec_priceLimit_of_view hv h
    rw [(exec_minimumOut config {}).1, List.nil_append] at hreads
    have hread : ReadPrice config c t' slot0.sqrtPrice :=
      ⟨view, reader, call, answer, slot0, hv, hreader, ht.trans hreads, hanswer, hslot0, rfl⟩
    rw [PriceLimit.inside_iff_of_after hb hlimit]
    refine ⟨PriceLimit.stops_of_after hlimit, fun hadmits price hprice => ?_, fun hall => hall _ hread⟩
    rw [hprice.unique hread]
    exact hadmits

/-- **The limit of a signed swap is always on the near side of the bound in front of it, and strictly between both
exactly where the price that was read is not past the one behind.** -/
theorem signed_limit_inside_iff (config : SwapConfig) (c : Collaborators) :
    ∀ payload ∈ (Run.start (run config c)).2.payloads, ∃ d zeroForOne limit,
      Report.decode .swap payload = .ok d ∧ d.get "zero_for_one" = .bool zeroForOne ∧
      d.get "sqrt_price_limit_x96" = .int limit ∧ (zeroForOne = true → Tick.leastRatio < limit) ∧
      (zeroForOne = false → limit < Tick.greatestRatio) ∧
      (Tick.leastRatio < limit ∧ limit < Tick.greatestRatio ↔
        ∀ price, ReadPrice config c (Run.start (run config c)).2 price →
          if zeroForOne then price ≤ Tick.greatestRatio else Tick.leastRatio ≤ price) := by
  intro payload hmem
  obtain ⟨prepared, t, hprep, he, hreads⟩ := exists_prepared_of_signed hmem
  obtain ⟨key, zeroForOne, text, amountIn, deadline, poolSwapTest, poolManager, limit, -, -, hlimit, -, -, hd⟩ :=
    prepare_eq_ok hprep
  obtain ⟨hstops, hinside⟩ := limit_of_priceLimit hlimit hreads
  have hdirection :=
    @get_word key zeroForOne amountIn prepared.minimumOut config.input.wallet poolSwapTest poolManager
      deadline limit _ hd ⟨"zero_for_one", .bool, "zeroForOne", none⟩ (by simp [Report.schema])
      (by decide) (by decide) _ rfl rfl
  have hget := @get_word key zeroForOne amountIn prepared.minimumOut config.input.wallet poolSwapTest poolManager
    deadline limit _ hd ⟨"sqrt_price_limit_x96", .uint 160, "sqrtPriceLimitX96", none⟩ (by simp [Report.schema])
    (by decide) (by decide) _ rfl rfl
  refine ⟨prepared.report.filled, zeroForOne, limit, decode_payload hd he, hdirection, hget, ?_, ?_, hinside⟩
  · rintro rfl
    exact hstops
  · rintro rfl
    exact hstops

/-! ## At two prices -/

theorem readPrice_someSwap {price : Nat}
    (hstate : ContractCall.decodeSlot0 (stateAt price) = .ok ⟨price, 0, 0, 3000⟩)
    {read : Int} (h : ReadPrice someSwap (signing (stateAt price)) t read) : read = price := by
  obtain ⟨_, _, _, _, slot0, -, hreader, -, hanswer, hslot0, rfl⟩ := h
  obtain rfl := Option.some.inj hreader
  obtain rfl := Except.ok.inj hanswer
  rw [Except.ok.inj (hslot0.symm.trans hstate)]

/-- A swap at a price between the bounds, with a limit between them. -/
theorem some_limit_inside : ∃ payload ∈ (Run.start (run someSwap (signing (stateAt (twoPow 96))))).2.payloads,
    ∃ d limit, Report.decode .swap payload = .ok d ∧ d.get "sqrt_price_limit_x96" = .int limit ∧
      Tick.leastRatio < limit ∧ limit < Tick.greatestRatio := by
  have hstate : ContractCall.decodeSlot0 (stateAt (twoPow 96)) = .ok ⟨(twoPow 96 : Nat), 0, 0, 3000⟩ :=
    eq_ok_of_isOk (by decide +kernel)
  obtain ⟨⟨payload, hp, hd⟩, -⟩ :=
    signed_someSwap hstate (by decide +kernel) (by decide +kernel) (by decide +kernel)
  obtain ⟨d, zeroForOne, limit, h, hdirection, hget, -, -, hinside⟩ :=
    signed_limit_inside_iff someSwap (signing (stateAt (twoPow 96))) payload hp
  obtain rfl := Except.ok.inj (h.symm.trans hd)
  obtain rfl : false = zeroForOne := Value.bool.inj hdirection
  refine ⟨payload, hp, _, limit, h, hget, hinside.mpr fun price hprice => ?_⟩
  rw [readPrice_someSwap hstate hprice]
  decide +kernel

/-- A price below the least one leaves the limit there. -/
theorem limit_outside_at_price_one : ∃ payload ∈ (Run.start (run someSwap (signing (stateAt 1)))).2.payloads,
    ∃ d, Report.decode .swap payload = .ok d ∧ d.get "sqrt_price_limit_x96" = .int 2 ∧ ¬ Tick.leastRatio < 2 := by
  obtain ⟨⟨payload, hp, hd⟩, -⟩ := @signed_someSwap 1 (eq_ok_of_isOk (by decide +kernel)) (by decide +kernel)
    (by decide +kernel) (by decide +kernel)
  exact ⟨payload, hp, _, hd, rfl, by decide⟩

end Workflow.Swap

end DefiActions
