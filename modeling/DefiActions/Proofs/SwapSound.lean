import DefiActions.Proofs.PoolSound
import DefiActions.Proofs.ReportLemmas
import DefiActions.Proofs.SubmissionSound

/-!
# Signed swaps

What is signed for a swap reads back as the swap that was configured, and its
price limit comes from the state of the pool that the payload names.
-/

namespace DefiActions.Workflow.Swap

open Config (SwapConfig)
open Run (exec exec_bind_eq_ok exec_lift_bind_eq_ok exec_lift_eq_ok)

/-! ## What is signed -/

structure Terms where
  currency0 : Bytes
  currency1 : Bytes
  hooks : Bytes
  fee : Int
  spacing : Int
  zeroForOne : Bool
  amountIn : Nat
  minimumOut : Nat
  recipient : String
  limit : Int

namespace Terms

structure StatedBy (x : Terms) (d : Report.Descriptor) : Prop where
  currency0 : d.get "currency0" = .text (Hex.literal x.currency0)
  currency1 : d.get "currency1" = .text (Hex.literal x.currency1)
  fee : d.get "fee" = .int x.fee
  spacing : d.get "tick_spacing" = .int x.spacing
  hooks : d.get "hooks" = .text (Hex.literal x.hooks)
  zeroForOne : d.get "zero_for_one" = .bool x.zeroForOne
  amountIn : d.get "amount_in" = .int x.amountIn
  minimumOut : d.get "amount_out_min" = .int x.minimumOut
  recipient : d.get "recipient" = .text x.recipient
  limit : d.get "sqrt_price_limit_x96" = .int x.limit

structure Configured (x : Terms) (config : SwapConfig) : Prop where
  length0 : x.currency0.length = 20
  length1 : x.currency1.length = 20
  lt : Bytes.toNat x.currency0 < Bytes.toNat x.currency1
  direction : x.zeroForOne = true ↔ Address.normalize config.input.source.address = Hex.literal x.currency0
  forward : x.zeroForOne = true → Address.normalize config.input.source.address = Hex.literal x.currency0 ∧
    Address.normalize config.input.destination.address = Hex.literal x.currency1
  backward : x.zeroForOne = false → Address.normalize config.input.source.address = Hex.literal x.currency1 ∧
    Address.normalize config.input.destination.address = Hex.literal x.currency0
  amountIn : Uint256.ofText config.input.amount = .ok x.amountIn
  minimumOut : config.input.swapType = .exactInput →
    Uint256.ofText ((present? config.input.minimumOut).getD "0") = .ok x.minimumOut
  noMinimumOut : config.input.swapType = .exactOutput → x.minimumOut = 0
  recipient : x.recipient = Address.normalize config.input.wallet

/-- The limit follows from the price of the pool of these terms, for which its state was read once, or is the widest
one and nothing was read. -/
def Priced (x : Terms) (config : SwapConfig) (c : Collaborators) (t : Trace) : Prop :=
  match stateView? config with
  | none => t.reads = [] ∧ x.limit = PriceLimit.widest {} x.zeroForOne
  | some view => ∃ reader key answer slot0, c.reader = some reader ∧
    Abi.encode [.address, .address, .uint 24, .int 24, .address]
      [.bytes x.currency0, .bytes x.currency1, .int x.fee, .int x.spacing, .bytes x.hooks] = .ok key ∧
    t.reads = [⟨view, ContractCall.stateRead key⟩] ∧
    reader (Run.start (Swap.minimumOut config)).2 view (ContractCall.stateRead key) = .ok answer ∧
    ContractCall.decodeSlot0 answer = .ok slot0 ∧ PriceLimit.after {} slot0.sqrtPrice x.zeroForOne = .ok x.limit

end Terms

/-! ## Preparing -/

theorem exec_minimumOut (config : SwapConfig) (t : Trace) :
    (exec (minimumOut config) t).2.reads = t.reads ∧ (exec (minimumOut config) t).1 =
      .ok (match config.input.swapType with
        | .exactOutput => "0"
        | .exactInput => (present? config.input.minimumOut).getD "0") := by
  unfold minimumOut
  cases config.input.swapType with
  | exactOutput => exact ⟨rfl, rfl⟩
  | exactInput =>
    simp only
    split <;> exact ⟨rfl, rfl⟩

theorem poolKey_eq_ok {config : SwapConfig} {key : Pool.Key} {zeroForOne : Bool}
    (h : poolKey config = .ok (key, zeroForOne)) :
    key.Orders config.input.source.address config.input.destination.address zeroForOne ∧
      (∃ fee, key.fee = .int fee) ∧ (∃ spacing, key.spacing = .int spacing) ∧ key.IsNormal := by
  obtain ⟨ho, hf, hs, hn⟩ := Pool.Key.forSwap_eq_ok h
  exact ⟨ho, ⟨_, hf⟩, ⟨_, hs⟩, hn⟩

theorem exec_priceLimit_of_view {config : SwapConfig} {c : Collaborators} {key : Pool.Key} {zeroForOne : Bool}
    {view : String} (hv : stateView? config = some view) {t t' : Trace} {limit : Int}
    (h : exec (priceLimit config c key zeroForOne) t = (.ok limit, t')) :
    ∃ reader i call answer slot0, c.reader = some reader ∧ key.id = .ok i ∧ ContractCall.slot0 i = .ok call ∧
      reader t view call = .ok answer ∧ ContractCall.decodeSlot0 answer = .ok slot0 ∧
      PriceLimit.after {} slot0.sqrtPrice zeroForOne = .ok limit ∧ t'.reads = t.reads ++ [⟨view, call⟩] := by
  unfold priceLimit at h
  rw [hv] at h
  simp only at h
  cases hr : c.reader with
  | none => rw [hr] at h; cases h
  | some reader =>
    rw [hr] at h
    obtain ⟨i, hi, h⟩ := exec_lift_bind_eq_ok.mp h
    obtain ⟨call, hcall, h⟩ := exec_lift_bind_eq_ok.mp h
    obtain ⟨answer, t₁, hanswer, h⟩ := exec_bind_eq_ok.mp h
    obtain ⟨slot0, hslot0, h⟩ := exec_lift_bind_eq_ok.mp h
    obtain ⟨_, t₂, hreport, h⟩ := exec_bind_eq_ok.mp h
    obtain ⟨ha, rfl⟩ := Prod.mk.inj ((Run.exec_answer _ _ _).symm.trans hanswer)
    obtain ⟨-, rfl⟩ := Prod.mk.inj hreport
    split at h
    · obtain ⟨_, _, -, h⟩ := exec_bind_eq_ok.mp h
      obtain ⟨_, _, h, -⟩ := exec_bind_eq_ok.mp h
      rw [Run.exec_fail] at h
      cases h
    · obtain ⟨hlimit, rfl⟩ := exec_lift_eq_ok.mp h
      exact ⟨reader, i, call, answer, slot0, rfl, hi, hcall, ha, hslot0, hlimit, rfl⟩

theorem exec_priceLimit_of_none {config : SwapConfig} {c : Collaborators} {key : Pool.Key} {zeroForOne : Bool}
    (hv : stateView? config = none) {t t' : Trace} {limit : Int}
    (h : exec (priceLimit config c key zeroForOne) t = (.ok limit, t')) :
    limit = PriceLimit.widest {} zeroForOne ∧ t'.reads = t.reads := by
  unfold priceLimit at h
  rw [hv] at h
  obtain ⟨hl, rfl⟩ := Prod.mk.inj h
  exact ⟨(Except.ok.inj hl).symm, rfl⟩

def fields (key : Pool.Key) (zeroForOne : Bool) (amountIn minimum : Nat) (recipient : String) (deadline : Int)
    (poolSwapTest poolManager : String) (limit : Int) : Members := [
  ("currency0", .text key.currency0), ("currency1", .text key.currency1), ("fee", key.fee.toValue),
  ("tick_spacing", key.spacing.toValue), ("hooks", .text key.hooks), ("zero_for_one", .bool zeroForOne),
  ("amount_in", .int amountIn), ("amount_out_min", .int minimum), ("hook_data", .bytes []),
  ("recipient", .text recipient), ("deadline", .int deadline), ("pool_swap_test_address", .text poolSwapTest),
  ("pool_manager_address", .text poolManager), ("sqrt_price_limit_x96", .int limit)]

/-- What a prepared swap states is its configuration and the time, but for the price limit. -/
theorem make_of_prepare {config : SwapConfig} {c : Collaborators} {p : Prepared} {t : Trace}
    (h : exec (prepare config c) {} = (.ok p, t)) :
    ∃ key zeroForOne text amountIn limit,
      poolKey config = .ok (key, zeroForOne) ∧ (exec (minimumOut config) {}).1 = .ok text ∧
      exec (priceLimit config c key zeroForOne) (exec (minimumOut config) {}).2 = (.ok limit, t) ∧
      Uint256.ofText config.input.amount = .ok amountIn ∧ Uint256.ofText text = .ok p.minimumOut ∧
      Report.Descriptor.make .swap (fields key zeroForOne amountIn p.minimumOut config.input.wallet
        ((config.input.deadline.filter (· ≠ 0)).getD (c.now + deadlineSeconds))
        config.poolSwapTest config.poolManager
        limit) = .ok p.report := by
  obtain ⟨_, -, h⟩ := exec_lift_bind_eq_ok.mp h
  obtain ⟨poolSwapTest, hpoolSwapTest, h⟩ := exec_lift_bind_eq_ok.mp h
  obtain ⟨poolManager, hpoolManager, h⟩ := exec_lift_bind_eq_ok.mp h
  obtain ⟨⟨key, zeroForOne⟩, hkey, h⟩ := exec_lift_bind_eq_ok.mp h
  obtain ⟨text, t₁, htext, h⟩ := exec_bind_eq_ok.mp h
  obtain ⟨limit, t₂, hlimit, h⟩ := exec_bind_eq_ok.mp h
  obtain ⟨amountIn, hamount, h⟩ := exec_lift_bind_eq_ok.mp h
  obtain ⟨minimum, hminimum, h⟩ := exec_lift_bind_eq_ok.mp h
  obtain ⟨recipient, hrecipient, h⟩ := exec_lift_bind_eq_ok.mp h
  obtain ⟨report, hreport, h⟩ := exec_lift_bind_eq_ok.mp h
  obtain ⟨hp, rfl⟩ := Prod.mk.inj h
  obtain rfl := Except.ok.inj hp
  rw [require_eq_ok hpoolSwapTest, require_eq_ok hpoolManager, require_eq_ok hrecipient] at hreport
  exact ⟨key, zeroForOne, text, amountIn, limit, hkey, by rw [htext], by rw [htext]; exact hlimit, hamount,
    hminimum, hreport⟩

theorem prepare_eq_ok {config : SwapConfig} {c : Collaborators} {p : Prepared} {t : Trace}
    (h : exec (prepare config c) {} = (.ok p, t)) :
    ∃ key zeroForOne text amountIn deadline poolSwapTest poolManager limit,
      poolKey config = .ok (key, zeroForOne) ∧ (exec (minimumOut config) {}).1 = .ok text ∧
      exec (priceLimit config c key zeroForOne) (exec (minimumOut config) {}).2 = (.ok limit, t) ∧
      Uint256.ofText config.input.amount = .ok amountIn ∧ Uint256.ofText text = .ok p.minimumOut ∧
      Report.Descriptor.make .swap (fields key zeroForOne amountIn p.minimumOut config.input.wallet deadline
        poolSwapTest poolManager limit) = .ok p.report := by
  obtain ⟨key, zeroForOne, text, amountIn, limit, hkey, htext, hlimit, hamount, hminimum, hd⟩ := make_of_prepare h
  exact ⟨key, zeroForOne, text, amountIn, _, _, _, limit, hkey, htext, hlimit, hamount, hminimum, hd⟩

theorem exec_prepare {config : SwapConfig} {c : Collaborators} {key : Pool.Key} {zeroForOne : Bool} {text : String}
    {amountIn minimum : Nat} {limit : Int} {report : Report.Descriptor} {t t' : Trace}
    (hgiven : ∀ s ∈ [config.receiver, config.poolSwapTest, config.poolManager, config.input.wallet],
      Text.isVacant s = false)
    (hkey : poolKey config = .ok (key, zeroForOne)) (htext : exec (minimumOut config) {} = (.ok text, t))
    (hlimit : exec (priceLimit config c key zeroForOne) t = (.ok limit, t'))
    (hamount : Uint256.ofText config.input.amount = .ok amountIn) (hminimum : Uint256.ofText text = .ok minimum)
    (hmake : Report.Descriptor.make .swap (fields key zeroForOne amountIn minimum config.input.wallet
      ((config.input.deadline.filter (· ≠ 0)).getD (c.now + deadlineSeconds)) config.poolSwapTest config.poolManager
      limit) = .ok report) : exec (prepare config c) {} = (.ok ⟨report, minimum⟩, t') := by
  simp only [List.forall_mem_cons] at hgiven
  obtain ⟨h₁, h₂, h₃, h₄, -⟩ := hgiven
  rw [fields] at hmake
  simp only [prepare, Run.exec_bind, Run.exec_lift, hkey, require_of_given h₁, require_of_given h₂,
    require_of_given h₃, require_of_given h₄, hamount, htext, hlimit, hminimum, hmake, Run.exec_pure]

/-! ## Reading back -/

section

open Report (get_filled_of_given normalField_text normalField_word)

variable {key : Pool.Key} {zeroForOne : Bool} {amountIn minimum : Nat} {wallet poolSwapTest poolManager : String}
  {deadline limit : Int} {d : Report.Descriptor} {payload : Bytes}

variable (hd : Report.Descriptor.make .swap (fields key zeroForOne amountIn minimum wallet deadline poolSwapTest
  poolManager limit) = .ok d)

include hd

theorem get_address {f : Report.Field} (hf : f ∈ Report.schema .swap) (hk : f.kind = .address) {s : String}
    (hg : (fields key zeroForOne amountIn minimum wallet deadline poolSwapTest poolManager limit).get? f.name =
      some (.text s)) : d.filled.get f.name = .text (Address.normalize s) :=
  get_filled_of_given hd hf hg (normalField_text hk s) rfl

theorem get_word {f : Report.Field} (hf : f ∈ Report.schema .swap) (ha : f.kind ≠ .address) (hb : f.kind ≠ .bytes)
    {v : Value} (hv : v.isNull = false)
    (hg : (fields key zeroForOne amountIn minimum wallet deadline poolSwapTest poolManager limit).get? f.name =
      some v) : d.filled.get f.name = v :=
  get_filled_of_given hd hf hg (normalField_word ha hb hv) hv

theorem exists_denotes (hp : Report.encode d = .ok payload) (hn : key.IsNormal) :
    ∃ c0 c1 hooks, key.Denotes c0 c1 hooks := by
  have hf0 : (⟨"currency0", .address, "currency0", none⟩ : Report.Field) ∈ Report.schema .swap := by
    simp [Report.schema]
  have hf1 : (⟨"currency1", .address, "currency1", none⟩ : Report.Field) ∈ Report.schema .swap := by
    simp [Report.schema]
  have hf4 : (⟨"hooks", .address, "hooks", Report.zeroAddress⟩ : Report.Field) ∈ Report.schema .swap := by
    simp [Report.schema]
  obtain ⟨c0, hl0, e0⟩ := Report.address_of_encode hd hp hf0 rfl (get_address hd hf0 rfl rfl)
  obtain ⟨c1, hl1, e1⟩ := Report.address_of_encode hd hp hf1 rfl (get_address hd hf1 rfl rfl)
  obtain ⟨hooks, hl4, e4⟩ := Report.address_of_encode hd hp hf4 rfl (get_address hd hf4 rfl rfl)
  rw [Address.normalize_normalize] at e0 e1 e4
  exact ⟨c0, c1, hooks, hl0, hl1, hl4, hn.currency0.symm.trans e0, hn.currency1.symm.trans e1,
    hn.hooks.symm.trans e4⟩

theorem decode_payload (hp : Report.encode d = .ok payload) : Report.decode .swap payload = .ok d.filled :=
  Report.decode_payload hd hp

theorem statedBy {c0 c1 hooks : Bytes} (hk : key.Denotes c0 c1 hooks) {fee spacing : Int} (hf : key.fee = .int fee)
    (hs : key.spacing = .int spacing) : Terms.StatedBy ⟨c0, c1, hooks, fee, spacing, zeroForOne, amountIn, minimum,
      Address.normalize wallet, limit⟩ d.filled := by
  have haddress := @get_address key zeroForOne amountIn minimum wallet poolSwapTest poolManager deadline limit d hd
  have hword := @get_word key zeroForOne amountIn minimum wallet poolSwapTest poolManager deadline limit d hd
  have h0 := @haddress ⟨"currency0", .address, "currency0", none⟩ (by simp [Report.schema]) rfl _ rfl
  have h1 := @haddress ⟨"currency1", .address, "currency1", none⟩ (by simp [Report.schema]) rfl _ rfl
  have h4 := @haddress ⟨"hooks", .address, "hooks", Report.zeroAddress⟩ (by simp [Report.schema]) rfl _ rfl
  have h2 := @hword ⟨"fee", .uint 24, "fee", none⟩ (by simp [Report.schema]) (by decide) (by decide)
      _ (by rw [hf]; rfl) rfl
  have h3 := @hword ⟨"tick_spacing", .int 24, "tickSpacing", none⟩ (by simp [Report.schema]) (by decide)
    (by decide) _ (by rw [hs]; rfl) rfl
  rw [hk.currency0, Address.normalize_literal] at h0
  rw [hk.currency1, Address.normalize_literal] at h1
  rw [hk.hooks, Address.normalize_literal] at h4
  rw [hf] at h2
  rw [hs] at h3
  exact {
    currency0 := h0
    currency1 := h1
    fee := h2
    spacing := h3
    hooks := h4
    zeroForOne := @hword ⟨"zero_for_one", .bool, "zeroForOne", none⟩ (by simp [Report.schema]) (by decide)
      (by decide) _ rfl rfl
    amountIn := @hword ⟨"amount_in", .uint 256, "amountIn", none⟩ (by simp [Report.schema]) (by decide)
      (by decide) _ rfl rfl
    minimumOut := @hword ⟨"amount_out_min", .uint 256, "amountOutMin", Report.zeroNumber⟩
      (by simp [Report.schema]) (by decide) (by decide) _ rfl rfl
    recipient := @haddress ⟨"recipient", .address, "recipient", none⟩ (by simp [Report.schema]) rfl _ rfl
    limit := @hword ⟨"sqrt_price_limit_x96", .uint 160, "sqrtPriceLimitX96", none⟩ (by simp [Report.schema])
      (by decide) (by decide) _ rfl rfl }

end

/-! ## The price -/

theorem priced {config : SwapConfig} {c : Collaborators} {key : Pool.Key} {zeroForOne : Bool} {limit : Int}
    {t : Trace} (ho : key.Orders config.input.source.address config.input.destination.address zeroForOne)
    (hn : key.IsNormal) {c0 c1 hooks : Bytes} (hk : key.Denotes c0 c1 hooks)
    {fee spacing : Int} (hf : key.fee = .int fee) (hs : key.spacing = .int spacing)
    (h : exec (priceLimit config c key zeroForOne) (exec (minimumOut config) {}).2 = (.ok limit, t))
    {t' : Trace} (ht : t'.reads = t.reads) (amountIn minimum : Nat) (recipient : String) :
    Terms.Priced ⟨c0, c1, hooks, fee, spacing, zeroForOne, amountIn, minimum, recipient, limit⟩ config c t' := by
  have hreads : (exec (minimumOut config) {}).2.reads = [] := (exec_minimumOut config {}).1
  unfold Terms.Priced
  cases hv : stateView? config with
  | none =>
    obtain ⟨hl, hr⟩ := exec_priceLimit_of_none hv h
    exact ⟨by rw [ht, hr, hreads], hl⟩
  | some view =>
    obtain ⟨reader, i, call, answer, slot0, hreader, hi, hcall, hanswer, hslot0, hl, hr⟩ :=
      exec_priceLimit_of_view hv h
    obtain ⟨c0', c1', hooks', enc, hk', he, hi⟩ := Pool.Key.id_eq_ok ho.lt hn hi
    obtain ⟨rfl, rfl, rfl⟩ := hk.unique hk'
    rw [Pool.Key.wireParts, hf, hs] at he
    have he := Abi.encode_of_encodeAll he
    have hc : ContractCall.stateRead enc = call :=
      Except.ok.inj ((ContractCall.slot0_hash enc).symm.trans ((congrArg _ hi).symm.trans hcall))
    rw [← hc] at hanswer hr
    exact ⟨reader, enc, answer, slot0, hreader, he, by rw [ht, hr, hreads, List.nil_append], hanswer, hslot0, hl⟩

/-- **The swap that is signed is the swap that was configured and priced.** -/
theorem signed_as_configured (config : SwapConfig) (c : Collaborators) :
    ∀ payload ∈ (Run.start (run config c)).2.payloads, ∃ d x, Report.decode .swap payload = .ok d ∧
      Terms.StatedBy x d ∧ x.Configured config ∧ x.Priced config c (Run.start (run config c)).2 := by
  intro payload hmem
  obtain ⟨prepared, t₀, hprep, he, hreads⟩ := exists_prepared_of_signed hmem
  obtain ⟨key, zeroForOne, text, amountIn, deadline, poolSwapTest, poolManager, limit, hkey, htext, hlimit, hamount,
    hminimum, hd⟩ := prepare_eq_ok hprep
  obtain ⟨ho, ⟨fee, hf⟩, ⟨spacing, hs⟩, hn⟩ := poolKey_eq_ok hkey
  obtain ⟨c0, c1, hooks, hk⟩ := exists_denotes hd he hn
  obtain rfl := Except.ok.inj ((exec_minimumOut config {}).2.symm.trans htext)
  refine ⟨prepared.report.filled, ⟨c0, c1, hooks, fee, spacing, zeroForOne, amountIn, prepared.minimumOut,
    Address.normalize config.input.wallet, limit⟩, decode_payload hd he, statedBy hd hk hf hs, ?_,
    priced ho hn hk hf hs hlimit hreads _ _ _⟩
  exact {
    length0 := hk.length0
    length1 := hk.length1
    lt := hk.lt_iff.mp ho.lt
    direction := by
      rw [← hk.currency0]
      refine ⟨fun h => (ho.forward h).1, fun h => ?_⟩
      cases zeroForOne with
      | true => rfl
      | false =>
        -- The source would be both currencies, and one comes before the other.
        exact absurd ho.lt (by rw [← h, (ho.backward rfl).1]; exact String.lt_irrefl _)
    forward := fun h => by rw [← hk.currency0, ← hk.currency1]; exact ho.forward h
    backward := fun h => by rw [← hk.currency0, ← hk.currency1]; exact ho.backward h
    amountIn := hamount
    minimumOut := fun h => by rw [h] at hminimum; exact hminimum
    noMinimumOut := fun h => by
      rw [h] at hminimum
      have hzero : Uint256.ofText "0" = .ok 0 := by decide +kernel
      exact Except.ok.inj (hminimum.symm.trans hzero)
    recipient := rfl }

/-! ## A swap that is signed -/

open ContractCall (someState decodeSlot0_someState)
open Pool.Key (someKey someOctets denotes_someKey someKey_lt id_someKey)

def someSwap : SwapConfig where
  chain := "ethereum"
  receiver := "receiver"
  poolSwapTest := Hex.literal (someOctets 3)
  poolManager := Hex.literal (someOctets 4)
  stateView := some "view"
  gasLimit := "500000"
  input := ⟨⟨someKey.currency1, none⟩, ⟨someKey.currency0, none⟩, "1000", .exactInput,
    Hex.literal (someOctets 5), none, some 7, none⟩
  pool := none
  feeTier := none

def someCollaborators : Collaborators where
  reader := some fun _ _ _ => .ok someState
  signer := some fun _ _ => .error .fieldType
  writer := some fun _ _ _ _ => .error .fieldType

theorem poolKey_someSwap : poolKey someSwap = .ok (someKey, false) :=
  denotes_someKey.forSwap someKey_lt (by decide) (by decide)

theorem exec_priceLimit_of_state {c : Collaborators} {state : Bytes} {slot0 : ContractCall.Slot0} {limit : Int}
    (hreader : c.reader = some fun _ _ _ => .ok state) (hstate : ContractCall.decodeSlot0 state = .ok slot0)
    (hprice : slot0.sqrtPrice ≠ 0) (hlimit : PriceLimit.after {} slot0.sqrtPrice false = .ok limit) (t : Trace) :
    ∃ t', exec (priceLimit someSwap c someKey false) t = (.ok limit, t') := by
  obtain ⟨enc, hi⟩ := id_someKey
  have hv : stateView? someSwap = some "view" := rfl
  have hread (call : Bytes) :
      exec (Run.readContract (fun _ _ _ => .ok state) "view" call) t =
        (.ok state, { t with reads := t.reads ++ [⟨"view", call⟩] }) := rfl
  simp only [priceLimit, hv, hreader, hi, Run.exec_bind, Run.exec_lift, ContractCall.slot0_hash, hread, hstate,
    Run.exec_report, if_neg hprice, hlimit]
  exact ⟨_, rfl⟩

def someWire (limit : Int) : List Value := [.bytes (someOctets 1), .bytes (someOctets 2), .int 3000, .int 60,
  .bytes (someOctets 0), .bool false, .int 1000, .int 0, .bytes [], .bytes (someOctets 5), .int 7,
  .bytes (someOctets 3), .bytes (someOctets 4), .int limit]

def someReport (limit : Int) : Report.Descriptor :=
  ⟨.swap, [.text (Hex.literal (someOctets 1)), .text (Hex.literal (someOctets 2)), .int 3000, .int 60,
    .text (Hex.literal (someOctets 0)), .bool false, .int 1000, .int 0, .bytes [],
    .text (Hex.literal (someOctets 5)), .int 7, .text (Hex.literal (someOctets 3)),
    .text (Hex.literal (someOctets 4)), .int limit]⟩

theorem make_someReport (c : Collaborators) {limit : Int} {payload : Bytes}
    (h : Abi.encode (Report.kinds .swap) (someWire limit) = .ok payload) :
    Report.Descriptor.make .swap (fields someKey false 1000 0 someSwap.input.wallet
      ((someSwap.input.deadline.filter (· ≠ 0)).getD (c.now + deadlineSeconds)) someSwap.poolSwapTest
      someSwap.poolManager limit) = .ok (someReport limit) ∧ Report.encode (someReport limit) = .ok payload := by
  obtain ⟨hmake, -, he⟩ := Report.encode_readBackAll h rfl
  refine ⟨?_, he⟩
  rw [fields, someKey, Address.zero_eq_literal]
  exact hmake

theorem encode_someWire :
    ∃ payload, Abi.encode (Report.kinds .swap) (someWire (twoPow 96 + 1)) = .ok payload :=
  exists_eq_ok (by decide)

theorem encode_someReport : ∃ payload, Report.encode (someReport (twoPow 96 + 1)) = .ok payload := by
  obtain ⟨payload, h⟩ := encode_someWire
  exact ⟨payload, (make_someReport someCollaborators h).2⟩

theorem exec_prepare_of_limit {c : Collaborators} {limit : Int}
    (h : ∀ t, ∃ t', exec (priceLimit someSwap c someKey false) t = (.ok limit, t')) {payload : Bytes}
    (hwire : Abi.encode (Report.kinds .swap) (someWire limit) = .ok payload) :
    ∃ t, exec (prepare someSwap c) {} = (.ok ⟨someReport limit, 0⟩, t) := by
  have hgiven : ∀ s ∈ [someSwap.receiver, someSwap.poolSwapTest, someSwap.poolManager, someSwap.input.wallet],
      Text.isVacant s = false := by decide
  have hminimum : exec (minimumOut someSwap) {} = (.ok "0", (exec (minimumOut someSwap) {}).2) :=
    Prod.ext (exec_minimumOut someSwap {}).2 rfl
  have hamount : Uint256.ofText someSwap.input.amount = .ok 1000 := by decide
  have hzero : Uint256.ofText "0" = .ok 0 := by decide
  obtain ⟨t, hlimit⟩ := h (exec (minimumOut someSwap) {}).2
  exact ⟨t, exec_prepare hgiven poolKey_someSwap hminimum hlimit hamount hzero (make_someReport c hwire).1⟩

theorem exec_prepare_someSwap :
    ∃ t, exec (prepare someSwap someCollaborators) {} = (.ok ⟨someReport (twoPow 96 + 1), 0⟩, t) := by
  obtain ⟨payload, hwire⟩ := encode_someWire
  have hlimit := @exec_priceLimit_of_state someCollaborators _ _ _ rfl decodeSlot0_someState (by decide)
    (by decide : PriceLimit.after {} (twoPow 96) false = .ok (twoPow 96 + 1))
  exact exec_prepare_of_limit hlimit hwire

/-- A swap from the second token to the first is signed as such, with a limit above the price of its pool. -/
theorem some_swap_signed : ∃ payload ∈ (Run.start (run someSwap someCollaborators)).2.payloads, ∃ d x,
    Report.decode .swap payload = .ok d ∧ Terms.StatedBy x d ∧ x.Configured someSwap ∧
      x.Priced someSwap someCollaborators (Run.start (run someSwap someCollaborators)).2 := by
  obtain ⟨t, hp⟩ := exec_prepare_someSwap
  obtain ⟨payload, he⟩ := encode_someReport
  have hg : gasLimit someSwap.gasLimit = .ok 500000 := by decide +kernel
  have hm := @mem_payloads_of_prepared someSwap someCollaborators _ _ rfl rfl _ t hp payload he _ hg
  exact ⟨payload, hm, signed_as_configured someSwap someCollaborators payload hm⟩

end DefiActions.Workflow.Swap
