import DefiActions.Proofs.GuardLemmas
import DefiActions.Proofs.HoldingSound
import DefiActions.Proofs.MintSound
import DefiActions.Workflow.Position

/-!
# Planned positions

A plan names one pool throughout: the one whose price was read, whose id it
carries and in which its data mints. The position that it mints is paid for by
the desired amounts of the two currencies.
-/

namespace DefiActions.Workflow.Position

open Config (PositionConfig)
open Run (exec exec_bind_eq_ok exec_lift_bind_eq_ok)

/-! ## What is planned -/

structure Terms where
  currency0 : Bytes
  currency1 : Bytes
  hooks : Bytes
  fee : Int
  spacing : Int
  liquidity : Int
  used0 : Int
  used1 : Int
  desired : Desired
  recipient : Bytes

namespace Terms

/-- The terms are those of the configuration: each amount
belongs to its token, in whichever order the tokens are. -/
structure Configured (x : Terms) (config : PositionConfig) : Prop where
  length0 : x.currency0.length = 20
  length1 : x.currency1.length = 20
  lt : Bytes.toNat x.currency0 < Bytes.toNat x.currency1
  desired :
    (Address.normalize config.tokenA.address = Hex.literal x.currency0 ∧
      Address.normalize config.tokenB.address = Hex.literal x.currency1 ∧
      Uint256.ofText config.amountA = .ok x.desired.amount0 ∧
      Uint256.ofText config.amountB = .ok x.desired.amount1) ∨
    (Address.normalize config.tokenA.address = Hex.literal x.currency1 ∧
      Address.normalize config.tokenB.address = Hex.literal x.currency0 ∧
      Uint256.ofText config.amountA = .ok x.desired.amount1 ∧
      Uint256.ofText config.amountB = .ok x.desired.amount0)
  recipient : Address.normalize config.recipient = Hex.literal x.recipient

structure StatedBy (x : Terms) (config : PositionConfig) (p : Plan) : Prop where
  currency0 : p.currency0 = Hex.literal x.currency0
  currency1 : p.currency1 = Hex.literal x.currency1
  tickLower : p.tickLower = config.tickLower
  tickUpper : p.tickUpper = config.tickUpper
  liquidity : p.liquidity = Text.numeral x.liquidity
  amount0 : p.amount0 = Text.numeral x.used0
  amount1 : p.amount1 = Text.numeral x.used1
  liquidity_pos : 0 < x.liquidity
  used0_le : 0 ≤ x.used0 ∧ x.used0 ≤ x.desired.amount0
  used1_le : 0 ≤ x.used1 ∧ x.used1 ≤ x.desired.amount1

/-- The data of the plan mints the position of these terms and closes both currencies. -/
def Minted (x : Terms) (p : Plan) : Prop :=
  ∃ data mint close0 close1, p.unlockData = Hex.literal data ∧
    Abi.decode [.bytes, .bytesList] data = .ok [.bytes [0x02, 0x12, 0x12],
      .list [.bytes mint, .bytes close0, .bytes close1]] ∧
    Abi.decode Pool.Mint.mintKinds mint = .ok [
      .list [.text p.currency0, .text p.currency1, .int x.fee, .int x.spacing, .text (Hex.literal x.hooks)],
      .int p.tickLower, .int p.tickUpper, .int x.liquidity, .int x.desired.amount0, .int x.desired.amount1,
      .text (Hex.literal x.recipient), .bytes []] ∧
    Abi.decode [.address] close0 = .ok [.text p.currency0] ∧ Abi.decode [.address] close1 = .ok [.text p.currency1]

/-- The plan carries the id of the pool of these terms, and no other pool was asked for its state. -/
def Priced (x : Terms) (config : PositionConfig) (p : Plan) (t : Trace) : Prop :=
  ∃ key, Abi.encode [.address, .address, .uint 24, .int 24, .address]
      [.bytes x.currency0, .bytes x.currency1, .int x.fee, .int x.spacing, .bytes x.hooks] = .ok key ∧
    p.poolId = Hex.literal (Keccak.hash key) ∧
    (t.reads = [] ∨ ∃ view, Network.stateView? config.stateView config.chain = some view ∧
      t.reads = [⟨view, ContractCall.stateRead key⟩])

end Terms

/-! ## Planning -/

theorem poolKey_eq_ok {config : PositionConfig} {key : Pool.Key} (h : poolKey config = .ok key) :
    ∃ forward, key.Orders config.tokenA.address config.tokenB.address forward ∧ (∃ fee, key.fee = .int fee) ∧
      (∃ spacing, key.spacing = .int spacing) ∧ key.IsNormal := by
  obtain ⟨⟨_, forward⟩, hk, rfl⟩ := map_eq_ok.mp h
  obtain ⟨ho, hf, hs, hn⟩ := Pool.Key.forSwap_eq_ok hk
  exact ⟨forward, ho, ⟨_, hf⟩, ⟨_, hs⟩, hn⟩

theorem checkAmount_eq_ok {field : String} {amount : Nat} {u : Unit} :
    checkAmount field amount = .ok u ↔ amount < Pool.Mint.amountBound := by
  simp only [checkAmount, ite_throw_eq_ok, and_true]

theorem desired_eq_ok_iff {config : PositionConfig} {key : Pool.Key} {want : Desired} {forward : Bool}
    (ho : key.Orders config.tokenA.address config.tokenB.address forward) : desired config key = .ok want ↔
      ∃ a b, Uint256.ofText config.amountA = .ok a ∧ Uint256.ofText config.amountB = .ok b ∧
        a < Pool.Mint.amountBound ∧ b < Pool.Mint.amountBound ∧ want = if forward then ⟨a, b⟩ else ⟨b, a⟩ := by
  simp only [desired, bind_eq_ok, pure_eq_ok, checkAmount_eq_ok, ho.isCurrency0_source]
  constructor
  · rintro ⟨a, ha, b, hb, -, hca, -, hcb, rfl⟩
    exact ⟨a, b, ha, hb, hca, hcb, rfl⟩
  · rintro ⟨a, b, ha, hb, hca, hcb, rfl⟩
    exact ⟨a, ha, b, hb, (), hca, (), hcb, rfl⟩

theorem desired_eq_ok {config : PositionConfig} {key : Pool.Key} {want : Desired} {forward : Bool}
    (ho : key.Orders config.tokenA.address config.tokenB.address forward) (h : desired config key = .ok want) :
    if forward then
      Uint256.ofText config.amountA = .ok want.amount0 ∧ Uint256.ofText config.amountB = .ok want.amount1
    else
      Uint256.ofText config.amountA = .ok want.amount1 ∧ Uint256.ofText config.amountB = .ok want.amount0 := by
  obtain ⟨a, b, ha, hb, -, -, rfl⟩ := (desired_eq_ok_iff ho).mp h
  cases forward with
  | true => exact ⟨ha, hb⟩
  | false => exact ⟨ha, hb⟩

theorem exec_currentPrice {config : PositionConfig} {c : Collaborators} {key : Pool.Key} {t t' : Trace}
    {price : Int} (h : exec (currentPrice config c key) t = (.ok price, t')) : t'.reads = t.reads ∨
      ∃ view i call, Network.stateView? config.stateView config.chain = some view ∧ key.id = .ok i ∧
        ContractCall.slot0 i = .ok call ∧ t'.reads = t.reads ++ [⟨view, call⟩] := by
  unfold currentPrice at h
  split at h
  · rename_i view reader hv hr
    obtain ⟨i, hi, h⟩ := exec_lift_bind_eq_ok.mp h
    obtain ⟨call, hcall, h⟩ := exec_lift_bind_eq_ok.mp h
    obtain ⟨answer, t₁, hanswer, h⟩ := exec_bind_eq_ok.mp h
    obtain ⟨slot0, -, h⟩ := exec_lift_bind_eq_ok.mp h
    obtain ⟨-, rfl⟩ := Prod.mk.inj ((Run.exec_answer _ _ _).symm.trans hanswer)
    refine Or.inr ⟨view, i, call, hv, hi, hcall, ?_⟩
    split at h
    · obtain ⟨_, t₂, hreport, h⟩ := exec_bind_eq_ok.mp h
      obtain ⟨-, rfl⟩ := Prod.mk.inj hreport
      obtain ⟨-, rfl⟩ := Prod.mk.inj h
      rfl
    · obtain ⟨-, rfl⟩ := Prod.mk.inj h
      rfl
  · obtain ⟨_, -, h⟩ := exec_lift_bind_eq_ok.mp h
    obtain ⟨_, t₁, hreport, h⟩ := exec_bind_eq_ok.mp h
    obtain ⟨-, rfl⟩ := Prod.mk.inj hreport
    obtain ⟨-, rfl⟩ := Prod.mk.inj h
    exact Or.inl rfl

theorem plan_eq_ok {config : PositionConfig} {c : Collaborators} {p : Plan} {t : Trace}
    (h : exec (plan config c) {} = (.ok p, t)) : ∃ key want price liquidity lower upper used0 used1 data,
      poolKey config = .ok key ∧ desired config key = .ok want ∧
      exec (currentPrice config c key) {} = (.ok price, t) ∧
      Liquidity.maxForTicks config.tickLower config.tickUpper price want.amount0 want.amount1 .early =
        .ok liquidity ∧
      liquidity ≠ 0 ∧ Tick.sqrtRatio config.tickLower = .ok lower ∧ Tick.sqrtRatio config.tickUpper = .ok upper ∧
      Liquidity.amounts price lower upper liquidity = .ok (used0, used1) ∧
      Pool.Mint.encode ⟨key, config.tickLower, config.tickUpper, liquidity, config.recipient, want.amount0,
        want.amount1, .bytes []⟩ = .ok data ∧
      key.idText = .ok p.poolId ∧ p.currency0 = key.currency0 ∧ p.currency1 = key.currency1 ∧
      p.tickLower = config.tickLower ∧ p.tickUpper = config.tickUpper ∧ p.liquidity = Text.numeral liquidity ∧
      p.amount0 = Text.numeral used0 ∧ p.amount1 = Text.numeral used1 ∧ p.unlockData = Hex.literal data := by
  obtain ⟨recipient, hrecipient, h⟩ := exec_lift_bind_eq_ok.mp h
  obtain ⟨key, hkey, h⟩ := exec_lift_bind_eq_ok.mp h
  obtain ⟨_, -, h⟩ := exec_lift_bind_eq_ok.mp h
  obtain ⟨want, hwant, h⟩ := exec_lift_bind_eq_ok.mp h
  obtain ⟨price, t₁, hprice, h⟩ := exec_bind_eq_ok.mp h
  obtain ⟨liquidity, hliquidity, h⟩ := exec_lift_bind_eq_ok.mp h
  rw [require_eq_ok hrecipient] at h
  split at h
  · obtain ⟨_, _, hthrow, -⟩ := exec_bind_eq_ok.mp h
    cases hthrow
  rename_i hne
  obtain ⟨lower, hlower, h⟩ := exec_lift_bind_eq_ok.mp h
  obtain ⟨upper, hupper, h⟩ := exec_lift_bind_eq_ok.mp h
  obtain ⟨⟨used0, used1⟩, hused, h⟩ := exec_lift_bind_eq_ok.mp h
  obtain ⟨data, hdata, h⟩ := exec_lift_bind_eq_ok.mp h
  obtain ⟨poolId, hid, h⟩ := exec_lift_bind_eq_ok.mp h
  obtain ⟨hp, rfl⟩ := Prod.mk.inj h
  obtain rfl := Except.ok.inj hp
  exact ⟨key, want, price, liquidity, lower, upper, used0, used1, data, hkey, hwant, hprice, hliquidity, hne,
    hlower, hupper, hused, hdata, hid, rfl, rfl, rfl, rfl, rfl, rfl, rfl, rfl⟩

theorem exec_failedResult_ne (f : Failure) (t : Trace) (p : Plan) :
    (exec (failedResult f) t).1 ≠ .ok (.planned p) := by
  intro h
  unfold failedResult at h
  split at h
  · split at h
    · cases h
    · cases h
  · split at h
    · cases h
    · cases h

theorem run_eq_ok {config : PositionConfig} {c : Collaborators} {p : Plan} {t t' : Trace}
    (h : exec (run config c) t = (.ok (.planned p), t')) :
    ∃ t₀, exec (plan config c) t = (.ok p, t₀) ∧ t'.reads = t₀.reads := by
  rw [run, Run.exec_tryCatch, Run.exec_bind] at h
  cases hp : exec (plan config c) t with
  | mk x t₀ =>
    rw [hp] at h
    cases x with
    | error e => exact absurd (congrArg Prod.fst h) (exec_failedResult_ne e t₀ p)
    | ok p' =>
      obtain ⟨hp', rfl⟩ := Prod.mk.inj h
      obtain rfl := PlanResult.planned.inj (Except.ok.inj hp')
      exact ⟨t₀, rfl, rfl⟩

theorem exec_plan {config : PositionConfig} {c : Collaborators} {key : Pool.Key} {want : Desired}
    {price liquidity lower upper used0 used1 : Int} {data : Bytes} {poolId : String} {t : Trace}
    (hrecipient : Text.isVacant config.recipient = false) (hkey : poolKey config = .ok key)
    (hrange : Tick.checkRange config.tickLower config.tickUpper (some key.spacing.toInt) = .ok ())
    (hwant : desired config key = .ok want) (hprice : exec (currentPrice config c key) {} = (.ok price, t))
    (hliquidity : Liquidity.maxForTicks config.tickLower config.tickUpper price want.amount0 want.amount1 .early =
      .ok liquidity) (hne : liquidity ≠ 0) (hlower : Tick.sqrtRatio config.tickLower = .ok lower)
    (hupper : Tick.sqrtRatio config.tickUpper = .ok upper)
    (hused : Liquidity.amounts price lower upper liquidity = .ok (used0, used1))
    (hdata : Pool.Mint.encode ⟨key, config.tickLower, config.tickUpper, liquidity, config.recipient, want.amount0,
      want.amount1, .bytes []⟩ = .ok data) (hid : key.idText = .ok poolId) :
    ∃ p, (Run.start (run config c)).1 = .ok (.planned p) := by
  have hplan : ∃ p, exec (plan config c) {} = (.ok p, t) := by
    simp only [plan, Run.exec_bind, Run.exec_lift, require_of_given hrecipient, hkey, hrange, hwant, hprice,
      hliquidity, if_neg hne, hlower, hupper, hused, hdata, hid]
    exact ⟨_, rfl⟩
  obtain ⟨p, hp⟩ := hplan
  refine ⟨p, ?_⟩
  rw [Run.start_eq, run, Run.exec_tryCatch, Run.exec_bind_of_ok hp]
  rfl

/-! ## Soundness -/

section

variable {config : PositionConfig} {c : Collaborators} {key : Pool.Key} {c0 c1 hooks recipient : Bytes}
  {fee spacing : Int} {want : Desired}

theorem used_le {price liquidity lower upper used0 used1 : Int}
    (hliquidity : Liquidity.maxForTicks config.tickLower config.tickUpper price want.amount0 want.amount1 .early =
      .ok liquidity) (hlower : Tick.sqrtRatio config.tickLower = .ok lower)
    (hupper : Tick.sqrtRatio config.tickUpper = .ok upper)
    (hused : Liquidity.amounts price lower upper liquidity = .ok (used0, used1)) :
    0 ≤ liquidity ∧ (0 ≤ used0 ∧ used0 ≤ want.amount0) ∧ 0 ≤ used1 ∧ used1 ≤ want.amount1 := by
  obtain ⟨hnonneg, a, b, u, v, ha, hb, hamounts, hu, hux, hv, hvy⟩ := Liquidity.amounts_of_maxForTicks hliquidity
  obtain rfl := Except.ok.inj (ha.symm.trans hlower)
  obtain rfl := Except.ok.inj (hb.symm.trans hupper)
  obtain ⟨rfl, rfl⟩ := Prod.mk.inj (Except.ok.inj (hamounts.symm.trans hused))
  exact ⟨hnonneg, ⟨hu, hux⟩, hv, hvy⟩

theorem configured {forward : Bool} (ho : key.Orders config.tokenA.address config.tokenB.address forward)
    (hk : key.Denotes c0 c1 hooks) (hwant : desired config key = .ok want)
    (hr : Address.normalize config.recipient = Hex.literal recipient) (liquidity used0 used1 : Int) :
    Terms.Configured ⟨c0, c1, hooks, fee, spacing, liquidity, used0, used1, want, recipient⟩ config := by
  have hdesired := desired_eq_ok ho hwant
  exact {
    length0 := hk.length0
    length1 := hk.length1
    lt := hk.lt_iff.mp ho.lt
    desired := by
      simp only
      rw [← hk.currency0, ← hk.currency1]
      cases forward with
      | true => exact Or.inl ⟨(ho.forward rfl).1, (ho.forward rfl).2, hdesired.1, hdesired.2⟩
      | false => exact Or.inr ⟨(ho.backward rfl).1, (ho.backward rfl).2, hdesired.1, hdesired.2⟩
    recipient := hr }

theorem priced (ho : key.currency0 < key.currency1) (hk : key.Denotes c0 c1 hooks) (hf : key.fee = .int fee)
    (hs : key.spacing = .int spacing) {enc : Bytes}
    (henc : Abi.WordKind.encodeAll Pool.Key.kinds (key.wireParts c0 c1 hooks) = .ok enc) {price : Int}
    {t t' : Trace}
    (hprice : exec (currentPrice config c key) {} = (.ok price, t)) (ht : t'.reads = t.reads) {p : Plan}
    (hid : key.idText = .ok p.poolId) (liquidity used0 used1 : Int) :
    Terms.Priced ⟨c0, c1, hooks, fee, spacing, liquidity, used0, used1, want, recipient⟩ config p t' := by
  have hencode := Abi.encode_of_encodeAll henc
  rw [Pool.Key.wireParts, hf, hs] at hencode
  have hi : key.id = .ok (Keccak.hash enc) := hk.id_eq ho henc
  refine ⟨enc, hencode, ?_, ?_⟩
  · rw [Pool.Key.idText, hi] at hid
    exact (Except.ok.inj hid).symm
  · rcases exec_currentPrice hprice with hr | ⟨view, i, call, hview, hi', hcall, hr⟩
    · exact Or.inl (ht.trans hr)
    · have hc : call = ContractCall.stateRead enc := by
        rw [hi] at hi'
        rw [← Except.ok.inj hi', ContractCall.slot0_hash] at hcall
        exact (Except.ok.inj hcall).symm
      rw [hc] at hr
      exact Or.inr ⟨view, hview, ht.trans hr⟩

theorem minted {position : Pool.Mint.Position} (hd : Pool.Mint.Denotes position c0 c1 hooks recipient [])
    (hf : position.key.fee = .int fee) (hs : position.key.spacing = .int spacing)
    (h0 : position.maximum0 = want.amount0) (h1 : position.maximum1 = want.amount1)
    {data mint close0 close1 : Bytes}
    (houter : Abi.decode Pool.Mint.outerKinds data = .ok [.bytes Pool.Mint.actions,
      .list [.bytes mint, .bytes close0, .bytes close1]])
    (hmint : Abi.decode Pool.Mint.mintKinds mint = .ok (Pool.Mint.readMint position recipient []))
    (hclose0 : Abi.decode [.address] close0 = .ok [.text position.key.currency0])
    (hclose1 : Abi.decode [.address] close1 = .ok [.text position.key.currency1]) {p : Plan}
    (hunlock : p.unlockData = Hex.literal data) (hc0 : p.currency0 = position.key.currency0)
    (hc1 : p.currency1 = position.key.currency1) (hl : p.tickLower = position.tickLower)
    (hu : p.tickUpper = position.tickUpper) (used0 used1 : Int) :
    Terms.Minted ⟨c0, c1, hooks, fee, spacing, position.liquidity, used0, used1, want, recipient⟩ p := by
  refine ⟨data, mint, close0, close1, hunlock, houter, ?_, by rw [hc0]; exact hclose0, by rw [hc1]; exact hclose1⟩
  rw [hmint, Pool.Mint.readMint, hc0, hc1, hl, hu, hf, hs, h0, h1, hd.key.hooks]
  rfl

end

/-- **A plan that is made is paid for by what was desired and mints into the pool that was priced.** -/
theorem plan_sound (config : PositionConfig) (c : Collaborators) (p : Plan)
    (h : (Run.start (run config c)).1 = .ok (.planned p)) : ∃ x : Terms, x.Configured config ∧ x.StatedBy config p ∧
      x.Minted p ∧ x.Priced config p (Run.start (run config c)).2 := by
  rw [Run.start_eq] at h ⊢
  obtain ⟨t₀, hplan, hreads⟩ := @run_eq_ok config c p {} (exec (run config c) {}).2 (Prod.ext h rfl)
  obtain ⟨key, want, price, liquidity, lower, upper, used0, used1, data, hkey, hwant, hprice, hliquidity, hne,
    hlower, hupper, hused, hdata, hid, hc0, hc1, htl, htu, hl, ha0, ha1, hunlock⟩ := plan_eq_ok hplan
  obtain ⟨forward, ho, ⟨fee, hf⟩, ⟨spacing, hs⟩, hn⟩ := poolKey_eq_ok hkey
  obtain ⟨c0, c1, hooks, recipient, hook, mint, close0, close1, hd, houter, hmint, hclose0, hclose1⟩ :=
    Pool.Mint.decode_encode hdata hn
  obtain rfl : hook = [] := Except.ok.inj (hd.hook.symm.trans rfl)
  obtain ⟨enc, henc⟩ := hd.parts
  obtain ⟨hnonneg, hused0, hused1⟩ := used_le hliquidity hlower hupper hused
  have hk : key.Denotes c0 c1 hooks := hd.key
  refine ⟨⟨c0, c1, hooks, fee, spacing, liquidity, used0, used1, want, recipient⟩,
    configured ho hk hwant hd.recipient _ _ _, ?_,
    minted hd hf hs rfl rfl houter hmint hclose0 hclose1 hunlock hc0 hc1 htl htu _ _,
    priced ho.lt hk hf hs henc hprice hreads hid _ _ _⟩
  exact {
    currency0 := hc0.trans hk.currency0
    currency1 := hc1.trans hk.currency1
    tickLower := htl
    tickUpper := htu
    liquidity := hl
    amount0 := ha0
    amount1 := ha1
    liquidity_pos := Int.lt_iff_le_and_ne.mpr ⟨hnonneg, hne.symm⟩
    used0_le := hused0
    used1_le := hused1 }

/-! ## A plan that is made -/

open ContractCall (someState decodeSlot0_someState)
open Pool.Key (someKey someOctets denotes_someKey someKey_lt encodeAll_someKey)

def somePosition : PositionConfig where
  chain := "ethereum"
  tokenA := ⟨someKey.currency1, none⟩
  tokenB := ⟨someKey.currency0, none⟩
  amountA := "2000000"
  amountB := "1000000"
  tickLower := -60
  tickUpper := 60
  recipient := Hex.literal (someOctets 5)
  pool := none
  stateView := some "view"

def someReader : Collaborators where
  reader := some fun _ _ _ => .ok someState

theorem exec_currentPrice_somePosition :
    ∃ t, exec (currentPrice somePosition someReader someKey) {} = (.ok (twoPow 96), t) := by
  obtain ⟨enc, he⟩ := encodeAll_someKey
  have hi := denotes_someKey.id_eq someKey_lt he
  have hv : Network.stateView? somePosition.stateView somePosition.chain = some "view" := rfl
  have hprice : (twoPow 96 : Int) ≠ 0 := by decide
  have hread (call : Bytes) :
      exec (Run.readContract (fun _ _ _ => .ok someState) "view" call) {} =
        (.ok someState, { reads := [⟨"view", call⟩] }) := rfl
  simp only [currentPrice, hv, someReader, hi, Run.exec_bind, Run.exec_lift, ContractCall.slot0_hash, hread,
    decodeSlot0_someState, if_neg hprice]
  exact ⟨_, rfl⟩

theorem desired_somePosition : desired somePosition someKey = .ok ⟨1000000, 2000000⟩ := by
  have ha : Uint256.ofText somePosition.amountA = .ok 2000000 := by decide
  have hb : Uint256.ofText somePosition.amountB = .ok 1000000 := by decide
  have hca : checkAmount "amountA" 2000000 = .ok () := by decide
  have hcb : checkAmount "amountB" 1000000 = .ok () := by decide
  have hc : someKey.isCurrency0 somePosition.tokenA.address = false := by
    refine decide_eq_false fun h => ?_
    have hn : Address.normalize somePosition.tokenA.address = someKey.currency1 :=
      denotes_someKey.isNormal.currency1
    rw [hn] at h
    exact String.lt_irrefl _ (h ▸ someKey_lt)
  simp only [desired, ha, hb, hca, hcb, hc, ok_bind]
  rfl

theorem encode_somePosition :
    ∃ data, Pool.Mint.encode ⟨someKey, -60, 60, 333850249, Hex.literal (someOctets 5), 1000000,
      2000000, .bytes []⟩ = .ok data := by
  have hd : Pool.Mint.Denotes ⟨someKey, -60, 60, 333850249, Hex.literal (someOctets 5), 1000000, 2000000, .bytes []⟩
      (someOctets 1) (someOctets 2) (someOctets 0) (someOctets 5) [] :=
    ⟨denotes_someKey, encodeAll_someKey, Address.normalize_literal _, rfl⟩
  rw [hd.encode_eq rfl]
  exact exists_eq_ok (by decide +kernel)

/-- A plan for tokens in descending order, at a price that was read. -/
theorem some_plan_sound : ∃ p, (Run.start (run somePosition someReader)).1 = .ok (.planned p) ∧
    ∃ x : Terms, x.Configured somePosition ∧ x.StatedBy somePosition p ∧ x.Minted p ∧
      x.Priced somePosition p (Run.start (run somePosition someReader)).2 := by
  have hgiven : Text.isVacant somePosition.recipient = false := by decide +kernel
  have hkey : poolKey somePosition = .ok someKey := by
    have h : Pool.Key.forSwap somePosition.tokenA.address somePosition.tokenB.address (.int Pool.defaultFee)
        (.int Pool.defaultSpacing) Address.zero = .ok (someKey, false) :=
      denotes_someKey.forSwap someKey_lt (by decide) (by decide)
    simp only [poolKey, somePosition, Option.bind_none, Option.filter_none, Option.getD_none] at h ⊢
    rw [Pool.Key.create, h]
    rfl
  have hrange : Tick.checkRange (-60) 60 (some someKey.spacing.toInt) = .ok () := by decide +kernel
  have hsized : Liquidity.maxForTicks (-60) 60 (twoPow 96) (1000000 : Nat) (2000000 : Nat) .early =
      .ok 333850249 := by
    decide +kernel
  obtain ⟨-, a, b, u, v, ha, hb, hused, -⟩ := Liquidity.amounts_of_maxForTicks hsized
  obtain ⟨enc, he⟩ := encodeAll_someKey
  have hid : someKey.idText = .ok (Hex.literal (Keccak.hash enc)) := by
    rw [Pool.Key.idText, denotes_someKey.id_eq someKey_lt he]
    rfl
  obtain ⟨t, hprice⟩ := exec_currentPrice_somePosition
  obtain ⟨data, hdata⟩ := encode_somePosition
  obtain ⟨p, hp⟩ := exec_plan hgiven hkey hrange desired_somePosition hprice hsized
    (by decide) ha hb hused hdata hid
  exact ⟨p, hp, plan_sound somePosition someReader p hp⟩

end DefiActions.Workflow.Position
