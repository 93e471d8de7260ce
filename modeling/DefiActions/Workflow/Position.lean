import DefiActions.Config.Records
import DefiActions.ContractCall
import DefiActions.Liquidity
import DefiActions.Network
import DefiActions.Pool.Mint
import DefiActions.Result
import DefiActions.Uint256
import DefiActions.Workflow.Guard

/-!
# Planning a liquidity position

The pair is put in order, the liquidity sized for the desired amounts at the
price of the pool, and the mint encoded. Nothing is submitted.
-/

namespace DefiActions.Workflow.Position

open Config (PositionConfig)

/-- The pool of the configured tokens; a spacing of zero or empty hooks count as not given. -/
def poolKey (config : PositionConfig) : Except Failure Pool.Key :=
  let fee := (config.pool.bind (·.fee)).getD Pool.defaultFee
  let spacing := ((config.pool.bind (·.spacing)).filter (· ≠ 0)).getD Pool.defaultSpacing
  let hooks := ((config.pool.bind (·.hooks)).filter (!·.isEmpty)).getD Address.zero
  Pool.Key.create config.tokenA.address config.tokenB.address (.int fee) (.int spacing) hooks

/-- The price of the pool; one to one where it cannot be read or is not set yet. -/
def currentPrice (config : PositionConfig) (c : Collaborators) (key : Pool.Key) : Run Int := do
  match Network.stateView? config.stateView config.chain, c.reader with
  | some view, some reader =>
    let call ← ContractCall.slot0 (← key.id)
    let slot0 ← ContractCall.decodeSlot0 (← Run.readContract reader view call)
    if slot0.sqrtPrice = 0 then
      Run.report .info "pool_uninitialized_default_price"
      return Tick.unit
    else return slot0.sqrtPrice
  | _, _ =>
    let _ ← key.idText
    Run.report .info "pool_price_default"
    return Tick.unit

structure Desired where
  amount0 : Nat
  amount1 : Nat
  deriving DecidableEq, Repr

/-- Amounts have to fit 128 bits. -/
def checkAmount (field : String) (amount : Nat) : Except Failure Unit :=
  if amount < Pool.Mint.amountBound then .ok ()
  else throw (.missing field s!"must fit in uint128, got {Text.numeral amount}")

def desired (config : PositionConfig) (key : Pool.Key) : Except Failure Desired := do
  let amountA ← Uint256.ofText config.amountA
  let amountB ← Uint256.ofText config.amountB
  checkAmount "amountA" amountA
  checkAmount "amountB" amountB
  return if key.isCurrency0 config.tokenA.address then ⟨amountA, amountB⟩ else ⟨amountB, amountA⟩

def plan (config : PositionConfig) (c : Collaborators) : Run Plan := do
  let recipient ← require config.recipient "recipient" (some "position owner address")
  let key ← poolKey config
  Tick.checkRange config.tickLower config.tickUpper (some key.spacing.toInt)
  let desired ← desired config key
  let price ← currentPrice config c key
  let liquidity ← Liquidity.maxForTicks config.tickLower config.tickUpper price desired.amount0
    desired.amount1 .early
  if liquidity = 0 then
    throw (.missing "amountA/amountB" "desired amounts size to zero liquidity")
  let lower ← Tick.sqrtRatio config.tickLower
  let upper ← Tick.sqrtRatio config.tickUpper
  let (used0, used1) ← Liquidity.amounts price lower upper liquidity
  let position : Pool.Mint.Position := {
    key, tickLower := config.tickLower, tickUpper := config.tickUpper, liquidity, recipient,
    maximum0 := desired.amount0, maximum1 := desired.amount1 }
  let unlockData ← Pool.Mint.encode position
  let poolId ← key.idText
  return {
    poolId, currency0 := key.currency0, currency1 := key.currency1
    tickLower := config.tickLower, tickUpper := config.tickUpper
    sqrtPrice := Text.numeral price, liquidity := Text.numeral liquidity
    amount0 := Text.numeral used0, amount1 := Text.numeral used1
    unlockData := Hex.literal unlockData }

/-- The failed result that a failure becomes. A refused value is reported by its text alone. -/
def failedResult (f : Failure) : Run PlanResult := do
  match f with
  | .action e =>
    match e.kind? with
    | none => throw .missingMember
    | some kind =>
      Run.report .warning "liquidity_plan_failed"
      return .failed e.message (some kind)
  | f =>
    if f.isRefusal then
      Run.report .warning "liquidity_plan_invalid"
      return .failed f.description none
    else
      Run.report .error "liquidity_plan_error"
      return .failed f.summary none

def run (config : PositionConfig) (c : Collaborators) : Run PlanResult :=
  tryCatch
    (do
      let plan ← plan config c
      Run.report .info "liquidity_planned"
      return .planned plan)
    failedResult

end DefiActions.Workflow.Position
