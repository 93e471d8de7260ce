import DefiActions.Config.Records
import DefiActions.ContractCall
import DefiActions.Network
import DefiActions.Pool.Key
import DefiActions.Pool.PriceLimit
import DefiActions.Report.Payload
import DefiActions.Workflow.Guard
import DefiActions.Uint256

/-!
# Swaps in one pool

The pool is derived from the two tokens and the pool settings, the price limit
from the state of the pool, and the report goes to the swap receiver.
-/

namespace DefiActions.Workflow.Swap

open Config (SwapConfig)

/-- Seconds from now to the deadline of a swap that has none. -/
def deadlineSeconds : Int := 20 * 60

def present? (s : Option String) : Option String := s.filter (!·.isEmpty)

/-- The pool of the configured tokens, and the direction of the swap. -/
def poolKey (config : SwapConfig) : Except Failure (Pool.Key × Bool) :=
  let fee := ((config.pool.bind (·.fee)).or config.feeTier).getD Pool.defaultFee
  let spacing := (config.pool.bind (·.spacing)).getD Pool.defaultSpacing
  let hooks := (present? (config.pool.bind (·.hooks))).getD Address.zero
  Pool.Key.forSwap config.input.source.address config.input.destination.address (.int fee)
    (.int spacing) hooks

def stateView? (config : SwapConfig) : Option String := Network.stateView? config.stateView config.chain

/-- The price limit from the state of the pool, or the widest one where no state can be asked for. -/
def priceLimit (config : SwapConfig) (c : Collaborators) (key : Pool.Key) (zeroForOne : Bool) :
    Run Int := do
  match stateView? config with
  | none => PriceLimit.fallback {} zeroForOne
  | some view =>
    match c.reader with
    | none => throw (.missing "reader" "stateViewAddress is set but no contract reader")
    | some reader =>
      let call ← ContractCall.slot0 (← key.id)
      let slot0 ← ContractCall.decodeSlot0 (← Run.readContract reader view call)
      Run.report .debug "pool_slot0_read"
      if slot0.sqrtPrice = 0 then fail (.poolUninitialized (some (← key.idText)))
      PriceLimit.after {} slot0.sqrtPrice zeroForOne

/-- The least amount out as text; only swaps of an exact input have one. -/
def minimumOut (config : SwapConfig) : Run String := do
  match config.input.swapType with
  | .exactOutput => return "0"
  | .exactInput =>
    let minimum := (present? config.input.minimumOut).getD "0"
    if minimum = "0" then Run.report .warning "amount_out_minimum_unset"
    return minimum

/-- A report that is ready to be encoded, and the least amount out that it names. -/
structure Prepared where
  report : Report.Descriptor
  minimumOut : Nat

def prepare (config : SwapConfig) (c : Collaborators) : Run Prepared := do
  let _ ← require config.receiver "swapReceiverAddress" (some "deploy SwapReceiver and set in config")
  let poolSwapTest ← require config.poolSwapTest "poolSwapTestAddress"
    (some "Uniswap V4 PoolSwapTest address")
  let poolManager ← require config.poolManager "poolManagerAddress"
    (some "Uniswap V4 PoolManager address")
  let (key, zeroForOne) ← poolKey config
  let minimumText ← minimumOut config
  let deadline := (config.input.deadline.filter (· ≠ 0)).getD (c.now + deadlineSeconds)
  let limit ← priceLimit config c key zeroForOne
  let amountIn ← Uint256.ofText config.input.amount
  let minimum ← Uint256.ofText minimumText
  let recipient ← require config.input.wallet "walletAddress"
  let report ← Report.Descriptor.make .swap [
    ("currency0", .text key.currency0), ("currency1", .text key.currency1), ("fee", key.fee.toValue),
    ("tick_spacing", key.spacing.toValue), ("hooks", .text key.hooks),
    ("zero_for_one", .bool zeroForOne), ("amount_in", .int amountIn), ("amount_out_min", .int minimum),
    ("hook_data", .bytes []), ("recipient", .text recipient), ("deadline", .int deadline),
    ("pool_swap_test_address", .text poolSwapTest), ("pool_manager_address", .text poolManager),
    ("sqrt_price_limit_x96", .int limit)]
  return ⟨report, minimum⟩

def action (config : SwapConfig) (c : Collaborators) : Run ActionResult := do
  let prepared ← prepare config c
  let payload ← Report.encode prepared.report
  Run.report .info "v4_swap"
  let gas ← gasLimit config.gasLimit
  let outcome ← submit c config.receiver payload gas
  Settlement.classify outcome config.input.amount (some (Text.numeral prepared.minimumOut)) none

def run (config : SwapConfig) (c : Collaborators) : Run ActionResult :=
  guarded "uniswap_swap" config.input.amount none (action config c)

end DefiActions.Workflow.Swap
