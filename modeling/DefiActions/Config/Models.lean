import DefiActions.Config.Shape

/-!
# The configurations of the workflows

One shape for each workflow, with the shapes of the objects that they share.
-/

namespace DefiActions.Config

def schedule : Label × Shape := textOr "schedule" "schedule" ""

def tokenShape : Shape := .object "TokenInfo" (.ofList [
  required "address" "address" .text,
  optional "symbol" "symbol" .text,
  optional "decimals" "decimals" .integer,
  optional "aTokenAddress" "a_token_address" .text])

def feedShape : Shape := .object "FeedConfig" (.ofList [
  required "name" "name" .text,
  required "address" "address" .text])

def poolShape : Shape := .object "PoolConfig" (.ofList [
  optional "fee" "fee" .integer,
  optional "tickSpacing" "tick_spacing" .integer,
  optional "hooks" "hooks" .text])

def swapInputShape : Shape := .object "SwapInputConfig" (.ofList [
  required "sourceToken" "source_token" tokenShape,
  required "destinationToken" "destination_token" tokenShape,
  required "amount" "amount" .text,
  required "swapType" "swap_type" (.choice ["EXACT_INPUT", "EXACT_OUTPUT"]),
  required "walletAddress" "wallet_address" .text,
  optional "slippageTolerance" "slippage_tolerance" .number,
  optional "deadline" "deadline" .integer,
  optional "amountOutMinimum" "amount_out_minimum" .text])

def lendingInputShape : Shape := .object "LendingInputConfig" (.ofList [
  required "operation" "operation"
    (.choice ["SUPPLY", "WITHDRAW", "BORROW", "REPAY", "ENABLE_COLLATERAL", "DISABLE_COLLATERAL"]),
  required "asset" "asset" tokenShape,
  required "amount" "amount" .text,
  required "walletAddress" "wallet_address" .text,
  optional "interestRateMode" "interest_rate_mode" (.choice ["STABLE", "VARIABLE"]),
  optional "onBehalfOf" "on_behalf_of" .text,
  optional "referralCode" "referral_code" .integer])

/-- A provider is named by the one text that it may have. -/
def provider (name : String) : Label × Shape :=
  withDefault "provider" "provider" (.choice [name]) (.text name)

def readFeedsShape : Shape := .object "ReadFeedsConfig" (.ofList [
  schedule,
  required "chainName" "chain_name" .text,
  required "feeds" "feeds" (.list feedShape),
  optional "staleAfterSeconds" "stale_after_seconds" .positive])

def uniswapSwapShape : Shape := .object "UniswapSwapConfig" (.ofList [
  schedule,
  required "chain" "chain" .text,
  required "chainSelectorName" "chain_selector_name" .text,
  provider "UNISWAP",
  textOr "swapReceiverAddress" "swap_receiver_address" "",
  textOr "poolSwapTestAddress" "pool_swap_test_address" "",
  textOr "poolManagerAddress" "pool_manager_address" "",
  optional "stateViewAddress" "state_view_address" .text,
  required "gasLimit" "gas_limit" .text,
  required "inputConfig" "input_config" swapInputShape,
  optional "poolConfig" "pool_config" poolShape,
  optional "feeTier" "fee_tier" .integer])

def aaveLendingShape : Shape := .object "AaveLendingConfig" (.ofList [
  schedule,
  required "chain" "chain" .text,
  required "chainSelectorName" "chain_selector_name" .text,
  provider "AAVE",
  textOr "aaveReceiverAddress" "aave_receiver_address" "",
  textOr "poolAddress" "pool_address" "",
  required "gasLimit" "gas_limit" .text,
  required "inputConfig" "input_config" lendingInputShape])

def lifiSwapShape : Shape := .object "LifiSwapConfig" (.ofList [
  schedule,
  required "chain" "chain" .text,
  required "chainSelectorName" "chain_selector_name" .text,
  provider "LIFI",
  textOr "swapReceiverAddress" "swap_receiver_address" "",
  required "gasLimit" "gas_limit" .text,
  required "inputConfig" "input_config" swapInputShape])

def ostiumTradeShape : Shape := .object "OstiumTradeConfig" (.ofList [
  schedule,
  required "network" "network" (.choice ["testnet", "mainnet"]),
  required "market" "market" .text,
  required "side" "side" (.choice ["long", "short"]),
  required "collateral" "collateral" .number,
  required "leverage" "leverage" .number,
  required "traderAddress" "trader_address" .text,
  required "serviceUrl" "service_url" .text,
  optional "slPrice" "sl_price" .number,
  optional "tpPrice" "tp_price" .number])

def liquidityPositionShape : Shape := .object "LiquidityPositionConfig" (.ofList [
  textOr "chain" "chain" "",
  required "tokenA" "token_a" tokenShape,
  required "tokenB" "token_b" tokenShape,
  required "amountA" "amount_a" .text,
  required "amountB" "amount_b" .text,
  required "tickLower" "tick_lower" .integer,
  required "tickUpper" "tick_upper" .integer,
  textOr "recipient" "recipient" "",
  optional "poolConfig" "pool_config" poolShape,
  optional "stateViewAddress" "state_view_address" .text])

end DefiActions.Config
