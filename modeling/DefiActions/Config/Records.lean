import DefiActions.Config.Validation
import DefiActions.Config.Models

/-!
# Configurations as records

The normal form of a configuration read into a record of the fields that its
workflow looks at. A normal form has every field, so the readers need no failures.
-/

namespace DefiActions.Config

def text? : Value → Option String
  | .text s => some s
  | _ => none

def int? : Value → Option Int
  | .int n => some n
  | _ => none

def number? : Value → Option Binary64
  | .float x => some x
  | _ => none

def textAt (v : Value) (name : String) : String := (text? (v.member name)).getD ""

def intAt (v : Value) (name : String) : Int := (int? (v.member name)).getD 0

def numberAt (v : Value) (name : String) : Binary64 := (number? (v.member name)).getD .zero

/-- The field read by `f`, unless it is `null`. -/
def optionalAt (v : Value) (name : String) (f : Value → α) : Option α :=
  if (v.member name).isNull then none else some (f (v.member name))

def itemsAt (v : Value) (name : String) : List Value :=
  match v.member name with
  | .list vs => vs
  | _ => []

/-! ## Shared records -/

structure Token where
  address : String
  aTokenAddress : Option String
  deriving DecidableEq, Repr

def Token.ofValue (v : Value) : Token :=
  ⟨textAt v "address", text? (v.member "aTokenAddress")⟩

structure Feed where
  name : String
  address : String
  deriving DecidableEq, Repr

def Feed.ofValue (v : Value) : Feed := ⟨textAt v "name", textAt v "address"⟩

structure PoolSettings where
  fee : Option Int
  spacing : Option Int
  hooks : Option String
  deriving DecidableEq, Repr

def PoolSettings.ofValue (v : Value) : PoolSettings :=
  ⟨int? (v.member "fee"), int? (v.member "tickSpacing"), text? (v.member "hooks")⟩

inductive SwapType
  | exactInput
  | exactOutput
  deriving DecidableEq, Repr

structure SwapInput where
  source : Token
  destination : Token
  amount : String
  swapType : SwapType
  wallet : String
  slippage : Option Binary64
  deadline : Option Int
  minimumOut : Option String
  deriving DecidableEq, Repr

def SwapInput.ofValue (v : Value) : SwapInput where
  source := .ofValue (v.member "sourceToken")
  destination := .ofValue (v.member "destinationToken")
  amount := textAt v "amount"
  swapType := if textAt v "swapType" = "EXACT_INPUT" then .exactInput else .exactOutput
  wallet := textAt v "walletAddress"
  slippage := number? (v.member "slippageTolerance")
  deadline := int? (v.member "deadline")
  minimumOut := text? (v.member "amountOutMinimum")

/-! ## One record for each workflow -/

structure FeedsConfig where
  chain : String
  feeds : List Feed
  staleAfter : Option Int
  deriving DecidableEq, Repr

def FeedsConfig.ofValue (v : Value) : FeedsConfig :=
  ⟨textAt v "chainName", (itemsAt v "feeds").map .ofValue, int? (v.member "staleAfterSeconds")⟩

structure SwapConfig where
  chain : String
  receiver : String
  poolSwapTest : String
  poolManager : String
  stateView : Option String
  gasLimit : String
  input : SwapInput
  pool : Option PoolSettings
  feeTier : Option Int
  deriving DecidableEq, Repr

def SwapConfig.ofValue (v : Value) : SwapConfig where
  chain := textAt v "chain"
  receiver := textAt v "swapReceiverAddress"
  poolSwapTest := textAt v "poolSwapTestAddress"
  poolManager := textAt v "poolManagerAddress"
  stateView := text? (v.member "stateViewAddress")
  gasLimit := textAt v "gasLimit"
  input := .ofValue (v.member "inputConfig")
  pool := optionalAt v "poolConfig" .ofValue
  feeTier := int? (v.member "feeTier")

structure LendingConfig where
  chain : String
  receiver : String
  pool : String
  gasLimit : String
  operation : String
  asset : Token
  amount : String
  wallet : String
  rateMode : Option String
  onBehalfOf : Option String
  referralCode : Option Int
  deriving DecidableEq, Repr

def LendingConfig.ofValue (v : Value) : LendingConfig :=
  let input := v.member "inputConfig"
  { chain := textAt v "chain"
    receiver := textAt v "aaveReceiverAddress"
    pool := textAt v "poolAddress"
    gasLimit := textAt v "gasLimit"
    operation := textAt input "operation"
    asset := .ofValue (input.member "asset")
    amount := textAt input "amount"
    wallet := textAt input "walletAddress"
    rateMode := text? (input.member "interestRateMode")
    onBehalfOf := text? (input.member "onBehalfOf")
    referralCode := int? (input.member "referralCode") }

structure RouteConfig where
  chain : String
  receiver : String
  gasLimit : String
  input : SwapInput
  deriving DecidableEq, Repr

def RouteConfig.ofValue (v : Value) : RouteConfig where
  chain := textAt v "chain"
  receiver := textAt v "swapReceiverAddress"
  gasLimit := textAt v "gasLimit"
  input := .ofValue (v.member "inputConfig")

structure TradeConfig where
  network : String
  market : String
  side : String
  collateral : Binary64
  leverage : Binary64
  trader : String
  serviceUrl : String
  stopLoss : Option Binary64
  takeProfit : Option Binary64
  deriving DecidableEq, Repr

def TradeConfig.ofValue (v : Value) : TradeConfig where
  network := textAt v "network"
  market := textAt v "market"
  side := textAt v "side"
  collateral := numberAt v "collateral"
  leverage := numberAt v "leverage"
  trader := textAt v "traderAddress"
  serviceUrl := textAt v "serviceUrl"
  stopLoss := number? (v.member "slPrice")
  takeProfit := number? (v.member "tpPrice")

structure PositionConfig where
  chain : String
  tokenA : Token
  tokenB : Token
  amountA : String
  amountB : String
  tickLower : Int
  tickUpper : Int
  recipient : String
  pool : Option PoolSettings
  stateView : Option String
  deriving DecidableEq, Repr

def PositionConfig.ofValue (v : Value) : PositionConfig where
  chain := textAt v "chain"
  tokenA := .ofValue (v.member "tokenA")
  tokenB := .ofValue (v.member "tokenB")
  amountA := textAt v "amountA"
  amountB := textAt v "amountB"
  tickLower := intAt v "tickLower"
  tickUpper := intAt v "tickUpper"
  recipient := textAt v "recipient"
  pool := optionalAt v "poolConfig" .ofValue
  stateView := text? (v.member "stateViewAddress")

end DefiActions.Config
