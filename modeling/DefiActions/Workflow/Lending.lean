import DefiActions.Config.Records
import DefiActions.ContractCall
import DefiActions.Network
import DefiActions.Report.Payload
import DefiActions.Workflow.Guard
import DefiActions.Uint256

/-!
# Lending operations

Supply, withdrawal, borrowing and repayment go to the lending receiver. A
withdrawal names its aToken, which is looked up in the pool when it is not
configured. Collateral switches act on the sender and cannot be submitted.
-/

namespace DefiActions.Workflow.Lending

open Config (LendingConfig)

def stableRate : Int := 1

/-- The code of a rate mode; anything but a stable rate is variable. -/
def rateModeCode (mode : Option String) : Int :=
  if mode = some "STABLE" then stableRate else Report.variableRate

def operationCodes : List (String × Int) := [("SUPPLY", 0), ("WITHDRAW", 1), ("BORROW", 2), ("REPAY", 3)]

def collateralError : ActionError := .missingConfiguration "operation"
  (some ("ENABLE_COLLATERAL and DISABLE_COLLATERAL must be called directly by the user; "
    ++ "use Pool.setUserUseReserveAsCollateral(asset, useAsCollateral)"))

def operationCode (operation : String) : Except Failure Int :=
  match operationCodes.lookup operation with
  | some code => .ok code
  | none => fail collateralError

/-- The configured pool, or that of the chain. -/
def poolAddress (config : LendingConfig) : Except Failure String :=
  if !config.pool.isEmpty then .ok config.pool
  else
    match Network.lendingPools.lookup config.chain with
    | some pool => .ok pool
    | none => throw (.missing "poolAddress" s!"not configured for chain: {config.chain}")

def present? (s : Option String) : Option String := s.filter (!·.isEmpty)

def aToken (config : LendingConfig) (c : Collaborators) (pool : String) : Run String := do
  let configured := (present? config.asset.aTokenAddress).getD Address.zero
  if config.operation ≠ "WITHDRAW" ∨ Address.normalize configured ≠ Address.zero then return configured
  else
    match c.reader with
    | none => throw (.missing "aTokenAddress" "set asset.aTokenAddress or provide a contract reader")
    | some reader =>
      let call ← ContractCall.reserveData config.asset.address
      let found ← ContractCall.decodeReserveAToken (← Run.readContract reader pool call)
      Run.report .debug "a_token_resolved"
      return found

def prepare (config : LendingConfig) (c : Collaborators) : Run Report.Descriptor := do
  let _ ← require config.receiver "aaveReceiverAddress" (some "deploy AaveReceiver and set in config")
  let operation ← operationCode config.operation
  let pool ← poolAddress config
  let wallet ← require config.wallet "walletAddress"
  let asset ← require config.asset.address "asset.address"
  let amount ← Uint256.ofText config.amount
  let aToken ← aToken config c pool
  Report.Descriptor.make .lending [
    ("operation", .int operation), ("pool_address", .text pool), ("asset", .text asset),
    ("amount", .int amount), ("wallet_address", .text wallet),
    ("on_behalf_of", .text ((present? config.onBehalfOf).getD wallet)),
    ("interest_rate_mode", .int (rateModeCode config.rateMode)),
    ("referral_code", .int (config.referralCode.getD 0)), ("a_token_address", .text aToken)]

def action (config : LendingConfig) (c : Collaborators) : Run ActionResult := do
  let payload ← Report.encode (← prepare config c)
  Run.report .info "aave_operation"
  let gas ← gasLimit config.gasLimit
  let outcome ← submit c config.receiver payload gas
  Settlement.classify outcome config.amount none config.operation

def run (config : LendingConfig) (c : Collaborators) : Run ActionResult :=
  guarded "aave_lending" config.amount config.operation (action config c)

end DefiActions.Workflow.Lending
