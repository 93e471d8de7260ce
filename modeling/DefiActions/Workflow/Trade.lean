import DefiActions.Collaborator
import DefiActions.Config.Records
import DefiActions.Json.Reader
import DefiActions.Json.Printer
import DefiActions.Result
import DefiActions.Signing

/-!
# Opening a trading position

The request to the trading service is signed with a shared secret. Whatever the
service answers becomes a result.
-/

namespace DefiActions.Workflow.Trade

open Config (TradeConfig)

def path : String := "/v1/positions/open"

def secretId : String := "OSTIUM_HMAC_SECRET"

/-! ## Requests -/

/-- Whole numbers are written without a fraction. -/
def numberValue (x : Binary64) : Value :=
  match x.whole? with
  | some n => .int n
  | none => .float x

def bodyValue (config : TradeConfig) : Value := .record (
  [("network", .text config.network), ("market", .text config.market), ("side", .text config.side),
    ("collateral", numberValue config.collateral), ("leverage", numberValue config.leverage),
    ("traderAddress", .text config.trader)]
  ++ (config.stopLoss.map fun x => ("slPrice", numberValue x)).toList
  ++ (config.takeProfit.map fun x => ("tpPrice", numberValue x)).toList)

def body (config : TradeConfig) : String := Json.write .ascii (bodyValue config)

/-- Without slashes at the end. -/
def baseUrl (url : String) : String := String.ofList (Text.dropRightWhile (· = '/') url.toList)

/-- The signed request. The time is written whatever its size: a clock whose milliseconds have a numeral
past the numeral limit is left out. -/
def request (config : TradeConfig) (secret : String) (timestamp : Int) : Request where
  url := baseUrl config.serviceUrl ++ path
  method := "POST"
  headers := Signing.headers secret "POST" path (body config) (Text.numeral timestamp)
  body := some (body config)

/-! ## Answers -/

def unknownError : String := "Unknown error occurred from Ostium Service"

/-- A text for a field of a result; anything else is an issue of that field. -/
def resultText (field : String) (v : Value) : Except Failure String :=
  (Config.under (.name field) (Config.textOf v)).mapError (.invalid "ActionResult")

/-- The first of the values that is set, or a text. -/
def firstSet (vs : List Value) (fallback : String) : Value :=
  (vs.find? (·.isSet)).getD (.text fallback)

def resultOf (answer : Value) : Except Failure ActionResult := do
  match answer with
  | .record ms =>
    let answer := Value.record ms
    if (answer.member "success").isSet then
      let data := answer.member "data"
      let receipt := (data.member "result").member "receipt"
      let hash := firstSet [receipt.member "transactionHash", data.member "txHash"] "unknown"
      return { success := true, txHash := some (← resultText "transaction_hash" hash) }
    else
      let message := firstSet [(answer.member "error").member "message"] unknownError
      return .failed (← resultText "error" message)
  | _ => return .failed unknownError

/-! ## Runs -/

def exchange (sender : Sender) (request : Request) : Run Value := do
  let response ← Run.send sender request
  let text ← response.text
  Run.report .debug "ostium_response"
  Json.document text.toList

/-- The answer, or the description of the failure to get one. -/
def tryExchange (sender : Sender) (request : Request) : Run (Value ⊕ String) :=
  tryCatch (do return .inl (← exchange sender request)) fun f => do
    Run.report .warning "ostium_request_failed"
    return .inr f.description

def settle (result : ActionResult) : Run ActionResult := do
  if result.success then Run.report .info "ostium_position_opened"
  else Run.report .warning "ostium_position_rejected"
  return result

def secret? (c : Collaborators) : Option String :=
  (c.secrets.bind fun lookup => lookup secretId).filter (!·.isEmpty)

def run (config : TradeConfig) (c : Collaborators) : Run ActionResult := do
  Run.report .info "ostium_position_opening"
  match secret? c, c.sender with
  | none, _ =>
    Run.report .warning "ostium_secret_missing"
    return .failed ("Missing " ++ secretId)
  | some _, none => return .failed "Failed to execute request: no HTTP sender configured"
  | some secret, some sender =>
    match ← tryExchange sender (request config secret (c.now * 1000)) with
    | .inl answer => settle (← resultOf answer)
    | .inr description => return .failed ("Failed to execute request: " ++ description)

end DefiActions.Workflow.Trade
