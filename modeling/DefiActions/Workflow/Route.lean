import DefiActions.Config.Records
import DefiActions.Json.Reader
import DefiActions.Network
import DefiActions.Report.Payload
import DefiActions.Workflow.Guard
import DefiActions.Text.Quoted
import DefiActions.Uint256

/-!
# Swaps along a quoted route

A quote is fetched from the route service; the call that it asks for is
forwarded by the receiver. What the caller gives up and who receives it never
come from the quote.
-/

namespace DefiActions.Workflow.Route

open Config (RouteConfig)

def quoteUrl : String := "https://li.quest/v1/quote"

def integrator : String := "flowforge-cre-template"

/-- The slippage in percent of a swap that has none. -/
def defaultSlippage : Binary64 := .ofRatio false 1 2

/-- The address that stands for the native asset of a chain. -/
def nativePlaceholder : String := "0xeeeeeeeeeeeeeeeeeeeeeeeeeeeeeeeeeeeeeeee"

/-! ## Quotes -/

def slippage (config : RouteConfig) : Binary64 :=
  ((config.input.slippage.filter (!·.isZero)).getD defaultSlippage).divNat 100

def quotePairs (config : RouteConfig) : List (String × String) :=
  let chain := Text.numeral (Network.routeChain config.chain)
  [("fromChain", chain), ("toChain", chain), ("fromToken", config.input.source.address),
    ("toToken", config.input.destination.address), ("fromAmount", config.input.amount),
    ("fromAddress", config.input.wallet), ("slippage", (slippage config).text),
    ("integrator", integrator)]

def quoteRequest (config : RouteConfig) : Request where
  url := quoteUrl ++ "?" ++ Percent.query (quotePairs config)
  method := "GET"
  headers := [("Accept", "application/json")]

/-- The failure of a quote that is no document. An integer past the numeral limit keeps its own. -/
def unreadable : Failure → Failure
  | .rejected r => .rejected r
  | f => .badResponse ("Failed to fetch quote: " ++ f.description)

def parseQuote (body : Bytes) : Except Failure Value := do
  match ← (Json.documentOfBytes body).mapError unreadable with
  | .record ms => return .record ms
  | _ => throw (.badResponse "Failed to fetch quote: response is not an object")

def fetchQuote (config : RouteConfig) (c : Collaborators) : Run Value := do
  match c.sender with
  | none => throw (.missing "http" "an HTTP sender is needed to fetch quotes")
  | some sender =>
    Run.report .info "lifi_quote_fetching"
    let response ← Run.send sender (quoteRequest config)
    parseQuote response.body

/-! ## Reports -/

/-- The native asset is sent to the receiver as the zero address. -/
def sourceToken (address : String) : String :=
  let normal := Address.normalize address
  if normal = nativePlaceholder then Address.zero else normal

def shown (v : Value) : Except Failure String :=
  match v.display? with
  | some s => .ok s
  | none => refuse (.numeralTooLong none)

def readNumeral (base : Text.Base) (s : String) : Except Failure Int :=
  match Text.readInt base s.toList with
  | .ok n => .ok n
  | .error fault => refuse (.ofNumeral base s fault)

/-- The numeral that octets write. Those outside ASCII are neither digits nor blanks. -/
def readOctets (bs : Bytes) : Except Failure Int :=
  match Text.readInt .ten (bs.map fun b => if b < 0x80 then Char.ofNat b.toNat else '\x00') with
  | .ok n => .ok n
  | .error .malformed => refuse (.octetsNotInteger bs)
  | .error (.tooLong digits) => refuse (.numeralTooLong (some digits))

def callValue (v : Value) : Except Failure Int := do
  let text ← shown v
  match v with
  | .text s => readNumeral (if Address.hasMark text.toList then .sixteen else .ten) s
  | .int n => return n
  | .bool b => return if b then 1 else 0
  | .bytes bs => readOctets bs
  | .float x =>
    match x, x.truncate? with
    | _, some n => return n
    | .nan, none => refuse .notANumberToInteger
    | _, none => throw .tooLarge
  | _ => throw .wrongType

structure Call where
  target : String
  data : Bytes
  value : Int
  deriving DecidableEq, Repr

def readCall (request : Value) : Except Failure Call := do
  let value := request.member "value"
  let target ← Address.normalizeValid (← shown (request.member "to"))
  let data ← Blob.ofText (← shown (request.member "data"))
  let value ← callValue (if value.isSet then value else .text "0")
  return ⟨target, data, value⟩

def incomplete : ActionError :=
  .invalidResponse "LI.FI response did not include valid transactionRequest data. Check token config."

/-- A value that is refused makes the quote a bad response. -/
def malformed (f : Failure) : Failure :=
  if f.isRefusal then .badResponse ("LI.FI transactionRequest is malformed: " ++ f.description) else f

def quotedCall (quote : Value) : Except Failure Call :=
  match quote.member "transactionRequest" with
  | .record ms =>
    let request := Value.record ms
    if (request.member "to").isSet && (request.member "data").isSet then
      (readCall request).mapError malformed
    else fail incomplete
  | _ => fail incomplete

def prepare (config : RouteConfig) (quote : Value) : Except Failure Report.Descriptor := do
  let call ← quotedCall quote
  let amount ← Uint256.ofText config.input.amount
  let recipient ← require config.input.wallet "walletAddress"
  Report.Descriptor.make .genericCall [
    ("target", .text call.target), ("call_data", .bytes call.data), ("value", .int call.value),
    ("token_in", .text (sourceToken config.input.source.address)), ("amount_in", .int amount),
    ("recipient", .text recipient)]

/-- The amount out that a quote expects, as text. -/
def expectedOut (quote : Value) : Except Failure String :=
  let amount := (quote.member "estimate").member "toAmount"
  if amount.isSet then shown amount else .ok "0"

def action (config : RouteConfig) (c : Collaborators) : Run ActionResult := do
  let _ ← require config.receiver "swapReceiverAddress" (some "deploy LifiReceiver and set in config")
  let quote ← fetchQuote config c
  let report ← prepare config quote
  let expected ← expectedOut quote
  Run.report .info "lifi_quote_received"
  let payload ← Report.encode report
  let gas ← gasLimit config.gasLimit
  let outcome ← submit c config.receiver payload gas
  let result ← Settlement.classify outcome config.input.amount (some expected) none
  if result.success ∧ result.txHash.isSome then Run.report .info "lifi_swap_executed"
  return result

def run (config : RouteConfig) (c : Collaborators) : Run ActionResult :=
  guarded "lifi_swap" config.input.amount none (action config c)

end DefiActions.Workflow.Route
