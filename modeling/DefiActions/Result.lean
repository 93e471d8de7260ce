import DefiActions.Error
import DefiActions.Json.Printer

/-!
# Results

What a workflow hands back. Results are records under their wire names, fields
without a value left out; their text is compact JSON.
-/

namespace DefiActions

def ErrorKind.toValue (k : ErrorKind) : Value := .text k.wireName

/-- The fields that have a value, in order. -/
def presentFields (fields : List (String × Option Value)) : Value :=
  .record (fields.filterMap fun f => f.2.map (f.1, ·))

def textField (s : Option String) : Option Value := s.map .text

/-! ## Issues -/

def Step.toValue : Step → Value
  | name s => .text s
  | index n => .int n

/-- The text of an issue, for those that have one. -/
def IssueKind.message? : IssueKind → Option String
  | refused r => some ("Value error, " ++ r.message)
  | _ => none

def Issue.toValue (i : Issue) : Value := presentFields [
  ("loc", some (.list (i.path.map Step.toValue))), ("type", some (.text i.kind.wireName)),
  ("msg", textField i.kind.message?)]

/-! ## Actions -/

/-- The record of one swap, lending operation or trade. -/
structure ActionResult where
  success : Bool
  txHash : Option String := none
  operation : Option String := none
  amountIn : Option String := none
  amountOut : Option String := none
  error : Option String := none
  errorKind : Option ErrorKind := none
  deriving DecidableEq, Repr

namespace ActionResult

def failed (message : String) (amountIn operation : Option String := none)
    (kind : Option ErrorKind := none) : ActionResult :=
  { success := false, amountIn, operation, error := some message, errorKind := kind }

/-- A failed result from an action error. A category given for it goes before its own; with neither
there is no result. -/
def ofError (e : ActionError) (amountIn operation : Option String := none)
    (kind : Option ErrorKind := none) : Except Failure ActionResult :=
  match kind.or e.kind? with
  | some k => .ok (failed e.message amountIn operation (some k))
  | none => throw .missingMember

def toValue (r : ActionResult) : Value := presentFields [
  ("success", some (.bool r.success)), ("txHash", textField r.txHash),
  ("operation", textField r.operation), ("amountIn", textField r.amountIn),
  ("amountOut", textField r.amountOut), ("error", textField r.error),
  ("errorKind", r.errorKind.map ErrorKind.toValue)]

def toJson (r : ActionResult) : String := Json.write .plain r.toValue

end ActionResult

/-! ## Feeds -/

structure Reading where
  chain : String
  aggregator : String
  description : Option String
  decimals : Int
  roundId : String
  answeredInRound : String
  startedAt : Int
  updatedAt : Int
  answer : String
  formatted : String
  deriving DecidableEq, Repr

namespace Reading

def fields (r : Reading) : List (String × Option Value) := [
  ("provider", some (.text "CHAINLINK")), ("chain", some (.text r.chain)),
  ("aggregatorAddress", some (.text r.aggregator)), ("description", textField r.description),
  ("decimals", some (.int r.decimals)), ("roundId", some (.text r.roundId)),
  ("answeredInRound", some (.text r.answeredInRound)), ("startedAt", some (.int r.startedAt)),
  ("updatedAt", some (.int r.updatedAt)), ("answer", some (.text r.answer)),
  ("formattedAnswer", some (.text r.formatted))]

def toValue (r : Reading) : Value := presentFields r.fields

end Reading

/-- A feed that could not be read. -/
structure FeedFailure where
  name : String
  address : String
  error : String
  errorKind : Option ErrorKind
  deriving DecidableEq, Repr

def FeedFailure.toValue (f : FeedFailure) : Value := presentFields [
  ("name", some (.text f.name)), ("address", some (.text f.address)), ("error", some (.text f.error)),
  ("errorKind", f.errorKind.map ErrorKind.toValue)]

structure FeedsResult where
  readings : List Reading := []
  failures : List FeedFailure := []
  deriving DecidableEq, Repr

namespace FeedsResult

def success (r : FeedsResult) : Bool := r.failures.isEmpty

def toValue (r : FeedsResult) : Value := .record [
  ("readings", .list (r.readings.map Reading.toValue)),
  ("failures", .list (r.failures.map FeedFailure.toValue)),
  ("success", .bool r.success)]

end FeedsResult

/-! ## Positions -/

structure Plan where
  poolId : String
  currency0 : String
  currency1 : String
  tickLower : Int
  tickUpper : Int
  sqrtPrice : String
  liquidity : String
  amount0 : String
  amount1 : String
  unlockData : String
  deriving DecidableEq, Repr

inductive PlanResult
  | planned (plan : Plan)
  | failed (error : String) (kind : Option ErrorKind)
  deriving DecidableEq, Repr

namespace PlanResult

def success : PlanResult → Bool
  | planned _ => true
  | failed .. => false

def toValue : PlanResult → Value
  | planned p => .record [
    ("success", .bool true), ("poolId", .text p.poolId), ("currency0", .text p.currency0),
    ("currency1", .text p.currency1), ("tickLower", .int p.tickLower), ("tickUpper", .int p.tickUpper),
    ("sqrtPriceX96", .text p.sqrtPrice), ("liquidity", .text p.liquidity), ("amount0", .text p.amount0),
    ("amount1", .text p.amount1), ("unlockData", .text p.unlockData)]
  | failed error kind => presentFields [
    ("success", some (.bool false)), ("error", some (.text error)),
    ("errorKind", kind.map ErrorKind.toValue)]

end PlanResult

/-! ## Any of them -/

inductive WorkflowResult
  | action (r : ActionResult)
  | feeds (r : FeedsResult)
  | position (r : PlanResult)
  deriving DecidableEq, Repr

namespace WorkflowResult

def success : WorkflowResult → Bool
  | action r => r.success
  | feeds r => r.success
  | position r => r.success

def toValue : WorkflowResult → Value
  | action r => r.toValue
  | feeds r => r.toValue
  | position r => r.toValue

end WorkflowResult

end DefiActions
