import DefiActions.Address
import DefiActions.Collaborator
import DefiActions.Result

/-!
# Parts of every action

Required fields, the submission of a report, what its outcome counts as, and the
guard that turns every failure of an action into a failed result.
-/

namespace DefiActions

/-! ## Settlement

The outcome of a submission is a success exactly when its status reads
`SUCCESS`. Anything else is a failure, with the message of the provider or else
with its status. -/

namespace TxHash

/-- The hash as hexadecimal text with a mark; an empty hash is none. -/
def text? : TxHash → Option String
  | text s =>
    if s.isEmpty then none
    else if Address.hasMark s.toList then some s else some ("0x" ++ s)
  | octets bs => if bs.isEmpty then none else some (Hex.literal bs)

end TxHash

namespace Outcome

def hash? (o : Outcome) : Option String := o.txHash.bind TxHash.text?

def statusName (o : Outcome) : Except Failure String :=
  match o.status.display? with
  | some s => .ok s
  | none => refuse (.numeralTooLong none)

def succeeded (o : Outcome) : Except Failure Bool := o.statusName.map (· = "SUCCESS")

/-- What is reported of an outcome that is not a success. -/
def failureMessage (o : Outcome) : Except Failure String :=
  match o.errorMessage.filter (!·.isEmpty) with
  | some message => .ok message
  | none => o.statusName.map ("tx status: " ++ ·)

/-- Fails unless the submission succeeded. -/
def check (o : Outcome) : Except Failure Unit := do
  if ← o.succeeded then return
  else fail (.nonSuccess (← o.failureMessage))

end Outcome

namespace Settlement

def classify (o : Outcome) (amountIn amountOut operation : Option String) : Run ActionResult := do
  if ← o.succeeded then
    Run.report .info "settlement_succeeded"
    return { success := true, txHash := o.hash?, operation, amountIn, amountOut }
  else
    let message ← o.failureMessage
    Run.report .warning "settlement_failed"
    return .failed message amountIn operation (some .nonSuccessSettlement)

end Settlement

end DefiActions

namespace DefiActions.Workflow

/-! ## Submission and guard -/

/-- The value of a field that must not be left blank. -/
def require (value : Option String) (field : String) (hint : Option String := none) :
    Except Failure String :=
  match value with
  | some s => if Text.isVacant s then fail (.missingConfiguration field hint) else .ok s
  | none => fail (.missingConfiguration field hint)

def gasLimit (s : String) : Except Failure Int :=
  match Text.readInt .ten s.toList with
  | .error _ => throw (.missing "gasLimit" ("not an integer: '" ++ s ++ "'"))
  | .ok n =>
    if n ≤ 0 then throw (.missing "gasLimit" s!"must be positive, got {Text.numeral n}") else .ok n

def submit (c : Collaborators) (receiver : String) (payload : Bytes) (gasLimit : Int) : Run Outcome := do
  match c.signer, c.writer with
  | none, _ => throw (.missing "signer" "a report signer is needed to submit actions")
  | _, none => throw (.missing "writer" "a report writer is needed to submit actions")
  | some signer, some writer =>
    let report ← Run.sign signer payload
    Run.report .info "report_submitting"
    Run.submit writer receiver report gasLimit

def failedResult (workflow : String) (amountIn operation : Option String) (f : Failure) :
    Run ActionResult := do
  match f with
  | .action e =>
    let result ← ActionResult.ofError e amountIn operation
    Run.report .warning (workflow ++ "_failed")
    return result
  | f =>
    Run.report .error (workflow ++ "_error")
    return .failed f.summary amountIn operation

/-- Runs an action so that its failures become failed results. -/
def guarded (workflow : String) (amountIn operation : Option String) (action : Run ActionResult) :
    Run ActionResult :=
  tryCatch action (failedResult workflow amountIn operation)

end DefiActions.Workflow
