import DefiActions.Bytes
import DefiActions.Error
import DefiActions.Value

/-!
# Collaborators and runs

A workflow reads contracts, signs and submits reports, sends HTTP requests and
looks up secrets through collaborators, each of which may be absent and may fail.
A run keeps a trace of everything it asks of them and of the events it reports;
a collaborator answers as a function of what it is asked and of the trace so far.

Two things are left out. What a collaborator raises is a `Failure`, which always
has a label or a text; one that fails again when its text is asked for is not.
Secrets, configured texts and all other texts are made of characters, so that
none holds half of a surrogate pair and each has octets in UTF-8.
-/

namespace DefiActions

structure Request where
  url : String
  method : String := "GET"
  headers : List (String × String) := []
  body : Option String := none
  deriving DecidableEq, Repr

structure Response where
  status : Int
  body : Bytes
  deriving DecidableEq, Repr

/-- The text of a response, which must be UTF-8. -/
def Response.text (r : Response) : Except Failure String :=
  match Utf8.text? r.body with
  | some s => .ok s
  | none => throw .notUtf8

/-- The hash of a transaction, as a provider gives it. -/
inductive TxHash
  | text (s : String)
  | octets (bs : Bytes)
  deriving DecidableEq, Repr

/-- What the submission of a report came to. The status may be any value. -/
structure Outcome where
  status : Value
  txHash : Option TxHash := none
  errorMessage : Option String := none

/-- A report that a signer has made from a payload. -/
structure SignedReport where
  content : Bytes
  deriving DecidableEq, Repr

/-! ## Traces -/

inductive Level
  | debug
  | info
  | warning
  | error
  deriving DecidableEq, Repr

namespace Level

def name : Level → String
  | debug => "debug"
  | info => "info"
  | warning => "warning"
  | error => "error"

end Level

structure Event where
  level : Level
  name : String
  deriving DecidableEq, Repr

def Event.text (e : Event) : String := e.level.name ++ ":" ++ e.name

structure ContractRead where
  address : String
  data : Bytes
  deriving DecidableEq, Repr

structure Submission where
  receiver : String
  gasLimit : Int
  deriving DecidableEq, Repr

structure Trace where
  reads : List ContractRead := []
  payloads : List Bytes := []
  submissions : List Submission := []
  requests : List Request := []
  events : List Event := []
  deriving DecidableEq, Repr

/-! ## Collaborators -/

/-- Reads a contract: the address, the call data, the answer. -/
abbrev Reader := Trace → String → Bytes → Except Failure Bytes

abbrev Signer := Trace → Bytes → Except Failure SignedReport

/-- Submits a report: the receiver, the report, the gas limit, the outcome. -/
abbrev Writer := Trace → String → SignedReport → Int → Except Failure Outcome

abbrev Sender := Trace → Request → Except Failure Response

structure Collaborators where
  reader : Option Reader := none
  signer : Option Signer := none
  writer : Option Writer := none
  sender : Option Sender := none
  secrets : Option (String → Option String) := none
  /-- The time in seconds. -/
  now : Int := 0

/-! ## Runs -/

abbrev Run := ExceptT Failure (StateM Trace)

namespace Run

def report (level : Level) (name : String) : Run Unit :=
  modify fun t => { t with events := t.events ++ [⟨level, name⟩] }

/-- The answer of a collaborator, which sees the trace before it was asked. -/
def answer (f : Trace → Except Failure α) (record : Trace → Trace) : Run α := do
  let t ← get
  set (record t)
  let a ← f t
  return a

def readContract (reader : Reader) (address : String) (data : Bytes) : Run Bytes :=
  answer (fun t => reader t address data) fun t => { t with reads := t.reads ++ [⟨address, data⟩] }

def sign (signer : Signer) (payload : Bytes) : Run SignedReport :=
  answer (fun t => signer t payload) fun t => { t with payloads := t.payloads ++ [payload] }

def submit (writer : Writer) (receiver : String) (r : SignedReport) (gasLimit : Int) : Run Outcome :=
  answer (fun t => writer t receiver r gasLimit) fun t =>
    { t with submissions := t.submissions ++ [⟨receiver, gasLimit⟩] }

def send (sender : Sender) (request : Request) : Run Response :=
  answer (fun t => sender t request) fun t => { t with requests := t.requests ++ [request] }

/-- The result of a run that starts with an empty trace, and its trace. -/
def start (r : Run α) : Except Failure α × Trace := (r.run.run {})

end Run

end DefiActions
