import DefiActions.Address
import DefiActions.Collaborator
import DefiActions.Signing
import DefiActions.Text.Case

/-!
# Hosts

A host runs workflows with what every machine has: an HTTP connection, the
variables of its environment as secrets, and contract reads at a node where one
is named. It signs and submits no reports.
-/

namespace DefiActions

/-! ## HTTP connections

A connection hands messages to a transport until it is closed. A response of any
status is an answer. -/

/-- A request as a transport gets it: the method in capitals, and octets for the body, none of them if
the request has no body. -/
structure Message where
  method : String
  url : String
  headers : List (String × String)
  body : Bytes
  deriving DecidableEq, Repr

namespace Message

def make (method url : String) (headers : List (String × String)) (body : Bytes) : Message :=
  ⟨String.ofList (Text.upper method.toList), url, headers, body⟩

def ofRequest (r : Request) : Message :=
  make r.method r.url r.headers (Utf8.ofText (r.body.getD ""))

end Message

abbrev Transport := Message → Except Failure Response

structure Connection where
  transport : Transport
  isOpen : Bool := true

namespace Connection

def close (c : Connection) : Connection := { c with isOpen := false }

def send (c : Connection) (m : Message) : Except Failure Response :=
  if c.isOpen then c.transport m
  else throw (.foreign .runtime "Cannot send a request, as the client has been closed.")

def sender (c : Connection) : Sender := fun _ r => c.send (.ofRequest r)

end Connection

end DefiActions

namespace DefiActions.Node

/-! ## Contract reads at a node

A node is asked for the answer of a contract at one block. The address of the
contract has its checksum and the call data is hexadecimal text. -/

inductive Block
  | tag (name : String)
  | number (n : Int)
  deriving DecidableEq, Repr

/-- The last block that every node agrees on. -/
def Block.finalized : Block := .tag "finalized"

structure Call where
  address : String
  data : String
  block : Block
  deriving DecidableEq, Repr

/-- The call of a contract; an address of another form is refused. -/
def Call.make (address : String) (data : Bytes) (block : Block) : Except Failure Call := do
  return ⟨← Address.checksum address, Hex.literal data, block⟩

def reader (answer : Call → Except Failure Bytes) (block : Block) : Reader := fun _ address data => do
  answer (← Call.make address data block)

end DefiActions.Node

namespace DefiActions

structure Host where
  transport : Transport
  node : String → Node.Call → Except Failure Bytes
  environment : List (String × String)
  now : Int

namespace Host

def connect (h : Host) : Connection := ⟨h.transport, true⟩

def secrets (h : Host) : Signing.SecretSource := .environment h.environment ""

/-- Contract reads at the node of an address; an empty address names none. -/
def reader? (h : Host) (node : String) : Option Reader :=
  if node.isEmpty then none else some (Node.reader (h.node node) .finalized)

def collaborators (h : Host) (node : String) (c : Connection) : Collaborators where
  reader := h.reader? node
  sender := some c.sender
  secrets := some h.secrets.secret?
  now := h.now

def noNetwork : Failure := .foreign .connection "no network"

/-- A host without a network. -/
def offline (environment : List (String × String)) : Host where
  transport := fun _ => .error noNetwork
  node := fun _ _ => .error noNetwork
  environment
  now := 0

end Host

end DefiActions
