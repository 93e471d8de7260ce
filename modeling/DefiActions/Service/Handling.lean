import DefiActions.Json.Reader
import DefiActions.Service.Message
import DefiActions.Text.Character
import DefiActions.Text.Quoted
import DefiActions.Workflow.Catalog

/-!
# Handling calls

A call is handled by the endpoint of its target. Triggering a workflow runs it
with its configuration and the override of the call; a failed action is still a
reply with status 200, and a failure past that is a failed call.
-/

namespace DefiActions.Service

/-! ## Configurations

Each workflow may have a file with its configuration. A workflow whose file is
no JSON or no valid configuration is left out, and a warning is reported; the
others are configured all the same. -/

/-- The configured workflows, each with its configuration in normal form. -/
abbrev Configurations := List (Workflow × Value)

def fileName (w : Workflow) : String := w.name ++ ".json"

def readConfiguration (w : Workflow) (content : Bytes) : Except Failure Value := do
  w.configure (← Json.documentOfBytes content)

def leavesOut : Failure → Bool
  | .notJson | .invalid .. => true
  | _ => false

/-- The configuration in the file of a workflow, if there is one and it is valid. -/
def loadOne (file : Workflow → Option Bytes) (w : Workflow) : Run (Option (Workflow × Value)) :=
  match file w with
  | none => return none
  | some content =>
    match readConfiguration w content with
    | .ok config => return some (w, config)
    | .error f => do
      if leavesOut f then
        Run.report .warning "workflow_config_invalid"
        return none
      else throw f

/-- The configurations in the files of the workflows, in the order of the catalog. -/
def load (file : Workflow → Option Bytes) : Run Configurations := do
  let configs ← Workflow.all.filterMapM (loadOne file)
  Run.report .info "workflow_configs_loaded"
  return configs

/-- The names of the configured workflows in alphabetical order. -/
def configured (configs : Configurations) : List String :=
  (configs.map (·.1.name)).mergeSort fun a b => decide (a ≤ b)

/-! ## Endpoints

The service has one endpoint that tells its health, one that lists the
workflows, and one for each name of a workflow. A path that ends in slashes
leads to the endpoint of the path without them. -/

inductive Endpoint
  | health
  | workflows
  | workflow (name : String)
  deriving DecidableEq, Repr

namespace Endpoint

def verb : Endpoint → String
  | health | workflows => "GET"
  | workflow _ => "POST"

def ofPath? (path : List Char) : Option Endpoint :=
  match path.splitOn '/' with
  | [[], name] =>
    if name = "health".toList then some health
    else if name = "workflows".toList then some workflows
    else none
  | [[], folder, name] =>
    if folder = "workflows".toList ∧ name ≠ [] then some (workflow (String.ofList name)) else none
  | _ => none

/-- The part of a target in front of its query and its fragment. -/
def pathPart (target : List Char) : List Char := target.takeWhile fun c => c ≠ '?' && c ≠ '#'

/-- The path of a reference, without the name of a server in front. -/
def dropServer : List Char → List Char
  | '/' :: '/' :: rest => rest.dropWhile (· ≠ '/')
  | cs => cs

/-- Without the names `.`, and without `..` and the names that they take back. The list of kept
names is in reverse. -/
def dropDots (kept : List (List Char)) : List (List Char) → List (List Char)
  | [] => kept.reverse
  | name :: rest =>
    if name = ['.'] then dropDots kept rest
    else if name = ['.', '.'] then
      dropDots (if kept = [] ∨ kept = [[]] then kept else kept.tail) rest
    else dropDots (name :: kept) rest

/-- The path that a target asks for. It is decoded on the way to the service and again by it. -/
def requested (target : List Char) : List Char :=
  let path := '/' :: (dropServer (pathPart target)).dropWhile (· = '/')
  Percent.decode (Percent.decode (['/'].intercalate (dropDots [] (path.splitOn '/'))))

/-- The endpoint of a path, past at most `steps` ends in slashes. -/
def resolve : (steps : Nat) → List Char → Option Endpoint
  | 0, path => ofPath? path
  | steps + 1, path =>
    match ofPath? path with
    | some e => some e
    | none =>
      let shorter := Text.dropRightWhile (· = '/') path
      if shorter = path ∨ (ofPath? shorter).isNone then none
      else resolve steps (requested shorter)

/-- The endpoint of a target. Every end in slashes makes the path shorter. -/
def ofTarget? (target : String) : Option Endpoint :=
  let path := requested target.toList
  resolve path.length path

end Endpoint

/-! ## Health and catalog -/

def version : String := "0.1.0"

def health : Reply := .ok (.record [("status", .text "ok"), ("version", .text version)])

def catalog (configs : Configurations) : Reply := .ok (.record [
  ("workflows", .list (Workflow.all.map fun w => .text w.name)),
  ("configured", .list ((configured configs).map .text))])

/-! ## Invalid configurations -/

/-- The value at the end of a path; nothing stands where the path leads nowhere. -/
def valueAt : Value → List Step → Value
  | v, [] => v
  | v, .name s :: rest => valueAt (v.member s) rest
  | .list items, .index n :: rest => valueAt ((items[n]?).getD .null) rest
  | _, .index _ :: _ => .null

/-- The value that an issue is about: the one at its path, or around it if there is none. -/
def quotedBy (config : Value) (i : Issue) : Value :=
  valueAt config (if i.kind = .missing then i.path.dropLast else i.path)

/-- The reply to an override that makes a configuration invalid. It would quote the values of the
issues, which only standard JSON allows. -/
def invalidOverride (config : Value) (issues : List Issue) : Reply :=
  if issues.all fun i => Json.isStandard (quotedBy config i) then
    .detail 422 (.list (issues.map Issue.toValue))
  else .failed

/-- The configuration of a workflow with an override put over it. -/
def overridden (w : Workflow) (config override : Value) : Except Reply Value :=
  match w.override config override, Config.overridden w.shape config override with
  | .ok v, _ => .ok v
  | .error (.invalid _ issues), .ok merged => throw (invalidOverride merged issues)
  | .error _, _ => throw .failed

/-! ## Triggers -/

/-- Runs a workflow with its configuration in force; whatever the run fails with, the call has failed. -/
def runWorkflow (w : Workflow) (config : Value) (c : Collaborators) : Run Reply :=
  tryCatch
    (do
      Run.report .info "workflow_triggered"
      return .ok (← w.run config c).toValue)
    fun _ => return .failed

/-- The workflow of a name, with its configuration. -/
def find (configs : Configurations) (name : String) : Except Reply (Workflow × Value) :=
  match Workflow.ofName? name with
  | none => throw (.detail 404 (.text ("Unknown workflow: " ++ name)))
  | some w =>
    match configs.lookup w with
    | none => throw (.detail 404 (.text ("Workflow not configured: " ++ name)))
    | some config => .ok (w, config)

/-- What a call of a workflow asks for: the workflow and the configuration to run it with. -/
def order (configs : Configurations) (name : String) (call : Call) : Except Reply (Workflow × Value) := do
  let override ← call.override
  let (w, config) ← find configs name
  return (w, ← overridden w config override)

def trigger (configs : Configurations) (c : Collaborators) (name : String) (call : Call) : Run Reply :=
  match order configs name call with
  | .ok (w, config) => runWorkflow w config c
  | .error reply => return reply

/-! ## Calls -/

def sizeLimit : Int := 1024 * 1024

/-- The reply to a call whose length is not accepted. -/
def refusedLength? (call : Call) : Option Reply :=
  let text := call.lengthText
  if text = "" then none
  else
    match Text.readInt .ten text.toList with
    | .ok n => if sizeLimit < n then some .tooLarge else none
    | .error _ => some .failed

def respond (configs : Configurations) (c : Collaborators) (call : Call) : Run Reply :=
  match refusedLength? call, Endpoint.ofTarget? call.target with
  | some reply, _ => return reply
  | none, none => return .notFound
  | none, some endpoint =>
    if call.verb ≠ endpoint.verb then return .wrongMethod
    else
      match endpoint with
      | .health => return health
      | .workflows => return catalog configs
      | .workflow name => trigger configs c name call

/-- Handles a call. One that asks for the head of a reply alone gets no content. -/
def handle (configs : Configurations) (c : Collaborators) (call : Call) : Run Reply := do
  let reply ← respond configs c call
  return if call.verb = "HEAD" then reply.withoutContent else reply

end DefiActions.Service
