import DefiActions.Bytes
import DefiActions.Json.Printer
import DefiActions.Json.Reader
import DefiActions.Result
import DefiActions.Text.Case
import DefiActions.Value

/-!
# Calls and replies of the service

A call names a method and a target and may have headers and a body, which may
override a configuration. A reply has a status and either a JSON value or a
plain text.
-/

namespace DefiActions.Service

structure Call where
  method : String
  /-- A path with percent encoding; a query or a fragment may follow it. -/
  target : String
  headers : List (String × String) := []
  body : Bytes := []

namespace Call

/-- The value of a header, whose name may be in any letter case. -/
def header? (c : Call) (name : String) : Option String :=
  (c.headers.find? fun h => Text.lower h.1.toList = name.toList).map (·.2)

/-- The length of the body in octets as text: the declared one before the actual one. -/
def lengthText (c : Call) : String := (c.header? "content-length").getD (Text.numeral c.body.length)

/-- The methods are told apart in capitals. -/
def verb (c : Call) : String := String.ofList (Text.upper c.method.toList)

end Call

inductive Content
  | json (v : Value)
  | text (s : String)

structure Reply where
  status : Nat
  content : Content

namespace Reply

def ok (v : Value) : Reply := ⟨200, .json v⟩

def detail (status : Nat) (v : Value) : Reply := ⟨status, .json (.record [("detail", v)])⟩

def notFound : Reply := detail 404 (.text "Not Found")

def wrongMethod : Reply := detail 405 (.text "Method Not Allowed")

def tooLarge : Reply := detail 413 (.text "Request too large")

def failed : Reply := ⟨500, .text "Internal Server Error"⟩

def withoutContent (r : Reply) : Reply := { r with content := .text "" }

end Reply

/-! ## Overrides

The body of a call is a JSON record that overrides the configuration. No body
and `null` override nothing; any other body is turned down. -/

/-- The main type and the subtype of a content type; parameters do not count. -/
def mediaType (contentType : String) : Option (List Char × List Char) :=
  let lowered := Text.lower (Text.trimBy Text.isBlank (contentType.toList.takeWhile (· ≠ ';')))
  match lowered.splitOn '/' with
  | [main, subtype] => some (main, subtype)
  | _ => none

/-- Content is JSON if its type says so or says nothing. -/
def isJson (contentType : Option String) : Bool :=
  match contentType with
  | none => true
  | some "" => true
  | some s =>
    match mediaType s with
    | some (main, subtype) =>
      main = "application".toList
        && (subtype = "json".toList || "+json".toList.isSuffixOf subtype)
    | none => false

def bodyIssue (reason : String) : Reply :=
  .detail 422 (.list [.record [("loc", .list [.text "body"]), ("type", .text reason)]])

/-- The reply that turns down a body of the wrong kind. It would quote the body, which only standard JSON
allows. -/
def wrongKind (v : Value) : Reply := if Json.isStandard v then bodyIssue "dict_type" else .failed

/-- A body may begin with the mark of UTF-8. -/
def dropByteOrderMark : Bytes → Bytes
  | 0xEF :: 0xBB :: 0xBF :: rest => rest
  | bs => bs

def unreadableBody : Failure → Reply
  | .notJson => bodyIssue "json_invalid"
  | _ => .detail 400 (.text "There was an error parsing the body")

/-- The override that a value gives; `null` gives none. -/
def overrideOf : Value → Except Reply Value
  | .null => .ok .null
  | .record ms => .ok (.record ms)
  | v => throw (wrongKind v)

def Call.override (c : Call) : Except Reply Value :=
  if c.body = [] then .ok .null
  else if isJson (c.header? "content-type") then do
    overrideOf (← (Json.documentOfBytes (dropByteOrderMark c.body)).mapError unreadableBody)
  else throw (bodyIssue "dict_type")

end DefiActions.Service
