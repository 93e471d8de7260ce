import DefiActions.Bytes
import DefiActions.Decimal
import DefiActions.Text.Quoted

/-!
# Dynamic values

Configurations, service answers and report fields arrive as values whose shape
is only known once it has been looked at. A record keeps the order of its
members, and a name stands in it once. `display?` is the text of a value inside
a message; there is none if it would hold an integer past the numeral limit.
-/

namespace DefiActions

inductive Value
  | null
  | bool (b : Bool)
  | int (n : Int)
  | float (x : Binary64)
  | text (s : String)
  | bytes (bs : Bytes)
  | list (items : List Value)
  | record (members : List (String × Value))
  deriving Inhabited, Repr

abbrev Members := List (String × Value)

namespace Members

def get? (ms : Members) (name : String) : Option Value := ms.lookup name

/-- Replaces the member of that name where it stands, or adds it at the end. -/
def put (ms : Members) (name : String) (v : Value) : Members :=
  match ms with
  | [] => [(name, v)]
  | (k, w) :: rest => if k = name then (k, v) :: rest else (k, w) :: put rest name v

/-- The record of the pairs in order; of two with one name the later value stays. -/
def ofPairs (pairs : List (String × Value)) : Members := pairs.foldl (fun ms p => put ms p.1 p.2) []

end Members

namespace Value

def isNull : Value → Bool
  | null => true
  | _ => false

/-- The member of a record, or `null`. -/
def member : Value → String → Value
  | record ms, name => (Members.get? ms name).getD null
  | _, _ => null

/-- The members of a record; of anything else none. -/
def members : Value → Members
  | record ms => ms
  | _ => []

/-- Zero, empty and absent values are not set. -/
def isSet : Value → Bool
  | null => false
  | bool b => b
  | int n => n != 0
  | float x => !x.isZero
  | text s => !s.isEmpty
  | bytes bs => !bs.isEmpty
  | list items => !items.isEmpty
  | record ms => !ms.isEmpty

def kindName : Value → String
  | null => "NoneType"
  | bool _ => "bool"
  | int _ => "int"
  | float _ => "float"
  | text _ => "str"
  | bytes _ => "bytes"
  | list _ => "list"
  | record _ => "dict"

def ofOption (f : α → Value) : Option α → Value
  | some a => f a
  | none => null

/-! ## Text of a value -/

def boolText (b : Bool) : String := if b then "True" else "False"

mutual

/-- The text of a value inside another one: texts and octets are quoted. -/
def quoted? : Value → Option (List Char)
  | null => some "None".toList
  | bool b => some (boolText b).toList
  | int n => if Text.isWritable n then some (Text.intDigits n) else none
  | float x => some x.digitsText
  | text s => some (Text.quoted s.toList)
  | bytes bs => some (Text.quotedBytes bs)
  | list items => (quotedItems? items).map fun body => '[' :: body ++ [']']
  | record ms => (quotedMembers? ms).map fun body => '\x7b' :: body ++ ['\x7d']

def quotedItems? : List Value → Option (List Char)
  | [] => some []
  | [v] => quoted? v
  | v :: rest => do return (← quoted? v) ++ ',' :: ' ' :: (← quotedItems? rest)

def quotedMembers? : List (String × Value) → Option (List Char)
  | [] => some []
  | [(k, v)] => do return Text.quoted k.toList ++ ':' :: ' ' :: (← quoted? v)
  | (k, v) :: rest => do
    return Text.quoted k.toList ++ ':' :: ' ' :: (← quoted? v) ++ ',' :: ' ' :: (← quotedMembers? rest)

end

/-- The text of a value in a message: texts stand for themselves. -/
def display? : Value → Option String
  | text s => some s
  | v => (quoted? v).map String.ofList

end Value

end DefiActions
