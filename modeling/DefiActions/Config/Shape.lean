import DefiActions.Value

/-!
# Shapes of configurations

A shape says what a configuration may hold. An object lists its fields; a field
has a name on the wire and a long name of its own, and says what stands there
when it is left out.
-/

namespace DefiActions.Config

structure Label where
  wire : String
  name : String
  /-- The value of a field that is left out; none if it must be given. -/
  absent? : Option Value
  /-- Whether `null` may be given. -/
  nullable : Bool

mutual

inductive Shape
  | text
  | integer
  | positive
  | number
  | choice (options : List String)
  | object (title : String) (fields : Fields)
  | list (item : Shape)

inductive Fields
  | nil
  | cons (label : Label) (shape : Shape) (rest : Fields)

end

namespace Fields

def ofList : List (Label × Shape) → Fields
  | [] => nil
  | (l, s) :: rest => cons l s (ofList rest)

/-- The field of that name, in either spelling. -/
def find? (fields : Fields) (key : String) : Option (Label × Shape) :=
  match fields with
  | nil => none
  | cons l s rest => if l.wire = key ∨ l.name = key then some (l, s) else rest.find? key

end Fields

namespace Shape

def title : Shape → String
  | object title _ => title
  | _ => ""

end Shape

/-! ## Fields -/

/-- A field that must be given. -/
def required (wire name : String) (s : Shape) : Label × Shape := (⟨wire, name, none, false⟩, s)

/-- A field that is `null` when it is left out. -/
def optional (wire name : String) (s : Shape) : Label × Shape := (⟨wire, name, some .null, true⟩, s)

def withDefault (wire name : String) (s : Shape) (v : Value) : Label × Shape :=
  (⟨wire, name, some v, false⟩, s)

def textOr (wire name fallback : String) : Label × Shape := withDefault wire name .text (.text fallback)

end DefiActions.Config
