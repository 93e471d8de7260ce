import DefiActions.Bytes
import DefiActions.Config.Shape
import DefiActions.Decimal
import DefiActions.Error
import DefiActions.Value

/-!
# Validation of configurations

Configurations are read leniently and kept strictly: what was given for a field
is brought to the one normal form of its value, or is an issue.
-/

namespace DefiActions.Config

/-! ## Numbers

A number may be given as a number, as a boolean or as a text that writes one;
octets count as the text that they are in UTF-8. An integer may be given as a
whole floating point number below 2^63, or as a text with a fraction of zeros,
leading zeros, and single underscores between digits. -/

def boolInt (b : Bool) : Int := if b then 1 else 0

/-! ## Integers -/

/-- The bound of floating point numbers that are taken as integers. -/
def wholeBound : Int := twoPow 63

def integerOfFloat (x : Binary64) : Except IssueKind Int :=
  if !x.isFinite then throw .finiteNumber
  else
    match x.whole? with
    | none => throw .integerFraction
    | some n => if n.natAbs < wholeBound then .ok n else throw .integerSize

/-- The digits of a text in which single underscores may part them. -/
def groupedDigits? (cs : List Char) : Option (List Char) :=
  let groups := cs.splitOn '_'
  if groups.all fun g => !g.isEmpty && g.all Decimal.isAsciiDigit then some groups.flatten else none

/-- Without a point and the zeros behind it; there is at least one of them. -/
def dropZeroFraction (cs : List Char) : List Char :=
  match cs.dropWhile (· ≠ '.') with
  | _ :: '0' :: zeros => if zeros.all (· = '0') then cs.takeWhile (· ≠ '.') else cs
  | _ => cs

/-- A minus counts towards the length of a numeral, and leading zeros do not. -/
def isTooLong (negative : Bool) (digits : List Char) : Bool :=
  Text.numeralLimit < (digits.dropWhile (· = '0')).length + (if negative then 1 else 0)

/-- The integer that a text writes. Too many digits at its beginning are refused before what
follows them is looked at. -/
def integerOfText (s : String) : Except IssueKind Int :=
  let (negative, numeral) := Text.splitSign (Text.trimBy Text.isSpace s.toList)
  if isTooLong negative (numeral.takeWhile Decimal.isAsciiDigit) then throw .integerSize
  else
    match groupedDigits? (dropZeroFraction numeral) with
    | none => throw .integerText
    | some digits =>
      if isTooLong negative digits then throw .integerSize
      else
        let n : Int := Decimal.digitsValue digits
        .ok (if negative then -n else n)

def integer : Value → Except IssueKind Int
  | .int n => .ok n
  | .bool b => .ok (boolInt b)
  | .float x => integerOfFloat x
  | .text s => integerOfText s
  | .bytes bs => ((Utf8.text? bs).map integerOfText).getD (throw .integerText)
  | _ => throw .integerType

/-! ## Floating point numbers -/

def hasDoubleUnderscore : List Char → Bool
  | '_' :: '_' :: _ => true
  | _ :: rest => hasDoubleUnderscore rest
  | [] => false

/-- Without underscores, if each of them stands alone and none at an end. -/
def dropUnderscores? (cs : List Char) : Option (List Char) :=
  if cs.head? = some '_' ∨ cs.getLast? = some '_' ∨ hasDoubleUnderscore cs then none
  else some (cs.filter (· ≠ '_'))

def numberOfText (s : String) : Except IssueKind Binary64 :=
  let trimmed := Decimal.read? (Text.trimBy Text.isSpace s.toList)
  match trimmed.or ((dropUnderscores? s.toList).bind Decimal.read?) with
  | some x => .ok x
  | none => throw .numberText

def number : Value → Except IssueKind Binary64
  | .float x => .ok x
  | .int n =>
    match Binary64.ofInt? n with
    | some x => .ok x
    | none => throw .numberType
  | .bool b => .ok (Binary64.ofRatio false (boolInt b).natAbs 1)
  | .text s => numberOfText s
  | .bytes bs => ((Utf8.text? bs).map numberOfText).getD (throw .numberText)
  | _ => throw .numberType

/-! ## Records

A value of the right shape is brought to its normal form: every field under its
wire name, in the order of the shape, numbers as numbers, unknown fields gone.
Otherwise every issue is reported, in the order of the fields, with its path. -/

abbrev Checked (α : Type) := Except (List Issue) α

def issue (kind : IssueKind) : Checked α := throw [⟨[], kind⟩]

def under (step : Step) (c : Checked α) : Checked α :=
  c.mapError fun issues => issues.map fun i => { i with path := step :: i.path }

/-- Both results, or the issues of both. -/
def both (f : α → β → γ) (a : Checked α) (b : Checked β) : Checked γ :=
  match a, b with
  | .ok a, .ok b => .ok (f a b)
  | .ok _, .error e => throw e
  | .error e, .ok _ => throw e
  | .error e, .error e' => throw (e ++ e')

def ofKind (c : Except IssueKind α) : Checked α := c.mapError fun k => [⟨[], k⟩]

/-- The text of a value. Octets may stand for the text that they are in UTF-8. -/
def textOf : Value → Checked String
  | .text s => .ok s
  | .bytes bs =>
    match Utf8.text? bs with
    | some s => .ok s
    | none => issue .textEncoding
  | _ => issue .textType

def checkText (v : Value) : Checked Value := (textOf v).map .text

def checkInteger (v : Value) : Checked Value := (ofKind (integer v)).map .int

def checkPositive (v : Value) : Checked Value := do
  let n ← ofKind (integer v)
  if 0 < n then return .int n else issue .notPositive

def checkChoice (options : List String) : Value → Checked Value
  | .text s => if options.contains s then .ok (.text s) else issue .choice
  | _ => issue .choice

/-- What is given for a field, the wire name first. -/
def given (l : Label) (ms : Members) : Option Value := (ms.get? l.wire).or (ms.get? l.name)

/-- The value of a field from what is given for it. -/
def checkGiven (l : Label) (check : Value → Checked Value) : Option Value → Checked Value
  | none =>
    match l.absent? with
    | some v => .ok v
    | none => issue .missing
  | some v => if l.nullable && v.isNull then .ok .null else check v

/-- The values of a list, each checked under its index. -/
def checkItems (check : Value → Checked Value) : (index : Nat) → List Value → Checked (List Value)
  | _, [] => .ok []
  | index, v :: vs => both List.cons (under (.index index) (check v)) (checkItems check (index + 1) vs)

mutual

def Shape.check : Shape → Value → Checked Value
  | .text, v => checkText v
  | .integer, v => checkInteger v
  | .positive, v => checkPositive v
  | .number, v => (ofKind (number v)).map .float
  | .choice options, v => checkChoice options v
  | .object _ fields, .record ms => (fields.check ms).map .record
  | .object _ _, _ => issue .objectType
  | .list item, .list vs => (checkItems item.check 0 vs).map .list
  | .list _, _ => issue .listType

def Fields.check : Fields → Members → Checked Members
  | .nil, _ => .ok []
  | .cons l s rest, ms =>
    both (fun v vs => (l.wire, v) :: vs) (under (.name l.wire) (checkGiven l s.check (given l ms)))
      (rest.check ms)

end

def validate (s : Shape) (v : Value) : Except Failure Value :=
  (s.check v).mapError (Failure.invalid s.title)

/-! ## Overrides

An override gives some fields, in either spelling and at any depth. Its values
win over those of the configuration, except `null`; records are merged field by
field and lists replaced. The result is validated again. -/

mutual

/-- An override with every known field under its wire name. Of two spellings of one field the later
one stays. -/
def Fields.toWire (fields : Fields) (acc : Members) : List (String × Value) → Members
  | [] => acc
  | (key, v) :: rest =>
    match fields.find? key with
    | none => fields.toWire (acc.put key v) rest
    | some (l, s) => fields.toWire (acc.put l.wire (s.toWire v)) rest

def Shape.toWire : Shape → Value → Value
  | .object _ fields, .record ms => .record (fields.toWire [] ms)
  | _, v => v

end

mutual

def overlayMembers (base : Members) : List (String × Value) → Members
  | [] => base
  | (key, v) :: rest =>
    overlayMembers (if v.isNull then base else base.put key (overlay (base.get? key) v)) rest

/-- The value of an override where a value may stand already. -/
def overlay (current? : Option Value) : Value → Value
  | .record ms =>
    match current? with
    | some (.record base) => .record (overlayMembers base ms)
    | _ => .record ms
  | v => v

end

/-- An override that is absent or empty. -/
def givesNothing (override : Value) : Bool := !override.isSet

/-- A configuration with an override put over it, before it is validated. -/
def overridden (s : Shape) (base override : Value) : Except Failure Value :=
  match s.toWire override with
  | .record ms => .ok (.record (overlayMembers base.members ms))
  | _ => throw .missingMember

/-- An override that gives nothing leaves the configuration as it is. -/
def merge (s : Shape) (base override : Value) : Except Failure Value :=
  if givesNothing override then .ok base else do validate s (← overridden s base override)

end DefiActions.Config
