import DefiActions.Bytes
import DefiActions.Decimal
import DefiActions.Error
import DefiActions.Text.Numeral
import DefiActions.Value

/-!
# Reading JSON

Standard JSON, and also the words `NaN`, `Infinity` and `-Infinity`. A number
with a fraction or an exponent is a floating point number, any other an
integer, which keeps the numeral limit. Of members with one name the last
stays. Half of a surrogate pair stands for no character and reads as U+FFFD.

Each reader takes the text from where it stands and returns what it read with
the rest. Nesting is bounded by `fuel`; the length of the text is always enough.
So a document of any depth is read. A reader that runs on a stack of limited
size gives up at some depth; that failure is left out.
-/

namespace DefiActions.Json

inductive Fault
  | malformed
  | integerTooLong (digits : Nat)
  deriving DecidableEq, Repr

abbrev Read (α : Type) := Except Fault (α × List Char)

def isBlank (c : Char) : Bool := c = ' ' || c = '\t' || c = '\n' || c = '\r'

def skipBlanks (cs : List Char) : List Char := cs.dropWhile isBlank

/-! ## Texts -/

def escape? : Char → Option Char
  | '"' => some '"'
  | '\\' => some '\\'
  | '/' => some '/'
  | 'b' => some '\x08'
  | 'f' => some '\x0c'
  | 'n' => some '\n'
  | 'r' => some '\r'
  | 't' => some '\t'
  | _ => none

def unit? (a b c d : Char) : Option Nat := do
  return ((← Hex.digitValue? a) * 16 + (← Hex.digitValue? b)) * 256
    + (← Hex.digitValue? c) * 16 + (← Hex.digitValue? d)

def isHighUnit (n : Nat) : Bool := 0xD800 ≤ n && n < 0xDC00

def isLowUnit (n : Nat) : Bool := 0xDC00 ≤ n && n < 0xE000

/-- The character of one unit; half of a pair alone is replaced. -/
def ofUnit (n : Nat) : Char := if isHighUnit n || isLowUnit n then '\uFFFD' else Char.ofNat n

def ofPair (hi lo : Nat) : Char := Char.ofNat (0x10000 + (hi - 0xD800) * 0x400 + (lo - 0xDC00))

/-- What a text literal is made of: characters, and units written by number. -/
inductive Piece
  | char (c : Char)
  | unit (n : Nat)

def pieces : List Char → Read (List Piece)
  | [] => .error .malformed
  | '"' :: rest => .ok ([], rest)
  | '\\' :: 'u' :: a :: b :: c :: d :: rest =>
    match unit? a b c d with
    | none => .error .malformed
    | some n => (pieces rest).map fun r => (.unit n :: r.1, r.2)
  | '\\' :: c :: rest =>
    match escape? c with
    | none => .error .malformed
    | some c => (pieces rest).map fun r => (.char c :: r.1, r.2)
  | c :: rest =>
    if c.toNat < 0x20 || c = '\\' then .error .malformed
    else (pieces rest).map fun r => (.char c :: r.1, r.2)

/-- The characters that the pieces write: two units of a pair make one. -/
def joined : List Piece → List Char
  | [] => []
  | .char c :: rest => c :: joined rest
  | .unit hi :: .unit lo :: rest =>
    if isHighUnit hi && isLowUnit lo then ofPair hi lo :: joined rest
    else ofUnit hi :: joined (.unit lo :: rest)
  | .unit n :: rest => ofUnit n :: joined rest

def textBody (cs : List Char) : Read (List Char) := (pieces cs).map fun r => (joined r.1, r.2)

/-! ## Numbers -/

/-- A mark `e` with a sign and at least one digit, if one stands here, and the rest. -/
def exponentPart (cs : List Char) : Option Int × List Char :=
  match cs with
  | c :: rest =>
    if c = 'e' ∨ c = 'E' then
      let (signs, body) :=
        match rest with
        | '-' :: body => (['-'], body)
        | '+' :: body => (['+'], body)
        | body => ([], body)
      let ds := body.takeWhile Decimal.isAsciiDigit
      match Decimal.exponent? (signs ++ ds) with
      | some e => (some e, body.dropWhile Decimal.isAsciiDigit)
      | none => (none, cs)
    else (none, cs)
  | [] => (none, [])

/-- A point with at least one digit, if one stands here, and the rest. -/
def fractionPart (cs : List Char) : List Char × List Char :=
  match cs with
  | '.' :: rest =>
    let ds := rest.takeWhile Decimal.isAsciiDigit
    if ds = [] then ([], cs) else (ds, rest.dropWhile Decimal.isAsciiDigit)
  | cs => ([], cs)

/-- The digits in front of the point: a zero alone, or a run without a leading zero. -/
def wholePart (cs : List Char) : List Char × List Char :=
  match cs with
  | '0' :: rest => (['0'], rest)
  | cs => (cs.takeWhile Decimal.isAsciiDigit, cs.dropWhile Decimal.isAsciiDigit)

def number (negative : Bool) (cs : List Char) : Read Value :=
  let (whole, afterWhole) := wholePart cs
  if whole = [] then .error .malformed
  else
    let (fraction, afterFraction) := fractionPart afterWhole
    let (e, rest) := exponentPart afterFraction
    if fraction = [] ∧ e = none then
      if whole.length > Text.numeralLimit then .error (.integerTooLong whole.length)
      else
        let n := Decimal.digitsValue whole
        .ok (.int (if negative then -(n : Int) else n), rest)
    else
      let x := Binary64.ofDecimal negative (Decimal.digitsValue (whole ++ fraction))
        (e.getD 0 - fraction.length)
      .ok (.float x, rest)

/-! ## Values -/

/-- The rest after `word`, if the text starts with it. -/
def after? : (word cs : List Char) → Option (List Char)
  | [], cs => some cs
  | w :: word, c :: cs => if w = c then after? word cs else none
  | _ :: _, [] => none

def keyword? (cs : List Char) : Option (Value × List Char) :=
  ((after? "null".toList cs).map (Value.null, ·)).or <|
  ((after? "true".toList cs).map (Value.bool true, ·)).or <|
  ((after? "false".toList cs).map (Value.bool false, ·)).or <|
  ((after? "NaN".toList cs).map (Value.float .nan, ·)).or <|
  ((after? "Infinity".toList cs).map (Value.float (.infinite false), ·)).or <|
  (after? "-Infinity".toList cs).map (Value.float (.infinite true), ·)

/-- A value that holds no others. -/
def scalar (cs : List Char) : Read Value :=
  match cs with
  | '"' :: rest => (textBody rest).map fun r => (.text (String.ofList r.1), r.2)
  | _ =>
    match keyword? cs with
    | some r => .ok r
    | none =>
      match cs with
      | '-' :: rest => number true rest
      | cs => number false cs

mutual

def value : (fuel : Nat) → List Char → Read Value
  | 0, _ => .error .malformed
  | fuel + 1, cs =>
    match cs with
    | '[' :: rest =>
      match skipBlanks rest with
      | ']' :: rest => .ok (.list [], rest)
      | rest => (items fuel rest).map fun r => (.list r.1, r.2)
    | '\x7b' :: rest =>
      match skipBlanks rest with
      | '\x7d' :: rest => .ok (.record [], rest)
      | rest => (pairs fuel rest).map fun r => (.record (Members.ofPairs r.1), r.2)
    | cs => scalar cs

/-- Values up to the closing bracket, at least one. -/
def items : (fuel : Nat) → List Char → Except Fault (List Value × List Char)
  | 0, _ => .error .malformed
  | fuel + 1, cs => do
    let (v, rest) ← value fuel cs
    match skipBlanks rest with
    | ']' :: rest => .ok ([v], rest)
    | ',' :: rest => (items fuel (skipBlanks rest)).map fun r => (v :: r.1, r.2)
    | _ => .error .malformed

/-- Members up to the closing brace, at least one. -/
def pairs : (fuel : Nat) → List Char → Except Fault (List (String × Value) × List Char)
  | 0, _ => .error .malformed
  | fuel + 1, cs => do
    match cs with
    | '"' :: rest =>
      let (name, rest) ← textBody rest
      match skipBlanks rest with
      | ':' :: rest =>
        let (v, rest) ← value fuel (skipBlanks rest)
        match skipBlanks rest with
        | '\x7d' :: rest => .ok ([(String.ofList name, v)], rest)
        | ',' :: rest =>
          (pairs fuel (skipBlanks rest)).map fun r => ((String.ofList name, v) :: r.1, r.2)
        | _ => .error .malformed
      | _ => .error .malformed
    | _ => .error .malformed

end

def read (cs : List Char) : Except Fault Value := do
  let (v, rest) ← value (cs.length + 1) (skipBlanks cs)
  if skipBlanks rest = [] then .ok v else .error .malformed

/-! ## Documents

A document is a text, or the octets of one in UTF-8, that holds one JSON value.
What keeps a document from being read is a failure. -/

def Fault.toFailure : Fault → Failure
  | .malformed => .notJson
  | .integerTooLong digits => .rejected (.numeralTooLong (some digits))

def document (cs : List Char) : Except Failure Value := (read cs).mapError Fault.toFailure

/-- The value of a text in UTF-8. -/
def documentOfBytes (bs : Bytes) : Except Failure Value :=
  match Utf8.decode? bs with
  | none => throw .notUtf8
  | some cs => document cs

end DefiActions.Json
