import DefiActions.Bytes
import DefiActions.Text.Character
import DefiActions.Text.Quoted

/-!
# Integer numerals

Integers are written in base 10 with at most `numeralLimit` digits. They are
read in base 10 or 16: blanks around, one sign, digits of any script, single
underscores between digits, and in base 16 a leading `0x`. Base 10 has the same
limit, which is looked at before what follows the digits; base 16 has none.
-/

namespace DefiActions.Text

def numeralLimit : Nat := 4300

/-- The numeral of `n` keeps the limit. -/
def isWritable (n : Int) : Bool := n.natAbs < tenPow numeralLimit

def natDigits (n : Nat) : List Char := Nat.toDigits 10 n

def intDigits : Int → List Char
  | .ofNat n => natDigits n
  | .negSucc n => '-' :: natDigits (n + 1)

def numeral (n : Int) : String := String.ofList (intDigits n)

/-! ## Reading -/

inductive NumeralFault
  | malformed
  | tooLong (digits : Nat)
  deriving DecidableEq, Repr

inductive Base
  | ten
  | sixteen
  deriving DecidableEq, Repr

namespace Base

def size : Base → Nat
  | ten => 10
  | sixteen => 16

def digitValue? : Base → Char → Option Nat
  | ten, c => Text.digitValue? c
  | sixteen, c => (Text.digitValue? c).or (Hex.digitValue? c)

end Base

/-- A run of digits with single underscores between them, and what follows it. An underscore
that is not followed by a digit spoils the run. -/
def digitRun (base : Base) : List Char → Option (List Nat × List Char)
  | [] => some ([], [])
  | '_' :: c :: rest => do
    let d ← base.digitValue? c
    let (ds, rest) ← digitRun base rest
    some (d :: ds, rest)
  | c :: rest =>
    match base.digitValue? c with
    | none => if c = '_' then none else some ([], c :: rest)
    | some d => do
      let (ds, rest) ← digitRun base rest
      some (d :: ds, rest)

/-- The sign in front, as whether it is a minus, and the rest. -/
def splitSign : List Char → Bool × List Char
  | '-' :: rest => (true, rest)
  | '+' :: rest => (false, rest)
  | cs => (false, cs)

/-- Without the mark of base 16 and the underscore that may follow it. -/
def dropBaseMark (base : Base) (cs : List Char) : List Char :=
  match base, cs with
  | .sixteen, z :: x :: rest =>
    if digitValue? z = some 0 ∧ (x = 'x' ∨ x = 'X') then
      match rest with
      | '_' :: rest => rest
      | rest => rest
    else cs
  | _, _ => cs

def readNat (base : Base) (cs : List Char) : Except NumeralFault Nat :=
  match cs with
  | '_' :: _ => .error .malformed
  | _ =>
    match digitRun base cs with
    | none => .error .malformed
    | some (ds, rest) =>
      if base = .ten ∧ ds.length > numeralLimit then .error (.tooLong ds.length)
      else if ds = [] ∨ rest.any (!isSpace ·) then .error .malformed
      else .ok (ofDigits base.size ds)

def readInt (base : Base) (cs : List Char) : Except NumeralFault Int :=
  let (negative, body) := splitSign (cs.dropWhile isSpace)
  (readNat base (dropBaseMark base body)).map fun n => if negative then -(n : Int) else n

end DefiActions.Text
