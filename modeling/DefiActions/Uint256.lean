import DefiActions.Error
import DefiActions.Value

/-!
# Unsigned 256-bit integers in configurations

An amount is given as an integer or as a text that writes one. `canonical` is its
plain decimal text, and `read` the number itself.
-/

namespace DefiActions.Uint256

def bound : Nat := twoPow 256

def integer : Value → Except Failure Int
  | .int n => .ok n
  | .text s =>
    match Text.readInt .ten s.toList with
    | .ok n => .ok n
    | .error _ => refuse (.uint256Text s)
  | v => refuse (.uint256Kind v.kindName)

/-- The text of a value that is out of range, for the message. -/
def shown (v : Value) : Except Failure String :=
  match v.display? with
  | some s => .ok s
  | none => refuse (.numeralTooLong none)

def read (v : Value) : Except Failure Nat := do
  let n ← integer v
  if n < 0 then refuse (.uint256Negative (← shown v))
  else if (bound : Int) ≤ n then refuse (.uint256Overflow (← shown v))
  else return n.toNat

/-- The decimal text without sign, leading zeros, separators or blanks. -/
def canonical (v : Value) : Except Failure String := (read v).map (Text.numeral ·)

def ofText (s : String) : Except Failure Nat := read (.text s)

end DefiActions.Uint256
