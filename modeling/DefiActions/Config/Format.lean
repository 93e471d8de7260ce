import DefiActions.Bytes
import DefiActions.Config.Validation
import DefiActions.Uint256

/-!
# Texts of a fixed format

Addresses and octets are texts of hexadecimal digits after `0x`; a 256-bit
integer is brought to its plain decimal text.
-/

namespace DefiActions.Config

inductive Format
  | address
  | uint256
  | octets
  deriving DecidableEq, Repr

namespace Format

def isAddress (cs : List Char) : Bool :=
  match cs with
  | '0' :: 'x' :: ds => ds.length == 40 && ds.all Hex.isDigit
  | _ => false

def isOctets (cs : List Char) : Bool :=
  match cs with
  | '0' :: 'x' :: ds => ds.all Hex.isDigit
  | _ => false

def checkPattern (p : List Char → Bool) (v : Value) : Checked Value := do
  let s ← textOf v
  if p s.toList then return .text s else issue .pattern

def check : Format → Value → Checked Value
  | address, v => checkPattern isAddress v
  | octets, v => checkPattern isOctets v
  | uint256, v =>
    match Uint256.canonical v with
    | .ok s => .ok (.text s)
    | .error (.rejected r) => issue (.refused r)
    | .error _ => issue .textType

end Format

end DefiActions.Config
