import DefiActions.Abi
import DefiActions.Address
import DefiActions.Hash

/-!
# Pool keys

A pool is known by its two currencies in ascending order, its fee, its tick
spacing and its hooks. The id of a pool is the hash of the encoding of these
five. A key is only made from currencies in order, a fee of 24 bits and a
positive spacing.
-/

namespace DefiActions.Pool

/-- The fee of a pool in millionths, unless another one is configured. -/
def defaultFee : Int := 3000

def defaultSpacing : Int := 60

/-- A whole number, or a flag that counts as 0 or 1 but is not encoded as a number. -/
inductive Whole
  | int (n : Int)
  | flag (b : Bool)
  deriving DecidableEq, Repr

namespace Whole

def toInt : Whole → Int
  | int n => n
  | flag b => if b then 1 else 0

def toValue : Whole → Value
  | int n => .int n
  | flag b => .bool b

end Whole

/-- Two currencies in ascending order, and whether the first of them was given first. -/
structure Pair where
  currency0 : String
  currency1 : String
  zeroForOne : Bool
  deriving DecidableEq, Repr

/-- The normal forms of two assets in ascending order. -/
def Pair.order (source destination : String) : Except Failure Pair :=
  let s := Address.normalize source
  let d := Address.normalize destination
  if s = d then refuse (.sameAsset source)
  else .ok (if s < d then ⟨s, d, true⟩ else ⟨d, s, false⟩)

structure Key where
  currency0 : String
  currency1 : String
  fee : Whole
  spacing : Whole
  hooks : String
  deriving DecidableEq, Repr

namespace Key

def kinds : List Abi.WordKind := [.address, .address, .uint 24, .int 24, .address]

def refuseSpacing : Whole → Except Failure Key
  | .int n => refuse (.nonPositiveSpacing n)
  | .flag _ => refuse .falseSpacing

/-- The key of currencies that are in order already. -/
def make (currency0 currency1 : String) (fee spacing : Whole) (hooks : String) :
    Except Failure Key := do
  let c0 ← Address.normalizeValid currency0
  let c1 ← Address.normalizeValid currency1
  if ¬ c0 < c1 then refuse (.unorderedCurrencies c0 c1)
  else if spacing.toInt ≤ 0 then refuseSpacing spacing
  else if ¬ (0 ≤ fee.toInt ∧ fee.toInt < twoPow 24) then refuse (.feeTooWide fee.toInt)
  else return ⟨c0, c1, fee, spacing, ← Address.normalizeValid hooks⟩

/-- The key of two assets, and whether the swap goes from currency 0 to currency 1. -/
def forSwap (source destination : String) (fee spacing : Whole) (hooks : String) :
    Except Failure (Key × Bool) := do
  let pair ← Pair.order source destination
  return (← make pair.currency0 pair.currency1 fee spacing hooks, pair.zeroForOne)

/-- The key of two assets in any order. -/
def create (a b : String) (fee spacing : Whole) (hooks : String) : Except Failure Key :=
  (forSwap a b fee spacing hooks).map (·.1)

def parts (k : Key) : Except Failure (List Value) := do
  let c0 ← Address.toBytes k.currency0
  let c1 ← Address.toBytes k.currency1
  let hooks ← Address.toBytes k.hooks
  return [.bytes c0, .bytes c1, k.fee.toValue, k.spacing.toValue, .bytes hooks]

end Key

/-- The id of the pool of two currencies in any order. -/
def id (a b : String) (fee spacing : Value) (hooks : String) : Except Failure Bytes := do
  let pair ← Pair.order a b
  let c0 ← Address.toBytes pair.currency0
  let c1 ← Address.toBytes pair.currency1
  let hooks ← Address.toBytes hooks
  return Keccak.hash (← Abi.WordKind.encodeAll Key.kinds [.bytes c0, .bytes c1, fee, spacing, .bytes hooks])

namespace Key

def id (k : Key) : Except Failure Bytes :=
  Pool.id k.currency0 k.currency1 k.fee.toValue k.spacing.toValue k.hooks

def idText (k : Key) : Except Failure String := k.id.map Hex.literal

def isCurrency0 (k : Key) (token : String) : Bool := Address.normalize token = k.currency0

end Key

end DefiActions.Pool
