import DefiActions.Abi
import DefiActions.Address
import DefiActions.Hash

/-!
# Read-only contract calls

A call starts with the first four octets of the hash of its signature. An answer
that does not decode, for its layout, its size or a value, is a bad response of
the contract.
-/

namespace DefiActions.ContractCall

def selector (signature : String) : Bytes := (Keccak.hash (Utf8.ofText signature)).take 4

def decimals : Bytes := selector "decimals()"

def description : Bytes := selector "description()"

def latestRoundData : Bytes := selector "latestRoundData()"

def slot0 (poolId : Bytes) : Except Failure Bytes :=
  if poolId.length ≠ 32 then refuse (.poolIdLength poolId.length)
  else do return selector "getSlot0(bytes32)" ++ (← Abi.encode [.octets32] [.bytes poolId])

def reserveData (asset : String) : Except Failure Bytes := do
  let octets ← Address.toBytes asset
  return selector "getReserveData(address)" ++ (← Abi.encode [.address] [.bytes octets])

/-! ## Answers -/

structure Round where
  roundId : Int
  answer : Int
  startedAt : Int
  updatedAt : Int
  answeredInRound : Int
  deriving DecidableEq, Repr

structure Slot0 where
  sqrtPrice : Int
  tick : Int
  protocolFee : Int
  lpFee : Int
  deriving DecidableEq, Repr

def roundKinds : List Abi.Kind := [.uint 80, .int 256, .uint 256, .uint 256, .uint 80]

def slot0Kinds : List Abi.Kind := [.uint 160, .int 24, .uint 24, .uint 24]

def reserveWords : List Abi.WordKind :=
  [.uint 256, .uint 128, .uint 128, .uint 128, .uint 128, .uint 128, .uint 40, .uint 16, .address, .address,
    .address, .address, .uint 128, .uint 128, .uint 128]

/-- The place of the aToken among the words of the reserve data. -/
def aTokenIndex : Nat := 8

/-- The faults that make an answer a bad one: of layout, of size, and values that are not accepted. -/
def isBadAnswer : Failure → Bool
  | .dataTooShort | .dataPadding | .dataPointer | .tooLarge => true
  | f => f.isRefusal

def decodeAnswer (what : String) (kinds : List Abi.Kind) (data : Bytes) :
    Except Failure (List Value) :=
  match Abi.decode kinds data with
  | .ok vs => .ok vs
  | .error f =>
    throw (if isBadAnswer f then .badResponse s!"Cannot decode {what} response: {f.description}" else f)

def intOf : Value → Int
  | .int n => n
  | _ => 0

def textOf : Value → String
  | .text s => s
  | _ => ""

def intAt (vs : List Value) (i : Nat) : Int := intOf (vs.getD i .null)

def decodeDecimals (data : Bytes) : Except Failure Int :=
  (decodeAnswer "decimals()" [.uint 8] data).map (intAt · 0)

def decodeDescription (data : Bytes) : Except Failure String :=
  (decodeAnswer "description()" [.text] data).map fun vs => textOf (vs.getD 0 .null)

def decodeRound (data : Bytes) : Except Failure Round :=
  (decodeAnswer "latestRoundData()" roundKinds data).map fun vs =>
    ⟨intAt vs 0, intAt vs 1, intAt vs 2, intAt vs 3, intAt vs 4⟩

def decodeSlot0 (data : Bytes) : Except Failure Slot0 :=
  (decodeAnswer "getSlot0()" slot0Kinds data).map fun vs =>
    ⟨intAt vs 0, intAt vs 1, intAt vs 2, intAt vs 3⟩

def decodeReserveAToken (data : Bytes) : Except Failure String :=
  (decodeAnswer "getReserveData()" [.words reserveWords] data).map fun vs =>
    match vs.getD 0 .null with
    | .list ws => Address.normalize (textOf (ws.getD aTokenIndex .null))
    | _ => Address.zero

end DefiActions.ContractCall
