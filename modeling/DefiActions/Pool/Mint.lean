import DefiActions.Abi
import DefiActions.Address
import DefiActions.Pool.Key

/-!
# Minting a position

The position manager takes a list of action codes and one parameter for each of
them: minting the position, then closing what is owed in either currency.
-/

namespace DefiActions.Pool.Mint

def actions : Bytes := [0x02, 0x12, 0x12]

def amountBound : Nat := twoPow 128

def defaultMaximum : Int := twoPow 128 - 1

structure Position where
  key : Key
  tickLower : Int
  tickUpper : Int
  liquidity : Int
  recipient : String
  maximum0 : Int := defaultMaximum
  maximum1 : Int := defaultMaximum
  hookData : Value := .bytes []

/-- The kinds of the parameters of the first action. -/
def mintKinds : List Abi.Kind :=
  [.words Key.kinds, .int 24, .int 24, .uint 256, .uint 128, .uint 128, .address, .bytes]

def outerKinds : List Abi.Kind := [.bytes, .bytesList]

def mintParameter (p : Position) : Except Failure Bytes := do
  let key ← p.key.parts
  let recipient ← Address.toBytes p.recipient
  let hookData ← Blob.ofValue p.hookData
  Abi.encode mintKinds
    [.list key, .int p.tickLower, .int p.tickUpper, .int p.liquidity, .int p.maximum0, .int p.maximum1,
      .bytes recipient, .bytes hookData]

def closeParameter (currency : String) : Except Failure Bytes := do
  Abi.encode [.address] [.bytes (← Address.toBytes currency)]

def encode (p : Position) : Except Failure Bytes := do
  let mint ← mintParameter p
  let close0 ← closeParameter p.key.currency0
  let close1 ← closeParameter p.key.currency1
  Abi.encode outerKinds [.bytes actions, .list [.bytes mint, .bytes close0, .bytes close1]]

end DefiActions.Pool.Mint
