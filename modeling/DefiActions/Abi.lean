import DefiActions.Bytes
import DefiActions.Error
import DefiActions.Value

/-!
# Contract parameters

What a parameter of a contract is, how parameters are written as octets, and how
they are read from octets that need not have been written here.
-/

namespace DefiActions.Abi

/-! ## Kinds

A parameter is one word, several words in a row, or data of its own length that
stands behind the words of all parameters and is found by an offset. Only
octets, texts and lists of octets are of the last kind here. -/

inductive WordKind
  | uint (bits : Nat)
  | int (bits : Nat)
  | bool
  | address
  | octets32
  deriving DecidableEq, Repr

inductive Kind
  | word (w : WordKind)
  | words (ws : List WordKind)
  | bytes
  | text
  | bytesList
  deriving DecidableEq, Repr

def WordKind.name : WordKind → String
  | uint bits => "uint" ++ toString bits
  | int bits => "int" ++ toString bits
  | bool => "bool"
  | address => "address"
  | octets32 => "bytes32"

namespace Kind

def uint (bits : Nat) : Kind := word (.uint bits)

def int (bits : Nat) : Kind := word (.int bits)

def bool : Kind := word .bool

def address : Kind := word .address

def octets32 : Kind := word .octets32

def name : Kind → String
  | word w => w.name
  | words ws => "(" ++ ",".intercalate (ws.map WordKind.name) ++ ")"
  | bytes => "bytes"
  | text => "string"
  | bytesList => "bytes[]"

def headSize : Kind → Nat
  | words ws => Bytes.wordSize * ws.length
  | _ => Bytes.wordSize

end Kind

def headSize : List Kind → Nat
  | [] => 0
  | k :: ks => k.headSize + headSize ks

/-! ## Encoding

Words come first, in order. Data of its own length leaves an offset among the
words and follows behind them. A value has to fit its kind exactly: a boolean is
no integer, an address is 20 octets, and lengths and offsets fit a word. The
first value that does not fit decides the failure. -/

/-- Names the failure, unless the value cannot be shown. -/
def unfit (f : Failure) (v : Value) : Failure :=
  match v.quoted? with
  | some _ => f
  | none => .rejected (.numeralTooLong none)

namespace WordKind

def encode (w : WordKind) (v : Value) : Except Failure Bytes :=
  match w, v with
  | uint bits, .int n =>
    if 0 ≤ n ∧ n < twoPow bits then .ok (Bytes.word n.toNat) else throw (unfit .fieldRange v)
  | int bits, .int n =>
    if -(twoPow (bits - 1) : Int) ≤ n ∧ n < twoPow (bits - 1) then .ok (Bytes.ofInt Bytes.wordSize n)
    else throw (unfit .fieldRange v)
  | bool, .bool b => .ok (Bytes.word b.toNat)
  | address, .bytes bs =>
    if bs.length = 20 then .ok (Bytes.zeros 12 ++ bs) else throw (unfit .fieldType v)
  | octets32, .bytes bs => if bs.length = 32 then .ok bs else throw (unfit .fieldRange v)
  | _, v => throw (unfit .fieldType v)

def encodeAll : List WordKind → List Value → Except Failure Bytes
  | [], _ => .ok []
  | w :: ws, vs => do
    let head ← w.encode (vs.headD .null)
    return head ++ (← encodeAll ws vs.tail)

end WordKind

/-- An encoded parameter: words in place, or data behind an offset. -/
inductive Part
  | inPlace (words : Bytes)
  | behind (data : Bytes)
  deriving DecidableEq, Repr

namespace Part

def headSize : Part → Nat
  | inPlace words => words.length
  | behind _ => Bytes.wordSize

/-- The words of the parts, when the first data stands at `offset`. -/
def heads (offset : Nat) : List Part → Bytes
  | [] => []
  | inPlace words :: ps => words ++ heads offset ps
  | behind data :: ps => Bytes.word offset ++ heads (offset + data.length) ps

def tails : List Part → Bytes
  | [] => []
  | inPlace _ :: ps => tails ps
  | behind data :: ps => data ++ tails ps

def headsSize : List Part → Nat
  | [] => 0
  | p :: ps => p.headSize + headsSize ps

/-- All data stands at offsets that fit a word, when the first stands at `offset`. -/
def inReach (offset : Nat) : List Part → Bool
  | [] => true
  | inPlace _ :: ps => inReach offset ps
  | behind data :: ps => decide (offset < twoPow 256) && inReach (offset + data.length) ps

def assemble (ps : List Part) : Except Failure Bytes :=
  let offset := headsSize ps
  if inReach offset ps then .ok (heads offset ps ++ tails ps) else throw .fieldRange

end Part

/-- The length, and the octets filled up to words. -/
def blob (bs : Bytes) : Bytes := Bytes.word bs.length ++ Bytes.padded bs

/-- The length has to fit a word as well. -/
def blobPart (bs : Bytes) : Except Failure Part :=
  if bs.length < twoPow 256 then .ok (.behind (blob bs)) else throw (unfit .fieldRange (.int bs.length))

def octetsOf (v : Value) : Except Failure Bytes :=
  match v with
  | .bytes bs => .ok bs
  | v => throw (unfit .fieldType v)

namespace Kind

def encode (k : Kind) (v : Value) : Except Failure Part :=
  match k with
  | word w => (w.encode v).map .inPlace
  | words ws =>
    match v with
    | .list vs =>
      if vs.length = ws.length then (WordKind.encodeAll ws vs).map .inPlace
      else throw (unfit .fieldRange v)
    | v => throw (unfit .fieldType v)
  | bytes => octetsOf v >>= blobPart
  | text =>
    match v with
    | .text s => blobPart (Utf8.ofText s)
    | v => throw (unfit .fieldType v)
  | bytesList =>
    match v with
    | .list vs => do
      let blobs ← vs.mapM fun v => octetsOf v >>= blobPart
      return .behind (Bytes.word vs.length ++ (← Part.assemble blobs))
    | v => throw (unfit .fieldType v)

end Kind

/-- Kinds and values go together in order; a value that is not there counts as null. -/
def encodeParts : List Kind → List Value → Except Failure (List Part)
  | [], _ => .ok []
  | k :: ks, vs => do
    let part ← k.encode (vs.headD .null)
    return part :: (← encodeParts ks vs.tail)

def encode (ks : List Kind) (vs : List Value) : Except Failure Bytes := do
  Part.assemble (← encodeParts ks vs)

/-! ## Decoding

Decoding is strict about every octet that a parameter takes up and ignores what
follows the last one. The words are gone through twice: first every word is
read and every offset is looked at, which must point behind the words and into
the data; then the values are read in order. -/

def wordAt (data : Bytes) (pos : Nat) : Except Failure Bytes :=
  let w := (data.drop pos).take Bytes.wordSize
  if w.length = Bytes.wordSize then .ok w else throw .dataTooShort

/-- The value of a word; octets outside its width only extend it. -/
def WordKind.ofWord (k : WordKind) (w : Bytes) : Except Failure Value :=
  match k with
  | uint bits => if Bytes.toNat w < twoPow bits then .ok (.int (Bytes.toNat w)) else throw .dataPadding
  | int bits =>
    let n := Bytes.toInt w
    if -(twoPow (bits - 1) : Int) ≤ n ∧ n < twoPow (bits - 1) then .ok (.int n) else throw .dataPadding
  | bool => if Bytes.toNat w < 2 then .ok (.bool (Bytes.toNat w = 1)) else throw .dataPadding
  | address =>
    if Bytes.toNat w < twoPow 160 then .ok (.text (Hex.literal (w.drop 12))) else throw .dataPadding
  | octets32 => .ok (.bytes w)

def decodeWord (data : Bytes) (pos : Nat) (k : WordKind) : Except Failure Value := do
  k.ofWord (← wordAt data pos)

def decodeWords (data : Bytes) : (pos : Nat) → List WordKind → Except Failure (List Value)
  | _, [] => .ok []
  | pos, k :: ks => do
    let v ← decodeWord data pos k
    return v :: (← decodeWords data (pos + Bytes.wordSize) ks)

def natAt (data : Bytes) (pos : Nat) : Except Failure Nat := (wordAt data pos).map Bytes.toNat

/-- As many octets are never there, and asking for them fails in a way of its own. -/
def readBound : Nat := twoPow 63

/-- Octets after their length, filled with zeros up to words. -/
def blobAt (data : Bytes) (pos : Nat) : Except Failure Bytes := do
  let size ← natAt data pos
  let room := Bytes.ceilWord size
  let field := (data.drop (pos + Bytes.wordSize)).take room
  if field.length < room then throw (if readBound ≤ room then .tooLarge else .dataTooShort)
  if (field.drop size).any (· ≠ 0) then throw .dataPadding
  return field.take size

/-- The offset at a position, which points behind the words and into the data. -/
def offsetAt (data : Bytes) (headEnd pos : Nat) : Except Failure Nat := do
  let offset ← natAt data pos
  if offset < headEnd ∨ data.length ≤ offset then throw .dataPointer
  return offset

/-- The offsets of `count` items from a position on. -/
def offsetsAt (data : Bytes) (headEnd : Nat) : (count pos : Nat) → Except Failure (List Nat)
  | 0, _ => .ok []
  | count + 1, pos => do
    let offset ← offsetAt data headEnd pos
    return offset :: (← offsetsAt data headEnd count (pos + Bytes.wordSize))

/-- Octets behind offsets of their own, counted from behind the number of them. -/
def blobsAt (data : Bytes) (pos : Nat) : Except Failure (List Bytes) := do
  let count ← natAt data pos
  let frame := data.drop (pos + Bytes.wordSize)
  if frame.length < Bytes.wordSize * count then throw .dataTooShort
  let offsets ← offsetsAt frame (Bytes.wordSize * count) count 0
  offsets.mapM (blobAt frame)

/-- First pass: every word is read and every offset looked at. -/
def checkHeads (data : Bytes) (headEnd : Nat) : (pos : Nat) → List Kind → Except Failure Unit
  | _, [] => .ok ()
  | pos, k :: ks => do
    match k with
    | .word w => let _ ← decodeWord data pos w
    | .words ws => let _ ← decodeWords data pos ws
    | _ => let _ ← offsetAt data headEnd pos
    checkHeads data headEnd (pos + k.headSize) ks

def Kind.decodeAt (data : Bytes) (pos : Nat) (k : Kind) : Except Failure Value := do
  match k with
  | .word w => decodeWord data pos w
  | .words ws => return .list (← decodeWords data pos ws)
  | .bytes => return .bytes (← blobAt data (← natAt data pos))
  | .text =>
    match Utf8.text? (← blobAt data (← natAt data pos)) with
    | some s => return .text s
    | none => throw .notUtf8
  | .bytesList => return .list ((← blobsAt data (← natAt data pos)).map .bytes)

/-- Second pass: the values in order. -/
def decodeFrom (data : Bytes) : (pos : Nat) → List Kind → Except Failure (List Value)
  | _, [] => .ok []
  | pos, k :: ks => do
    let v ← k.decodeAt data pos
    return v :: (← decodeFrom data (pos + k.headSize) ks)

def decode (ks : List Kind) (data : Bytes) : Except Failure (List Value) := do
  checkHeads data (headSize ks) 0 ks
  decodeFrom data 0 ks

end DefiActions.Abi
