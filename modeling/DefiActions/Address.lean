import DefiActions.Bytes
import DefiActions.Error
import DefiActions.Hash
import DefiActions.Text.Case
import DefiActions.Value

/-!
# Addresses

An address is a text of 40 hexadecimal digits after `0x`. Its normal form has
lowercase letters. Validity is looked at on the text as a base 16 numeral, so
that a text may be valid and still write fewer than 20 octets.
-/

namespace DefiActions.Blob

/-! ## Octets of any length

A blob is given as octets or as hexadecimal text with or without a mark. -/

def ofDigits (cs : List Char) : Except Failure Bytes :=
  match Hex.toBytes? cs with
  | .ok bs => .ok bs
  | .error pos => refuse (.notHex pos)

def ofText (s : String) : Except Failure Bytes := ofDigits (Hex.dropMark s.toList)

def ofValue : Value → Except Failure Bytes
  | .bytes bs => .ok bs
  | .text s => ofText s
  | _ => throw .missingMember

end DefiActions.Blob

namespace DefiActions.Address

def zero : String := "0x0000000000000000000000000000000000000000"

/-- The characters of an address with its mark. -/
def length : Nat := 42

def hasMark : List Char → Bool
  | '0' :: 'x' :: _ => true
  | _ => false

/-- Lowercase, with `0x` in front. -/
def normalChars (cs : List Char) : List Char :=
  let low := Text.lower cs
  if hasMark low then low else '0' :: 'x' :: low

def normalize (address : String) : String := String.ofList (normalChars address.toList)

def isValidChars (cs : List Char) : Bool :=
  hasMark cs && cs.length == length &&
    match Text.readInt .sixteen cs with
    | .ok _ => true
    | .error _ => false

def isValid (address : String) : Bool := isValidChars address.toList

def normalizeValid (address : String) : Except Failure String :=
  let normal := normalize address
  if isValid normal then .ok normal else refuse (.invalidAddress address)

/-- The octets of an address, 20 of them unless the text holds blanks. -/
def toBytes (address : String) : Except Failure Bytes := do
  let normal ← normalizeValid address
  Blob.ofDigits (normal.toList.drop 2)

/-- Accepts a well-known address as it stands. -/
def known (name address : String) : Except Failure String :=
  if isValid address then .ok address else refuse (.invalidKnownAddress name address)

/-! ## Checksums

The letters of an address can carry a checksum: a letter is a capital where the
hash of the lowercase digits has a digit of at least 8 at the same place. -/

/-- The lowercase digits of an address, which may have a mark or not. -/
def digits? (cs : List Char) : Option (List Char) :=
  let ds := Hex.dropMark cs
  if ds.length + 2 = length ∧ ds.all Hex.isDigit then some (Text.lower ds) else none

def hashDigits (cs : List Char) : List Char := Hex.ofBytes (Keccak.hash (Utf8.encode cs))

def capitalized (digit hashDigit : Char) : Char :=
  if 8 ≤ (Hex.digitValue? hashDigit).getD 0 then digit.toUpper else digit

def checksum (address : String) : Except Failure String :=
  match digits? address.toList with
  | none => refuse (.invalidAddress address)
  | some ds => .ok (String.ofList ('0' :: 'x' :: List.zipWith capitalized ds (hashDigits ds)))

end DefiActions.Address
