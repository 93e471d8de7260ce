import DefiActions.Bytes
import DefiActions.Text.Character

/-!
# Texts with escapes

Two ways to write any text with few characters: in quotes, and in a query.
-/

namespace DefiActions.Text

/-! ## Quoted text

A text is quoted with `'`, or with `"` if it holds `'` and no `"`. Inside, the
quote and the backslash are marked by a backslash, and what cannot be printed is
written by its code point. -/

def quoteFor (cs : List Char) : Char := if cs.contains '\'' && !cs.contains '"' then '"' else '\''

/-- The last `width` hexadecimal digits of `n`. -/
def hexDigits : (width n : Nat) → List Char
  | 0, _ => []
  | width + 1, n => hexDigits width (n / 16) ++ [Hex.digit (n % 16)]

def quoteChar (quote c : Char) : List Char :=
  if c = quote ∨ c = '\\' then ['\\', c]
  else if c = '\n' then ['\\', 'n']
  else if c = '\r' then ['\\', 'r']
  else if c = '\t' then ['\\', 't']
  else if isPrintable c then [c]
  else if c.toNat < 0x100 then '\\' :: 'x' :: hexDigits 2 c.toNat
  else if c.toNat < 0x10000 then '\\' :: 'u' :: hexDigits 4 c.toNat
  else '\\' :: 'U' :: hexDigits 8 c.toNat

def quoted (cs : List Char) : List Char :=
  let quote := quoteFor cs
  quote :: cs.flatMap (quoteChar quote) ++ [quote]

/-- Octets are quoted like text, those outside printable ASCII by two hexadecimal digits. -/
def quotedOctet (quote : Char) (b : UInt8) : List Char :=
  let c := Char.ofNat b.toNat
  if b.toNat < 0x80 then quoteChar quote c else '\\' :: 'x' :: hexDigits 2 b.toNat

def quotedBytes (bs : Bytes) : List Char :=
  let quote := quoteFor (bs.map fun b => Char.ofNat b.toNat)
  'b' :: quote :: bs.flatMap (quotedOctet quote) ++ [quote]

end DefiActions.Text

namespace DefiActions.Percent

/-! ## Percent encoding

A query keeps letters, digits and `_.-~`, writes a space as `+` and every other
octet of the UTF-8 form as `%` with two uppercase hexadecimal digits. -/

def isUnreserved (c : Char) : Bool := c.isAlphanum || c = '_' || c = '.' || c = '-' || c = '~'

def upperDigit (n : Nat) : Char := if n < 10 then Char.ofNat (48 + n) else Char.ofNat (55 + n)

def encodeOctet (b : UInt8) : List Char :=
  let c := Char.ofNat b.toNat
  if b.toNat < 0x80 ∧ isUnreserved c then [c]
  else if c = ' ' then ['+']
  else ['%', upperDigit (b.toNat / 16), upperDigit (b.toNat % 16)]

def encode (cs : List Char) : List Char := (Utf8.encode cs).flatMap encodeOctet

/-- The pairs of a query, each name and value encoded. -/
def query (pairs : List (String × String)) : String :=
  "&".intercalate (pairs.map fun p =>
    String.ofList (encode p.1.toList ++ '=' :: encode p.2.toList))

/-! ## Decoding -/

/-- The octets of an encoded text; a `%` without two digits behind it stands for itself. -/
def octets : List Char → Bytes
  | '%' :: a :: b :: rest =>
    match Hex.digitValue? a, Hex.digitValue? b with
    | some hi, some lo => UInt8.ofNat (16 * hi + lo) :: octets rest
    | _, _ => 0x25 :: octets (a :: b :: rest)
  | c :: rest => Utf8.encodeChar c ++ octets rest
  | [] => []

/-- The text of octets; what is not UTF-8 is replaced. -/
def lossyText (bs : Bytes) : List Char := (Utf8.decode? bs).getD (Utf8.lossy none bs)

def decode (cs : List Char) : List Char := lossyText (octets cs)

end DefiActions.Percent
