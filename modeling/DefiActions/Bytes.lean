/-!
# Byte strings

Octets as numbers and as words, their hexadecimal text, and the octets of a text
in UTF-8.
-/

namespace DefiActions

/-! ## Powers

The powers that bound numerals, words and floating point numbers. -/

/-- The number of values of `n` binary digits. -/
def twoPow (n : Nat) : Nat := Nat.pow 2 n

/-- The number of values of `n` decimal digits. -/
def tenPow (n : Nat) : Nat := Nat.pow 10 n

/-! ## Byte strings

A byte string is a list of octets. `ofNat` and `toNat` are the big-endian
reading of a fixed number of octets; `ofInt` and `toInt` the two's complement
one. A word is 32 octets, and `padded` fills a byte string up to whole words. -/

abbrev Bytes := List UInt8

namespace Bytes

/-- The number that the octets write in base 256, most significant first. -/
def toNat (bs : Bytes) : Nat := bs.foldl (fun n b => 256 * n + b.toNat) 0

/-- The last `width` octets of `n` in base 256. -/
def ofNat : (width n : Nat) → Bytes
  | 0, _ => []
  | width + 1, n => ofNat width (n / 256) ++ [UInt8.ofNat (n % 256)]

/-- The number of values of `width` octets. -/
def capacity (width : Nat) : Nat := Nat.pow 256 width

/-- Two's complement in `width` octets. -/
def ofInt (width : Nat) (n : Int) : Bytes := ofNat width (n % capacity width).toNat

def toInt (bs : Bytes) : Int :=
  if 2 * toNat bs < capacity bs.length then toNat bs else (toNat bs : Int) - capacity bs.length

@[simp] theorem length_ofNat (width n : Nat) : (ofNat width n).length = width := by
  induction width generalizing n with
  | zero => rfl
  | succ width ih => simp [ofNat, ih]

@[simp] theorem length_ofInt (width : Nat) (n : Int) : (ofInt width n).length = width :=
  length_ofNat _ _

/-! ## Words -/

def wordSize : Nat := 32

/-- The least whole number of words that holds `n` octets, in octets. -/
def ceilWord (n : Nat) : Nat := (n + 31) / 32 * 32

def zeros (n : Nat) : Bytes := List.replicate n 0

/-- Filled on the right with zero octets to whole words. -/
def padded (bs : Bytes) : Bytes := bs ++ zeros (ceilWord bs.length - bs.length)

def word (n : Nat) : Bytes := ofNat wordSize n

end Bytes

end DefiActions

namespace DefiActions.Hex

/-! ## Hexadecimal text of byte strings

`Hex.ofBytes` writes two lowercase digits an octet. `Hex.toBytes?` reads pairs
of digits in either case, with blanks allowed between pairs but not inside one,
and otherwise tells the position of the first character that does not fit. -/

def digit (n : Nat) : Char := if n < 10 then Char.ofNat (48 + n) else Char.ofNat (87 + n)

/-- The value of an ASCII hexadecimal digit of either case. -/
def digitValue? (c : Char) : Option Nat :=
  if '0' ≤ c ∧ c ≤ '9' then some (c.toNat - 48)
  else if 'a' ≤ c ∧ c ≤ 'f' then some (c.toNat - 87)
  else if 'A' ≤ c ∧ c ≤ 'F' then some (c.toNat - 55)
  else none

def isDigit (c : Char) : Bool := (digitValue? c).isSome

def octet (b : UInt8) : List Char := [digit (b.toNat / 16), digit (b.toNat % 16)]

def ofBytes (bs : Bytes) : List Char := bs.flatMap octet

/-- Lowercase digits without a leading mark. -/
def text (bs : Bytes) : String := String.ofList (ofBytes bs)

/-- Lowercase digits after `0x`. -/
def literal (bs : Bytes) : String := "0x" ++ text bs

/-- The ASCII blanks that may stand between two pairs. -/
def isGap (c : Char) : Bool := c == ' ' || ('\t' ≤ c && c ≤ '\r')

/-- Pairs of digits from position `pos` on, or the first position that does not fit. -/
def pairs (pos : Nat) : List Char → Except Nat Bytes
  | [] => .ok []
  | c :: rest =>
    if isGap c then pairs (pos + 1) rest
    else match digitValue? c, rest with
      | none, _ => .error pos
      | some _, [] => .error (pos + 1)
      | some hi, d :: rest' =>
        match digitValue? d with
        | none => .error (pos + 1)
        | some lo => (pairs (pos + 2) rest').map (UInt8.ofNat (16 * hi + lo) :: ·)

/-- Characters outside ASCII are looked for first: the first of them is what does not fit. -/
def toBytes? (cs : List Char) : Except Nat Bytes :=
  match cs.findIdx? (128 ≤ ·.toNat) with
  | some pos => .error pos
  | none => pairs 0 cs

/-- The digits after a leading `0x` or `0X`, or all of the text. -/
def dropMark : List Char → List Char
  | '0' :: 'x' :: rest => rest
  | '0' :: 'X' :: rest => rest
  | cs => cs

end DefiActions.Hex

namespace DefiActions.Utf8

/-! ## UTF-8

`Utf8.encode` writes one to four octets a character. `Utf8.decode?` is strict:
overlong forms, surrogates, values past the last character and cut sequences
are all refused. -/

/-- A continuation octet: the low six bits of `n`. -/
def tail (n : Nat) : UInt8 := UInt8.ofNat (0x80 + n % 64)

def encodeChar (c : Char) : Bytes :=
  let n := c.toNat
  if n < 0x80 then [UInt8.ofNat n]
  else if n < 0x800 then [UInt8.ofNat (0xC0 + n / 64), tail n]
  else if n < 0x10000 then [UInt8.ofNat (0xE0 + n / 4096), tail (n / 64), tail n]
  else [UInt8.ofNat (0xF0 + n / 262144), tail (n / 4096), tail (n / 64), tail n]

def encode (cs : List Char) : Bytes := cs.flatMap encodeChar

def tailValue? (b : UInt8) : Option Nat :=
  if 0x80 ≤ b.toNat ∧ b.toNat < 0xC0 then some (b.toNat - 0x80) else none

/-- The character `n`, if it needs at least the octets that were used for it. -/
def scalar? (least n : Nat) : Option Char :=
  if h : n.isValidChar then if least ≤ n then some ⟨UInt32.ofNat n, by
    have hlt : n < UInt32.size := by
      rcases h with h | h
      · exact Nat.lt_trans h (by decide)
      · exact Nat.lt_trans h.2 (by decide)
    simpa [UInt32.isValidChar, UInt32.toNat_ofNat_of_lt' hlt] using h⟩ else none else none

def decode? : Bytes → Option (List Char)
  | [] => some []
  | a :: rest =>
    if a.toNat < 0x80 then do
      let c ← scalar? 0 a.toNat
      (decode? rest).map (c :: ·)
    else if a.toNat < 0xC0 then none
    else if a.toNat < 0xE0 then
      match rest with
      | b :: rest => do
        let c ← scalar? 0x80 ((a.toNat - 0xC0) * 64 + (← tailValue? b))
        (decode? rest).map (c :: ·)
      | _ => none
    else if a.toNat < 0xF0 then
      match rest with
      | b :: d :: rest => do
        let c ← scalar? 0x800 ((a.toNat - 0xE0) * 4096 + (← tailValue? b) * 64 + (← tailValue? d))
        (decode? rest).map (c :: ·)
      | _ => none
    else if a.toNat < 0xF8 then
      match rest with
      | b :: d :: e :: rest => do
        let c ← scalar? 0x10000 ((a.toNat - 0xF0) * 262144 + (← tailValue? b) * 4096
          + (← tailValue? d) * 64 + (← tailValue? e))
        (decode? rest).map (c :: ·)
      | _ => none
    else none

/-! ## Reading with replacement -/

/-- A sequence that has begun: the bits read so far, the octets still to come, and the range of the
next one. -/
structure Pending where
  bits : Nat
  left : Nat
  least : Nat
  greatest : Nat

def replacement : Char := '\uFFFD'

/-- The character of an octet at the start of a sequence, or the sequence that it begins. -/
def start (b : UInt8) : List Char × Option Pending :=
  let n := b.toNat
  if n < 0x80 then ([Char.ofNat n], none)
  else if 0xC2 ≤ n ∧ n < 0xE0 then ([], some ⟨n - 0xC0, 1, 0x80, 0xBF⟩)
  else if 0xE0 ≤ n ∧ n < 0xF0 then
    ([], some ⟨n - 0xE0, 2, if n = 0xE0 then 0xA0 else 0x80, if n = 0xED then 0x9F else 0xBF⟩)
  else if 0xF0 ≤ n ∧ n < 0xF5 then
    ([], some ⟨n - 0xF0, 3, if n = 0xF0 then 0x90 else 0x80, if n = 0xF4 then 0x8F else 0xBF⟩)
  else ([replacement], none)

/-- Reads any octets; a sequence that breaks off is replaced as a whole. -/
def lossy : Option Pending → Bytes → List Char
  | none, [] => []
  | some _, [] => [replacement]
  | none, b :: rest => (start b).1 ++ lossy (start b).2 rest
  | some p, b :: rest =>
    if p.least ≤ b.toNat ∧ b.toNat ≤ p.greatest then
      let bits := p.bits * 64 + (b.toNat - 0x80)
      if p.left ≤ 1 then Char.ofNat bits :: lossy none rest
      else lossy (some ⟨bits, p.left - 1, 0x80, 0xBF⟩) rest
    else replacement :: (start b).1 ++ lossy (start b).2 rest

/-! ## Texts -/

def text? (bs : Bytes) : Option String := (decode? bs).map String.ofList

def ofText (s : String) : Bytes := encode s.toList

end DefiActions.Utf8
