import DefiActions.Bytes
import DefiActions.Text.Character
import DefiActions.Text.Numeral

/-!
# Floating point numbers and their decimal texts

Binary floating point numbers, how one is read from decimal text, and the
shortest text that reads back as it.
-/

namespace DefiActions

/-! ## Binary floating point numbers

A finite number is a sign, a significand below 2^53 and an exponent from -1074
to 971; it is canonical when its significand has 53 bits or its exponent is
least. Every operation takes the exact rational result and rounds it once, to
the nearest number and to the even one of two equally near. -/

inductive Binary64
  | nan
  | infinite (negative : Bool)
  | finite (negative : Bool) (significand : Nat) (exponent : Int)
  deriving DecidableEq, Repr, Inhabited

namespace Binary64

def leastExponent : Int := -1074

def greatestExponent : Int := 971

def zero : Binary64 := finite false 0 leastExponent

/-- The quotient rounded to the nearest whole number, a tie to the even one. -/
def roundQuotient (num den : Nat) : Nat :=
  let q := num / den
  let r := num % den
  if 2 * r < den then q else if den < 2 * r then q + 1 else q + q % 2

/-- `num / den` divided by `2 ^ e`, as a quotient of whole numbers. -/
def scaled (num den : Nat) (e : Int) : Nat × Nat :=
  if 0 ≤ e then (num, den * twoPow e.toNat) else (num * twoPow (-e).toNat, den)

/-- The exponent at which the whole part of the quotient has 53 bits, if it is not too small. -/
def exponentFor (num den : Nat) : Int :=
  let e : Int := (num.log2 : Int) - den.log2 - 53
  let (n, d) := scaled num den e
  max leastExponent (if twoPow 53 ≤ n / d then e + 1 else e)

/-- The number nearest to `num / den`. -/
def ofRatio (negative : Bool) (num den : Nat) : Binary64 :=
  if num = 0 then finite negative 0 leastExponent
  else
    let e := exponentFor num den
    let (n, d) := scaled num den e
    let m := roundQuotient n d
    let (m, e) := if m = twoPow 53 then (twoPow 52, e + 1) else (m, e)
    if greatestExponent < e then infinite negative else finite negative m e

/-- The number nearest to `digits · 10 ^ e`. Exponents far out of range are settled by size. -/
def ofDecimal (negative : Bool) (digits : Nat) (e : Int) : Binary64 :=
  let size := (Nat.toDigits 10 digits).length
  if digits = 0 then finite negative 0 leastExponent
  else if 400 < size + e then infinite negative
  else if size + e < -400 then finite negative 0 leastExponent
  else if 0 ≤ e then ofRatio negative (digits * tenPow e.toNat) 1
  else ofRatio negative digits (tenPow (-e).toNat)

/-- The number nearest to `n`, unless that is out of range. -/
def ofInt? (n : Int) : Option Binary64 :=
  match ofRatio (n < 0) n.natAbs 1 with
  | finite s m e => some (finite s m e)
  | _ => none

def divNat (x : Binary64) (k : Nat) : Binary64 :=
  match x with
  | finite s m e =>
    if 0 ≤ e then ofRatio s (m * twoPow e.toNat) k else ofRatio s m (twoPow (-e).toNat * k)
  | x => x

def isFinite : Binary64 → Bool
  | finite .. => true
  | _ => false

def isZero : Binary64 → Bool
  | finite _ m _ => m == 0
  | _ => false

def signed (negative : Bool) (n : Nat) : Int := if negative then -(n : Int) else n

/-- The whole part of a finite number, toward zero. -/
def truncate? : Binary64 → Option Int
  | finite s m e => some (signed s (if 0 ≤ e then m * twoPow e.toNat else m / twoPow (-e).toNat))
  | _ => none

/-- The value, if it is a whole number. -/
def whole? : Binary64 → Option Int
  | finite s m e =>
    if 0 ≤ e then some (signed s (m * twoPow e.toNat))
    else if m % twoPow (-e).toNat = 0 then some (signed s (m / twoPow (-e).toNat)) else none
  | _ => none

end Binary64

end DefiActions

namespace DefiActions.Decimal

/-! ## Reading decimal text

The forms are an optional sign, digits with at most one point among or beside
them, and an optional exponent; or, in any letter case, `inf`, `infinity` and
`nan`. Digits are ASCII. -/

def isAsciiDigit (c : Char) : Bool := '0' ≤ c && c ≤ '9'

def digitsValue (cs : List Char) : Nat := Text.ofDigits 10 (cs.map (·.toNat - 48))

/-- The signed number of an exponent, the mark already taken off. -/
def exponent? (cs : List Char) : Option Int :=
  let (negative, ds) :=
    match cs with
    | '-' :: ds => (true, ds)
    | '+' :: ds => (false, ds)
    | ds => (false, ds)
  if ds = [] ∨ ds.any (!isAsciiDigit ·) then none
  else some (if negative then -(digitsValue ds : Int) else digitsValue ds)

/-- Digits, a point, an exponent. -/
def unsigned? (negative : Bool) (cs : List Char) : Option Binary64 :=
  let whole := cs.takeWhile isAsciiDigit
  let rest := cs.dropWhile isAsciiDigit
  let (fraction, rest) :=
    match rest with
    | '.' :: rest => (rest.takeWhile isAsciiDigit, rest.dropWhile isAsciiDigit)
    | rest => ([], rest)
  if whole = [] ∧ fraction = [] then none
  else do
    let e ←
      match rest with
      | [] => some 0
      | c :: rest => if c = 'e' ∨ c = 'E' then exponent? rest else none
    some (Binary64.ofDecimal negative (digitsValue (whole ++ fraction)) (e - fraction.length))

def asciiLower (c : Char) : Char := if 'A' ≤ c ∧ c ≤ 'Z' then Char.ofNat (c.toNat + 32) else c

def special? (negative : Bool) (cs : List Char) : Option Binary64 :=
  let word := String.ofList (cs.map asciiLower)
  if word = "inf" ∨ word = "infinity" then some (.infinite negative)
  else if word = "nan" then some .nan
  else none

def read? (cs : List Char) : Option Binary64 :=
  let (negative, body) :=
    match cs with
    | '-' :: body => (true, body)
    | '+' :: body => (false, body)
    | body => (false, body)
  (special? negative body).or (unsigned? negative body)

end DefiActions.Decimal

namespace DefiActions.Binary64

/-! ## Shortest decimal text

A number is written with the fewest decimal digits that read back as the same
number, and of those the nearest to it. Texts are positional from 1e-4 up to
1e16, with `.0` after whole numbers, and scientific otherwise, with a sign and
at least two digits in the exponent. -/

/-- A point `digits · 10 ^ exponent` of a decimal grid. -/
structure GridPoint where
  digits : Nat
  exponent : Int
  deriving DecidableEq, Repr

/-- `x · 2 ^ s` and `d · 10 ^ t` brought to a common scale. -/
def commonScale (x : Nat) (s : Int) (d : Nat) (t : Int) : Nat × Nat :=
  (x * twoPow s.toNat * tenPow (-t).toNat, d * tenPow t.toNat * twoPow (-s).toNat)

/-- The decimal exponent of the value: `10 ^ (k - 1) ≤ m · 2 ^ e < 10 ^ k`. -/
def decimalExponent (m : Nat) (e : Int) : Int :=
  let n := m * tenPow 400 * twoPow e.toNat / twoPow (-e).toNat
  ((Nat.toDigits 10 n).length : Int) - 400

/-- Whether the grid point reads back as `m · 2 ^ e`: it lies no further out than the midpoints to
the neighbours, which count only for even `m`. -/
def readsBack (m : Nat) (e : Int) (p : GridPoint) : Bool :=
  let below := if m = twoPow 52 ∧ leastExponent < e then 4 * m - 1 else 4 * m - 2
  let (lo, at₁) := commonScale below (e - 2) p.digits p.exponent
  let (hi, at₂) := commonScale (4 * m + 2) (e - 2) p.digits p.exponent
  if m % 2 = 0 then lo ≤ at₁ && at₂ ≤ hi else lo < at₁ && at₂ < hi

/-- The neighbours of `m · 2 ^ e` on the grid of spacing `10 ^ t`, the nearer one first. -/
def gridNeighbours (m : Nat) (e t : Int) : List GridPoint :=
  let (v, unit) := commonScale m e 1 t
  let d := v / unit
  let low : GridPoint := ⟨d, t⟩
  let high : GridPoint := ⟨d + 1, t⟩
  let r := v % unit
  if 2 * r < unit ∨ (2 * r = unit ∧ d % 2 = 0) then [low, high] else [high, low]

/-- The first grid, from coarse to fine, with a neighbour that reads back. -/
def shortestFrom (m : Nat) (e k : Int) : (tries : Nat) → GridPoint
  | 0 => ⟨0, 0⟩
  | tries + 1 =>
    match (gridNeighbours m e (k - (17 - tries))).find? (readsBack m e) with
    | some p => p
    | none => shortestFrom m e k tries

/-- Seventeen digits always suffice. -/
def shortest (m : Nat) (e : Int) : GridPoint := shortestFrom m e (decimalExponent m e) 17

/-- Digits without zeros at the end, and the decimal exponent of the point before them. -/
def GridPoint.spread (p : GridPoint) : List Char × Int :=
  let ds := Text.natDigits p.digits
  (Text.dropRightWhile (· = '0') ds, ds.length + p.exponent)

def exponentText (x : Int) : List Char :=
  let ds := Text.natDigits x.natAbs
  (if x < 0 then '-' else '+') :: (if ds.length < 2 then '0' :: ds else ds)

/-- The text of `0.ds · 10 ^ k`. -/
def layout (ds : List Char) (k : Int) : List Char :=
  if k ≤ -4 ∨ 16 < k then
    let tail := ds.drop 1
    ds.take 1 ++ (if tail = [] then [] else '.' :: tail) ++ 'e' :: exponentText (k - 1)
  else if k ≤ 0 then '0' :: '.' :: List.replicate (-k).toNat '0' ++ ds
  else if ds.length ≤ k then ds ++ List.replicate (k.toNat - ds.length) '0' ++ ['.', '0']
  else ds.take k.toNat ++ '.' :: ds.drop k.toNat

def digitsText (x : Binary64) : List Char :=
  match x with
  | nan => "nan".toList
  | infinite negative => (if negative then "-inf" else "inf").toList
  | finite negative m e =>
    let body :=
      if m = 0 then "0.0".toList
      else
        let (ds, k) := (shortest m e).spread
        layout ds k
    if negative then '-' :: body else body

/-- The shortest text that reads back as `x`. -/
def text (x : Binary64) : String := String.ofList (digitsText x)

end DefiActions.Binary64
