import DefiActions.Address

/-!
# Token amounts

A raw amount counts the least units of a token; its decimal text has as many
digits after the point as the token has decimals. Conversion is exact in both
directions as long as the numerals keep the numeral limit.
-/

namespace DefiActions.Amount

/-- Numbers of decimals from here on are too large for a field of digits. -/
def widthBound : Int := twoPow 63

/-- The digits with a point before the last `decimals` of them. -/
def pointed (digits : List Char) (decimals : Nat) : List Char :=
  if decimals = 0 then digits
  else if digits.length ≤ decimals then
    '0' :: '.' :: List.replicate (decimals - digits.length) '0' ++ digits
  else
    digits.take (digits.length - decimals) ++ '.' :: digits.drop (digits.length - decimals)

/-- The decimal text of a raw amount that is not negative. -/
def format (raw decimals : Int) : Except Failure String :=
  if raw < 0 then refuse (.negativeRawAmount raw)
  else if decimals < 0 then refuse (.negativeDecimals decimals)
  else if !Text.isWritable raw then refuse (.numeralTooLong none)
  else if widthBound ≤ decimals ∧ (Text.intDigits raw).length ≤ decimals then throw .tooLarge
  else .ok (String.ofList (pointed (Text.intDigits raw) decimals.toNat))

/-- The decimal text with a sign in front of a negative amount. -/
def formatSigned (raw decimals : Int) : Except Failure String :=
  if raw < 0 then (format (-raw) decimals).map ("-" ++ ·) else format raw decimals

/-- The digits before and after the point of a plain decimal text. -/
def parts? (cs : List Char) : Option (List Char × List Char) :=
  let whole := cs.takeWhile Text.isDigit
  match cs.dropWhile Text.isDigit with
  | [] => if whole = [] then none else some (whole, [])
  | '.' :: fraction =>
    if fraction.all Text.isDigit ∧ ¬ (whole = [] ∧ fraction = []) then some (whole, fraction) else none
  | _ => none

def digitValues (cs : List Char) : List Nat := cs.filterMap Text.digitValue?

/-- The whole digits and exactly `decimals` digits of the fraction, cut or filled with zeros. -/
def scaledDigits (whole fraction : List Char) (decimals : Nat) : List Nat :=
  let kept := digitValues (fraction.take decimals)
  (if whole = [] then [0] else digitValues whole) ++ kept ++ List.replicate (decimals - kept.length) 0

/-- The raw amount of a decimal text; digits past the last decimal are dropped. -/
def parse (value : String) (decimals : Int) : Except Failure Nat :=
  if decimals < 0 then refuse (.negativeDecimals decimals)
  else
    match parts? (Text.trim value) with
    | none => refuse (.notDecimal value)
    | some (whole, fraction) =>
      let size := max whole.length 1 + decimals.toNat
      if widthBound ≤ decimals then throw .tooLarge
      else if size > Text.numeralLimit then refuse (.numeralTooLong (some size))
      else .ok (Text.ofDigits 10 (scaledDigits whole fraction decimals.toNat))

/-! ## Amounts of an asset -/

structure AssetAmount where
  address : String
  raw : Nat
  decimals : Nat
  deriving DecidableEq, Repr

namespace AssetAmount

def make (address : String) (raw decimals : Int) : Except Failure AssetAmount :=
  if raw < 0 then refuse (.negativeRawAmount raw)
  else if decimals < 0 then refuse (.negativeDecimals decimals)
  else .ok ⟨Address.normalize address, raw.toNat, decimals.toNat⟩

def ofDecimal (address value : String) (decimals : Int) : Except Failure AssetAmount := do
  make address (← parse value decimals) decimals

def formatted (a : AssetAmount) : Except Failure String := format a.raw a.decimals

end AssetAmount

end DefiActions.Amount
