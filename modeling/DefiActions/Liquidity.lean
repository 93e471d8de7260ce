import DefiActions.Tick

/-!
# Sizing concentrated liquidity

A position spreads its liquidity over a range of square root prices. Below the
range it holds token 0 only, above it token 1 only, and inside it both. All
numbers are whole; quotients round down.
-/

namespace DefiActions.Liquidity

/-- How the liquidity of an amount of token 0 is computed: from the full product, or with one
division by the unit before the last. -/
inductive Precision
  | full
  | early
  deriving DecidableEq, Repr

/-- The bounds in ascending order. -/
def ordered (a b : Int) : Except Failure (Int × Int) :=
  if b < a then .ok (b, a)
  else if a = b then refuse .equalBounds
  else .ok (a, b)

/-- The quotient rounded down. -/
def quotient (num den : Int) : Except Failure Int :=
  if den = 0 then throw .divisionByZero else .ok (num.fdiv den)

/-- The liquidity that an amount of token 0 supplies between two prices. -/
def forAmount0 (a b amount : Int) (precision : Precision) : Except Failure Int := do
  let (a, b) ← ordered a b
  match precision with
  | .full => quotient (amount * a * b) (Tick.unit * (b - a))
  | .early => quotient (amount * (a * b).fdiv Tick.unit) (b - a)

/-- The liquidity that an amount of token 1 supplies between two prices. -/
def forAmount1 (a b amount : Int) : Except Failure Int := do
  let (a, b) ← ordered a b
  quotient (amount * Tick.unit) (b - a)

def maxForRatios (price a b amount0 amount1 : Int) (precision : Precision) : Except Failure Int :=
  if price ≤ 0 then refuse (.nonPositivePrice price)
  else if amount0 < 0 ∨ amount1 < 0 then refuse .negativeAmount
  else do
    let (a, b) ← ordered a b
    if price ≤ a then forAmount0 a b amount0 precision
    else if price < b then
      let liquidity0 ← forAmount0 price b amount0 precision
      let liquidity1 ← forAmount1 a price amount1
      return min liquidity0 liquidity1
    else forAmount1 a b amount1

/-- The same for a range of ticks. -/
def maxForTicks (lower upper price amount0 amount1 : Int) (precision : Precision) :
    Except Failure Int := do
  let a ← Tick.sqrtRatio lower
  let b ← Tick.sqrtRatio upper
  maxForRatios price a b amount0 amount1 precision

/-! ## The amounts of a position -/

def amount0 (a b liquidity : Int) : Except Failure Int := do
  let (a, b) ← ordered a b
  quotient (← quotient (liquidity * Tick.unit * (b - a)) b) a

def amount1 (a b liquidity : Int) : Except Failure Int := do
  let (a, b) ← ordered a b
  return (liquidity * (b - a)).fdiv Tick.unit

def amounts (price a b liquidity : Int) : Except Failure (Int × Int) := do
  let (a, b) ← ordered a b
  if price ≤ a then return (← amount0 a b liquidity, 0)
  else if price < b then return (← amount0 price b liquidity, ← amount1 a price liquidity)
  else return (0, ← amount1 a b liquidity)

end DefiActions.Liquidity
