import DefiActions.Collaborator
import DefiActions.Tick

/-!
# Price limits of swaps

A swap stops at a limit just past the current price, on the side the price moves
to. Falling prices are kept above the least ratio; a price that cannot rise
below the greatest one is an error.
-/

namespace DefiActions.PriceLimit

structure Bounds where
  least : Int := Tick.leastRatio
  greatest : Int := Tick.greatestRatio
  deriving DecidableEq, Repr

/-- The limit for a swap from a price. -/
def after (bounds : Bounds) (price : Int) (zeroForOne : Bool) : Except Failure Int :=
  if price = 0 then fail (.poolUninitialized none)
  else if zeroForOne then .ok (max (price - 1) (bounds.least + 1))
  else if bounds.greatest ≤ price + 1 then fail (.priceAtBound price zeroForOne)
  else .ok (price + 1)

/-- The limit that never stops a swap, for pools whose price cannot be read. -/
def widest (bounds : Bounds) (zeroForOne : Bool) : Int :=
  if zeroForOne then bounds.least + 1 else bounds.greatest - 1

/-- The widest limit, which is reported because it stops no swap. -/
def fallback (bounds : Bounds) (zeroForOne : Bool) : Run Int := do
  Run.report .warning "sqrt_price_limit_fallback"
  return widest bounds zeroForOne

end DefiActions.PriceLimit
