import DefiActions.Error

/-!
# Ticks and square root prices

A tick `t` stands for the price `1.0001 ^ t`, and its ratio is the square root of
that price as a fixed point number with 96 binary digits after the point. The
ratio is the product of one factor for each binary digit of `|t|`, each rounded
down to 128 binary digits; positive ticks take the reciprocal of that product,
and the last step rounds up.
-/

namespace DefiActions.Tick

def least : Int := -887272

def greatest : Int := 887272

def leastRatio : Int := 4295128739

def greatestRatio : Int := 1461446703485210103287273052203988822378723970342

/-- One, in the fixed point of ratios. -/
def unit : Int := twoPow 96

/-- The factor of the last binary digit, with 128 binary digits after the point. -/
def oddFactor : Nat := 0xFFFCB933BD6FAD37AA2D162D1A594001

/-- The factors of the binary digits 1 to 19. -/
def factors : List Nat :=
  [0xFFF97272373D413259A46990580E213A, 0xFFF2E50F5F656932EF12357CF3C7FDCC,
    0xFFE5CACA7E10E4E61C3624EAA0941CD0, 0xFFCB9843D60F6159C9DB58835C926644,
    0xFF973B41FA98C081472E6896DFB254C0, 0xFF2EA16466C96A3843EC78B326B52861,
    0xFE5DEE046A99A2A811C461F1969C3053, 0xFCBE86C7900A88AEDCFFC83B479AA3A4,
    0xF987A7253AC413176F2B074CF7815E54, 0xF3392B0822B70005940C7A398E4B70F3,
    0xE7159475A2C29B7443B29C7FA6E889D9, 0xD097F3BDFD2022B8845AD8F792AA5825,
    0xA9F746462D870FDF8A65DC1F90E061E5, 0x70D869A156D2A1B890BB3DF62BAF32F7,
    0x31BE135F97D08FD981231505542FCFA6, 0x9AA508B5B7A84E1C677DE54F3E99BC9,
    0x5D6AF8DEDB81196699C329225EE604, 0x2216E584F5FA1EA926041BEDFE98, 0x48A170391F7DC42444E8FA2]

/-- Multiplies the factors of the binary digits of `n` that are set. -/
def multiply : (factors : List Nat) → (n ratio : Nat) → Nat
  | [], _, ratio => ratio
  | f :: fs, n, ratio => multiply fs (n / 2) (if n % 2 = 1 then ratio * f / twoPow 128 else ratio)

/-- The ratio of `-n`, with 128 binary digits after the point. -/
def product (n : Nat) : Nat :=
  multiply factors (n / 2) (if n % 2 = 1 then oddFactor else twoPow 128)

/-- From 128 to 96 binary digits after the point, rounded up. -/
def roundUp (ratio : Nat) : Nat := ratio / twoPow 32 + (if ratio % twoPow 32 = 0 then 0 else 1)

def ratio (t : Int) : Nat :=
  let r := product t.natAbs
  roundUp (if 0 < t then (twoPow 256 - 1) / r else r)

/-- The ratio of a tick, which is refused out of bounds. -/
def sqrtRatio (t : Int) : Except Failure Int :=
  if greatest < t.natAbs then refuse (.tickOutside t) else .ok (ratio t)

/-- The multiple of the spacing nearest to the tick, the upper one of two equally near. A multiple
past a bound moves one step inwards. -/
def nearestUsable (t spacing : Int) : Except Failure Int :=
  if spacing ≤ 0 then refuse (.nonPositiveSpacing spacing)
  else
    let rounded := (2 * t + spacing).fdiv (2 * spacing) * spacing
    .ok (if rounded < least then rounded + spacing
      else if greatest < rounded then rounded - spacing
      else rounded)

/-- Accepts a range of ticks that is ordered, within bounds and aligned to the spacing, if any. -/
def checkRange (lower upper : Int) (spacing : Option Int) : Except Failure Unit :=
  if upper ≤ lower then refuse (.unorderedTicks lower upper)
  else if lower < least ∨ greatest < upper then refuse (.ticksOutside lower upper)
  else
    match spacing with
    | none => .ok ()
    | some spacing =>
      if spacing = 0 then throw .divisionByZero
      else if lower.fmod spacing ≠ 0 ∨ upper.fmod spacing ≠ 0 then
        refuse (.misalignedTicks lower upper spacing)
      else .ok ()

end DefiActions.Tick
