namespace LispObjects

/-!
# Decimal numbers of any size

A `Decimal` is `mantissa * 10 ^ (-scale)`. The mantissa of a number with places after the point does
not end in a zero, so every value has one representation and equality of numbers is equality of
values. Sums, differences and products are exact; a quotient is rounded to a given number of places,
a half away from zero.

A mantissa has any size, and a scale is a number of 32 bits. Where a count of places is computed and
does not fit, it wraps around, and if arithmetic is checked the computation stops there: `div?` is
what comes of it in the one case, and `quotientOverflows` tells where it is the other. The scales of
products are taken to fit.
-/

/-- A decimal number in lowest terms: without zeros at the end of its places. -/
structure Decimal where
  /-- The digits, with the number's sign. -/
  mantissa : Int
  /-- How many of the digits stand after the point. -/
  scale : Nat
  /-- The places do not end in a zero. -/
  canonical : scale = 0 ∨ mantissa % 10 ≠ 0
  deriving DecidableEq

namespace Decimal

/-- How many scales there are. -/
def scaleBound : Nat := Nat.pow 2 32

/-- A whole number. -/
def ofInt (n : Int) : Decimal :=
  ⟨n, 0, .inl rfl⟩

instance : IntCast Decimal := ⟨ofInt⟩

instance : Inhabited Decimal := ⟨ofInt 0⟩

/-- Drops zeros from the end of the places. -/
def dropZeros (mantissa : Int) : Nat → Decimal
  | 0 => ofInt mantissa
  | scale + 1 =>
    if h : mantissa % 10 = 0 then dropZeros (mantissa / 10) scale
    else ⟨mantissa, scale + 1, .inr h⟩

/-- The number `mantissa * 10 ^ (-scale)`. -/
def ofScaled (mantissa : Int) (scale : Nat) : Decimal :=
  if mantissa = 0 then ofInt 0 else dropZeros mantissa scale

/-- The number `mantissa * 10 ^ power`. -/
def ofPower (mantissa : Int) (power : Int) : Decimal :=
  if 0 ≤ power then ofInt (mantissa * Int.pow 10 power.toNat)
  else ofScaled mantissa (-power).toNat

/-- Whether the number is zero. -/
def isZero (a : Decimal) : Bool :=
  a.mantissa == 0

/-- Whether the number is below zero. -/
def isNegative (a : Decimal) : Bool :=
  a.mantissa < 0

/-! ### Arithmetic -/

/-- The mantissa of the number written with `scale` places, at least as many as its own. -/
def mantissaAt (a : Decimal) (scale : Nat) : Int :=
  a.mantissa * Int.pow 10 (scale - a.scale)

/-- The exact sum. -/
def add (a b : Decimal) : Decimal :=
  let scale := max a.scale b.scale
  ofScaled (a.mantissaAt scale + b.mantissaAt scale) scale

/-- The exact difference. -/
def sub (a b : Decimal) : Decimal :=
  let scale := max a.scale b.scale
  ofScaled (a.mantissaAt scale - b.mantissaAt scale) scale

/-- The exact product. -/
def mul (a b : Decimal) : Decimal :=
  ofScaled (a.mantissa * b.mantissa) (a.scale + b.scale)

/-- The number with the other sign. -/
def neg (a : Decimal) : Decimal :=
  ⟨-a.mantissa, a.scale, a.canonical.imp_right (by omega)⟩

instance : Add Decimal := ⟨add⟩
instance : Sub Decimal := ⟨sub⟩
instance : Mul Decimal := ⟨mul⟩
instance : Neg Decimal := ⟨neg⟩

/-- A quotient of integers rounded to the nearest integer, a half away from zero: the one nearer to
zero, or the next one away from it if the remainder is at least half of the divisor. -/
def roundHalfAway (num den : Int) : Int :=
  let quotient := num.tdiv den
  let remainder := num.tmod den
  if den.natAbs ≤ remainder.natAbs * 2 then
    if decide (num < 0) != decide (den < 0) then quotient - 1 else quotient + 1
  else quotient

/-- The quotient rounded to `places` places, a half away from zero; none if `b` is zero. -/
def div? (a b : Decimal) (places : Nat) : Option Decimal :=
  if b.isZero then none
  else
    let shift := (b.scale + places) % scaleBound
    some (ofScaled
      (roundHalfAway (a.mantissa * Int.pow 10 shift) (b.mantissa * Int.pow 10 a.scale)) places)

/-- Whether the places that a dividend is given for the quotient are too many to be counted. -/
def quotientOverflows (b : Decimal) (places : Nat) : Bool :=
  !b.isZero && scaleBound ≤ b.scale + places

/-! ### Order and whole part -/

/-- Numbers are ordered by value: by their mantissas at a common scale. -/
instance : Ord Decimal where
  compare a b :=
    let scale := max a.scale b.scale
    compare (a.mantissaAt scale) (b.mantissaAt scale)

/-- The number without its places: rounded toward zero. -/
def truncate (a : Decimal) : Int :=
  a.mantissa.tdiv (Int.pow 10 a.scale)

/-- The number rounded toward zero, and taken to the nearer bound if it does not fit. -/
def toInt64 (a : Decimal) : Int64 :=
  Int64.ofIntClamp a.truncate

end Decimal

end LispObjects
