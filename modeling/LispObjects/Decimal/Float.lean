import LispObjects.Binary64.Shortest
import LispObjects.Decimal.Printer

namespace LispObjects

/-!
# Decimals and double precision

A finite `binary64` number becomes the decimal with the fewest digits that reads back as it, and a
decimal becomes the nearest `binary64` number. The plain text of a `binary64` number is that of its
shortest decimal, with the sign of a zero kept.
-/

/-- The decimal with the fewest digits that rounds to the number, the nearest of those, the even one
of two equally near; none for infinities and what is no number. Both zeros become zero. -/
def Decimal.ofBinary64? (x : Binary64) : Option Decimal :=
  if x.isFinite then
    let (digits, power) := x.shortest .toEven
    some (.ofPower (if x.isNegative then -digits else digits) power)
  else none

/-- The nearest `binary64` number, a tie going to the even one. Too large a number becomes infinite,
and a negative number too small to be told from zero becomes the negative zero. -/
def Decimal.toBinary64 (a : Decimal) : Binary64 :=
  .ofScaled a.isNegative a.mantissa.natAbs (-a.scale)

/-- A `binary64` number in plain notation with the fewest digits, of two equally near decimals the
larger magnitude. -/
def Binary64.toPlain (x : Binary64) : String :=
  let sign := if x.isNegative then "-" else ""
  if x.isNaN then "NaN"
  else if x.isFinite then
    let (digits, power) := x.shortest .up
    sign ++ toString (Decimal.ofPower digits power)
  else sign ++ "inf"

end LispObjects
