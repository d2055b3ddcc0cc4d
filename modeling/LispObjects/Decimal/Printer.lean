import LispObjects.Decimal.Basic

namespace LispObjects.Decimal

/-!
# The text of a decimal number

Plain notation: a minus sign for numbers below zero, the whole part without leading zeros, and, for a
number with places, a point and exactly its places. There is never an exponent.
-/

/-- The digits with a point before the last `scale` of them, padded with zeros to at least one digit
before the point. -/
def placePoint (digits : List Char) (scale : Nat) : List Char :=
  if scale = 0 then digits
  else if scale < digits.length then
    let whole := digits.length - scale
    digits.take whole ++ '.' :: digits.drop whole
  else '0' :: '.' :: (List.replicate (scale - digits.length) '0' ++ digits)

/-- The number in plain notation. -/
def toChars (a : Decimal) : List Char :=
  let text := placePoint (Nat.toDigits 10 a.mantissa.natAbs) a.scale
  if a.isNegative then '-' :: text else text

instance : ToString Decimal := ⟨fun a => String.ofList a.toChars⟩

end LispObjects.Decimal
