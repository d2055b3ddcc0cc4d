import LispObjects.Binary64.Basic

namespace LispObjects.Binary64

/-!
# Rounding to double precision

`ofRatio` takes an exact quotient of natural numbers to the nearest `binary64` number, a tie to the
one with an even significand; what is too large becomes infinite.

The quotient is written as `m * 2 ^ q` with `q` chosen so that an `m` below `2 ^ 53` has all its
bits, but never below the smallest exponent of the format. The magnitude bits are then
`(q + 1074) * 2 ^ 52 + m`: the leading bit of `m`, where there is one, carries into the exponent
field, and so does a significand that rounding took to `2 ^ 53`.
-/

/-- The quotient of two natural numbers, rounded to nearest with ties to even. -/
def roundQuotient (num den : Nat) : Nat :=
  let quotient := num / den
  let rest := 2 * (num % den)
  if rest < den then quotient
  else if den < rest then quotient + 1
  else quotient + quotient % 2

/-- A power of two at most twice off `num / den`, as its exponent: the quotient is below
`2 ^ (e + 1)` and above `2 ^ (e - 1)`. -/
def roughLog2 (num den : Nat) : Int :=
  (Nat.log2 num : Int) - Nat.log2 den

/-- The exponent of the last place of the number nearest to `num / den`. -/
def placeExponent (num den : Nat) : Int :=
  let e := roughLog2 num den
  -- the quotient lies below `2 ^ e` exactly if its numerator does, once both are integral
  let below := if 0 ≤ e then num < den * Nat.pow 2 e.toNat else num * Nat.pow 2 (-e).toNat < den
  max (-1074) ((if below then e - 1 else e) - 52)

/-- The quotient `num / den` in units of `2 ^ q`, rounded to nearest with ties to even. -/
def roundAt (q : Int) (num den : Nat) : Nat :=
  if 0 ≤ q then roundQuotient num (den * Nat.pow 2 q.toNat)
  else roundQuotient (num * Nat.pow 2 (-q).toNat) den

/-- The magnitude bits of the number nearest to `num / den`. -/
def ratioBits (num den : Nat) : Nat :=
  if num = 0 then 0
  else
    let q := placeExponent num den
    min infinityBits ((q + 1074).toNat * Nat.pow 2 52 + roundAt q num den)

/-- The number nearest to `± num / den` for a positive `den`; a tie goes to the even significand, and
a negative quotient too small to be told from zero to the negative zero. -/
def ofRatio (negative : Bool) (num den : Nat) : Binary64 :=
  ofMagnitudeBits negative (ratioBits num den)

/-- The number nearest to `± digits * 10 ^ power`. -/
def ofScaled (negative : Bool) (digits : Nat) (power : Int) : Binary64 :=
  if 0 ≤ power then ofRatio negative (digits * Nat.pow 10 power.toNat) 1
  else ofRatio negative digits (Nat.pow 10 (-power).toNat)

end LispObjects.Binary64
