namespace LispObjects

/-!
# Double-precision floating-point numbers

A number of the IEEE 754 format `binary64`, as its 64 bits: a sign, eleven bits of exponent and 52
bits of fraction. A finite number is `± significand * 2 ^ exponent` (`Binary64.significand`,
`Binary64.exponent`); the number with every exponent bit set is an infinity if its fraction is zero,
and no number otherwise.
-/

/-- A `binary64` number, given by its bits. -/
structure Binary64 where
  /-- Sign, exponent and fraction, from the highest bit to the lowest. -/
  bits : UInt64
  deriving DecidableEq, Repr, Inhabited

namespace Binary64

/-- The magnitude's bits: everything but the sign. -/
def magnitudeBits (x : Binary64) : Nat :=
  x.bits.toNat % Nat.pow 2 63

/-- Whether the sign bit is set; zero has two signs. -/
def isNegative (x : Binary64) : Bool :=
  Nat.pow 2 63 ≤ x.bits.toNat

/-- The exponent field, `2047` for infinities and what is no number. -/
def biasedExponent (x : Binary64) : Nat :=
  x.magnitudeBits / Nat.pow 2 52

/-- The fraction field. -/
def fraction (x : Binary64) : Nat :=
  x.magnitudeBits % Nat.pow 2 52

/-- Neither an infinity nor no number. -/
def isFinite (x : Binary64) : Bool :=
  x.biasedExponent < 2047

/-- No number at all. -/
def isNaN (x : Binary64) : Bool :=
  x.biasedExponent == 2047 && x.fraction != 0

/-- Zero, of either sign. -/
def isZero (x : Binary64) : Bool :=
  x.magnitudeBits == 0

/-- The significand of a finite number. Its leading bit is not stored, except that numbers with a
zero exponent field have none. -/
def significand (x : Binary64) : Nat :=
  if x.biasedExponent = 0 then x.fraction else x.fraction + Nat.pow 2 52

/-- The power of two that the significand of a finite number is scaled by. -/
def exponent (x : Binary64) : Int :=
  if x.biasedExponent = 0 then -1074 else (x.biasedExponent : Int) - 1075

/-- The number with the given sign and magnitude bits. -/
def ofMagnitudeBits (negative : Bool) (magnitude : Nat) : Binary64 :=
  ⟨UInt64.ofNat (magnitude + if negative then Nat.pow 2 63 else 0)⟩

/-- The magnitude bits of an infinity. -/
def infinityBits : Nat :=
  2047 * Nat.pow 2 52

/-- Equality of numbers: what is no number differs from everything, and the two zeros are equal. -/
def numericEq (x y : Binary64) : Bool :=
  !x.isNaN && !y.isNaN && (x == y || (x.isZero && y.isZero))

end Binary64

end LispObjects
