import LispObjects.Binary64.Rounding

namespace LispObjects.Binary64

/-!
# The shortest decimal that reads back

`shortest` gives a finite number's magnitude as `digits * 10 ^ power` with as few digits as a
decimal can have that rounds to the number, and the nearest to the number among those.

It looks at ever finer decimal grids, from one digit to seventeen, at the two neighbours that the
number has on the grid. A neighbour is taken only if rounding it gives the number back; of two such
neighbours the nearer wins, and a tie is the caller's choice. Seventeen digits are always enough, so
the exact expansion at the end of the search is there to make the result right by construction.
-/

/-- Which of two equally near decimals is taken. -/
inductive Tie where
  /-- The one whose last digit is even. -/
  | toEven
  /-- The larger one. -/
  | up
  deriving DecidableEq, Repr

/-- The magnitude of a finite number as a quotient of natural numbers. -/
def ratio (x : Binary64) : Nat × Nat :=
  let q := x.exponent
  if 0 ≤ q then (x.significand * Nat.pow 2 q.toNat, 1) else (x.significand, Nat.pow 2 (-q).toNat)

/-- The magnitude of a finite number, exactly, as digits and a power of ten. -/
def expansion (x : Binary64) : Nat × Int :=
  let q := x.exponent
  if 0 ≤ q then (x.significand * Nat.pow 2 q.toNat, 0)
  else (x.significand * Nat.pow 5 (-q).toNat, q)

/-- The exponent of the largest power of ten that is at most `num / den`, both positive. -/
def floorLog10 (num den : Nat) : Int :=
  if den ≤ num then ((Nat.toDigits 10 (num / den)).length : Int) - 1
  else -((Nat.toDigits 10 ((den - 1) / num)).length : Int)

/-- The quotient `num / den` in units of `10 ^ power`, as a quotient again. -/
def inUnits (num den : Nat) (power : Int) : Nat × Nat :=
  if 0 ≤ power then (num, den * Nat.pow 10 power.toNat) else (num * Nat.pow 10 (-power).toNat, den)

/-- Whether `digits * 10 ^ power` rounds to the magnitude of `x`. -/
def readsBack (x : Binary64) (digits : Nat) (power : Int) : Bool :=
  ofScaled x.isNegative digits power == x

/-- The neighbour of `x` on the grid of multiples of `10 ^ power` that reads back as `x`, the nearer
if both do. -/
def onGrid (tie : Tie) (x : Binary64) (power : Int) : Option Nat :=
  let (num, den) := inUnits x.ratio.1 x.ratio.2 power
  let low := num / den
  let rest := 2 * (num % den)
  let lowFits := readsBack x low power
  let highFits := readsBack x (low + 1) power
  let highWins := den < rest || (rest == den && (tie == .up || low % 2 == 1))
  if highFits && (highWins || !lowFits) then some (low + 1)
  else if lowFits then some low
  else none

/-- The first hit on grids that get finer from `power` downwards, `count` of them; the exact
expansion if there is none. -/
def search (tie : Tie) (x : Binary64) (power : Int) : Nat → Nat × Int
  | 0 => x.expansion
  | count + 1 =>
    match onGrid tie x power with
    | some digits => (digits, power)
    | none => search tie x (power - 1) count

/-- The magnitude of a finite number as digits and a power of ten: the fewest digits that read back,
and the nearest such decimal. -/
def shortest (tie : Tie) (x : Binary64) : Nat × Int :=
  if x.isZero then (0, 0)
  else search tie x (floorLog10 x.ratio.1 x.ratio.2) 17

end LispObjects.Binary64
