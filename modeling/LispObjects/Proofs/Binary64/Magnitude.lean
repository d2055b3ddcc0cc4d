import LispObjects.Binary64.Shortest
import Mathlib.Algebra.Order.Field.Power
import Mathlib.Algebra.Order.Field.Rat
import Mathlib.Order.Monotone.Basic
import Mathlib.Tactic.Linarith
import Mathlib.Tactic.NormNum
import Mathlib.Tactic.Positivity
import Mathlib.Tactic.Ring

namespace LispObjects.Binary64

/-!
# The magnitudes of double-precision numbers

A number is a sign and the bits below it, and these bits, read as a natural number, count the magnitudes
from zero upward.

* `eq_iff`, `magnitudeBits_ofMagnitudeBits` — a number is its sign and its magnitude's bits;
* `isFinite_iff`, `isNaN_iff` — the kinds of numbers are ranges of these bits;
* `magnitude` — the magnitude that bits stand for;
* `magnitude_of_parts` — bits that are put together from an exponent and a significand, a carry included,
  stand for the power of two times the significand;
* `magnitude_strictMono` — more bits stand for a larger magnitude.
-/

variable {x y : Binary64} {negative : Bool} {b e m : Nat}

/-! ### Signs and bits -/

/-- Infinity is a magnitude of 63 bits. -/
theorem infinityBits_lt : infinityBits < 2 ^ 63 := by decide

/-- The magnitude is what is left beside the sign. -/
theorem magnitudeBits_lt (x : Binary64) : x.magnitudeBits < 2 ^ 63 :=
  Nat.mod_lt _ (by decide)

/-- The parts that a number is put together from are its parts. -/
theorem magnitudeBits_ofMagnitudeBits (hb : b < 2 ^ 63) :
    (ofMagnitudeBits negative b).magnitudeBits = b := by
  have hpow : Nat.pow 2 63 = 2 ^ 63 := rfl
  rw [magnitudeBits, ofMagnitudeBits, UInt64.toNat_ofNat', hpow]
  cases negative
  · rw [if_neg Bool.false_ne_true]
    omega
  · rw [if_pos rfl]
    omega

/-- The sign that a number is put together from is its sign. -/
theorem isNegative_ofMagnitudeBits (hb : b < 2 ^ 63) :
    (ofMagnitudeBits negative b).isNegative = negative := by
  have hpow : Nat.pow 2 63 = 2 ^ 63 := rfl
  rw [isNegative, ofMagnitudeBits, UInt64.toNat_ofNat', hpow]
  cases negative
  · rw [if_neg Bool.false_ne_true, decide_eq_false_iff_not]
    omega
  · rw [if_pos rfl, decide_eq_true_eq]
    omega

/-- **Numbers** are the same if they have the same sign and the same bits below it. -/
theorem eq_iff : x = y ↔ x.isNegative = y.isNegative ∧ x.magnitudeBits = y.magnitudeBits := by
  constructor
  · rintro rfl
    exact ⟨rfl, rfl⟩
  · obtain ⟨x⟩ := x
    obtain ⟨y⟩ := y
    have hpow : Nat.pow 2 63 = 2 ^ 63 := rfl
    have hx := x.toNat_lt
    have hy := y.toNat_lt
    -- the sign says in which half of the words the number lies, the magnitude says where
    rintro ⟨hsign, hbits⟩
    rw [isNegative, isNegative, decide_eq_decide, hpow] at hsign
    rw [magnitudeBits, magnitudeBits, hpow] at hbits
    simp only at hsign hbits
    rw [Binary64.mk.injEq, ← UInt64.toNat_inj]
    omega

/-- A number is determined by its sign and its magnitude. -/
theorem eq_ofMagnitudeBits_iff (hb : b < 2 ^ 63) :
    x = ofMagnitudeBits negative b ↔ x.isNegative = negative ∧ x.magnitudeBits = b := by
  rw [eq_iff, isNegative_ofMagnitudeBits hb, magnitudeBits_ofMagnitudeBits hb]

/-- The finite numbers come before infinity. -/
theorem isFinite_iff : x.isFinite = true ↔ x.magnitudeBits < infinityBits := by
  rw [isFinite, decide_eq_true_eq, biasedExponent, infinityBits]
  exact Nat.div_lt_iff_lt_mul (by decide)

/-- What is no number comes after infinity. -/
theorem isNaN_iff : x.isNaN = true ↔ infinityBits < x.magnitudeBits := by
  have hlt := x.magnitudeBits_lt
  have hpow : Nat.pow 2 52 = 2 ^ 52 := rfl
  rw [isNaN, Bool.and_eq_true, beq_iff_eq, bne_iff_ne, biasedExponent, fraction, infinityBits, hpow]
  omega

/-- What is not finite is infinity, or no number. -/
theorem isFinite_eq_false_iff :
    x.isFinite = false ↔ x.isNaN = true ∨ x.magnitudeBits = infinityBits := by
  rw [← Bool.not_eq_true, isFinite_iff, isNaN_iff]
  omega

/-- There are two zeros, one of each sign. -/
theorem isZero_iff : x.isZero = true ↔ x.magnitudeBits = 0 :=
  beq_iff_eq

/-- Numbers are equal if they are the same or both zero, and none is equal to NaN. -/
theorem numericEq_iff :
    x.numericEq y = true ↔
      x.isNaN = false ∧ y.isNaN = false ∧ (x = y ∨ x.isZero = true ∧ y.isZero = true) := by
  rw [numericEq, Bool.and_eq_true, Bool.and_eq_true, Bool.or_eq_true, Bool.and_eq_true, beq_iff_eq,
    Bool.not_eq_true', Bool.not_eq_true', and_assoc]

/-! ### Magnitudes -/

/-- The magnitude that the bits below the sign stand for.  The bits of an infinity stand for the power of two
that the largest finite magnitude is just below. -/
def magnitude (b : Nat) : ℚ :=
  if b / 2 ^ 52 = 0 then (b % 2 ^ 52 : ℕ) * 2 ^ (-1074 : ℤ)
  else (b % 2 ^ 52 + 2 ^ 52 : ℕ) * 2 ^ ((b / 2 ^ 52 : ℕ) - 1075 : ℤ)

/-- The magnitude of a finite number is its significand scaled by its exponent. -/
theorem magnitude_magnitudeBits (x : Binary64) :
    magnitude x.magnitudeBits = x.significand * 2 ^ x.exponent := by
  have hpow : Nat.pow 2 52 = 2 ^ 52 := rfl
  rw [magnitude, significand, exponent, biasedExponent, fraction, hpow]
  split <;> rfl

/-- **Parts.** A significand that is not smaller than the exponent allows, and may have just too many bits. -/
theorem magnitude_of_parts (hm : m ≤ 2 ^ 53) (he : e = 0 ∨ 2 ^ 52 ≤ m) :
    magnitude (e * 2 ^ 52 + m) = m * 2 ^ (e - 1074 : ℤ) := by
  rw [magnitude]
  rcases Nat.lt_or_ge m (2 ^ 52) with hsmall | hlarge
  · -- a significand without a leading bit, under the smallest exponent
    obtain rfl : e = 0 := he.resolve_right (by omega)
    have hdiv : (0 * 2 ^ 52 + m) / 2 ^ 52 = 0 := by omega
    have hmod : (0 * 2 ^ 52 + m) % 2 ^ 52 = m := by omega
    rw [if_pos hdiv, hmod, Nat.cast_zero, zero_sub]
  · rcases Nat.lt_or_ge m (2 ^ 53) with hfits | hcarry
    · -- the leading bit goes into the exponent field
      have hdiv : (e * 2 ^ 52 + m) / 2 ^ 52 = e + 1 := by omega
      have hmod : (e * 2 ^ 52 + m) % 2 ^ 52 + 2 ^ 52 = m := by omega
      rw [hdiv, hmod, if_neg (by omega)]
      congr 2
      push_cast
      ring
    · -- all bits of the significand do, and it is halved
      obtain rfl : m = 2 ^ 53 := Nat.le_antisymm hm hcarry
      have hdiv : (e * 2 ^ 52 + 2 ^ 53) / 2 ^ 52 = e + 2 := by omega
      have hmod : (e * 2 ^ 52 + 2 ^ 53) % 2 ^ 52 + 2 ^ 52 = 2 ^ 52 := by omega
      have hexponent : ((e + 2 : ℕ) - 1075 : ℤ) = (e - 1074 : ℤ) + 1 := by
        push_cast
        ring
      rw [hdiv, hmod, if_neg (by omega), hexponent, zpow_add_one₀ (by norm_num)]
      push_cast
      ring

/-- All bits can be put together in this way, without a carry. -/
theorem exists_parts (b : Nat) :
    ∃ e m, b = e * 2 ^ 52 + m ∧ m < 2 ^ 53 ∧ (e = 0 ∨ 2 ^ 52 ≤ m) := by
  refine ⟨b / 2 ^ 52 - 1, b - (b / 2 ^ 52 - 1) * 2 ^ 52, ?_, ?_, ?_⟩ <;> omega

/-- Zero denotes zero. -/
theorem magnitude_zero : magnitude 0 = 0 := by
  have hparts := magnitude_of_parts (e := 0) (m := 0) (by decide) (.inl rfl)
  rw [Nat.zero_mul, Nat.cast_zero, zero_mul] at hparts
  exact hparts

/-- The magnitude of the next bits is larger by a unit of the significand, after a carry by two. -/
theorem add_unit_le_magnitude (hm : m ≤ 2 ^ 53) (he : e = 0 ∨ 2 ^ 52 ≤ m) :
    (m + 1) * 2 ^ (e - 1074 : ℤ) ≤ magnitude (e * 2 ^ 52 + m + 1) := by
  rcases Nat.lt_or_eq_of_le hm with hlt | rfl
  · have hnext : e = 0 ∨ 2 ^ 52 ≤ m + 1 := he.imp_right (by omega)
    rw [add_assoc, magnitude_of_parts hlt hnext, Nat.cast_succ]
  -- the significand is full, so the next number has the next exponent
  · have hcarry : e * 2 ^ 52 + 2 ^ 53 + 1 = (e + 1) * 2 ^ 52 + (2 ^ 52 + 1) := by omega
    have hexponent : ((e + 1 : ℕ) - 1074 : ℤ) = (e - 1074 : ℤ) + 1 := by
      push_cast
      ring
    have hunit : (0 : ℚ) < 2 ^ (e - 1074 : ℤ) := by positivity
    rw [hcarry, magnitude_of_parts (by decide) (.inr (by decide)), hexponent,
      zpow_add_one₀ (by norm_num)]
    push_cast
    linarith

/-- That of the bits before is smaller by a unit, unless the significand is the smallest with a leading bit. -/
theorem magnitude_of_succ_eq {c : Nat} (hm : m ≤ 2 ^ 53) (he : e = 0 ∨ 2 ^ 52 ≤ m)
    (hc : c + 1 = e * 2 ^ 52 + m) :
    magnitude c = (m - 1) * 2 ^ (e - 1074 : ℤ) ∨ (e ≠ 0 ∧ m = 2 ^ 52) := by
  rcases Nat.eq_zero_or_pos m with rfl | hpos
  · -- these are the bits of zero
    omega
  · obtain ⟨k, rfl⟩ := Nat.exists_eq_add_one_of_ne_zero hpos.ne'
    obtain rfl : c = e * 2 ^ 52 + k := by omega
    by_cases hleading : e = 0 ∨ 2 ^ 52 ≤ k
    · rw [magnitude_of_parts (by omega) hleading, Nat.cast_succ, add_sub_cancel_right]
      exact .inl rfl
    · exact .inr (by omega)

/-- **Order.** More bits stand for a larger magnitude. -/
theorem magnitude_strictMono : StrictMono magnitude := by
  refine strictMono_nat_of_lt_succ fun b => ?_
  obtain ⟨e, m, rfl, hm, he⟩ := exists_parts b
  have hunit : (0 : ℚ) < 2 ^ (e - 1074 : ℤ) := by positivity
  have hnext := add_unit_le_magnitude (Nat.le_of_lt hm) he
  rw [magnitude_of_parts (Nat.le_of_lt hm) he]
  linarith

end LispObjects.Binary64
