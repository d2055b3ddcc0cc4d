import LispObjects.Decimal.Basic
import Mathlib.Algebra.Order.Field.Rat
import Mathlib.Data.Int.Order.Units
import Mathlib.Order.Bounds.Defs
import Mathlib.Tactic.Linarith
import Mathlib.Tactic.NormNum
import Mathlib.Tactic.Ring

namespace LispObjects.Decimal

/-!
# The values of decimals

A decimal denotes a rational number, and no two decimals denote the same one.

* `toRat` — the value;
* `isLeast_scale` — a decimal has no more places than its value needs, so the representation is
  determined by the value (`toRat_injective`);
* `toRat_ofScaled`, `toRat_ofPower` — dropping zeros from the end of the places keeps the value;
* `canonical_and_exact` — lowest terms, equality by value and exact arithmetic, for all operands.
-/

variable {a b : Decimal} {mantissa m : Int} {scale s : Nat}

/-! ### Values -/

/-- Scales are numbers of 32 bits. -/
theorem scaleBound_eq : scaleBound = 2 ^ 32 :=
  rfl

/-- The rational number `mantissa * 10 ^ (-scale)`. -/
def scaledRat (mantissa : Int) (scale : Nat) : ℚ :=
  mantissa * 10 ^ (-(scale : ℤ))

/-- The value of a decimal. -/
def toRat (a : Decimal) : ℚ :=
  scaledRat a.mantissa a.scale

/-- No power of ten is zero. -/
theorem ten_zpow_ne_zero (n : ℤ) : (10 : ℚ) ^ n ≠ 0 :=
  zpow_ne_zero n (by norm_num)

/-- Without places the value is the mantissa. -/
@[simp] theorem scaledRat_zero_right (mantissa : Int) : scaledRat mantissa 0 = mantissa := by
  simp [scaledRat]

/-- Zero is zero at any scale. -/
@[simp] theorem scaledRat_zero_left (scale : Nat) : scaledRat 0 scale = 0 := by
  simp [scaledRat]

/-- More places and as many more zeros at the end make no difference. -/
theorem scaledRat_mul_pow (mantissa : Int) (scale k : Nat) :
    scaledRat (mantissa * 10 ^ k) (scale + k) = scaledRat mantissa scale := by
  have hpow : (10 : ℚ) ^ k * 10 ^ (-((scale + k : ℕ) : ℤ)) = 10 ^ (-(scale : ℤ)) := by
    rw [← zpow_natCast, ← zpow_add₀ (by norm_num)]
    congr 1
    push_cast
    ring
  rw [scaledRat, scaledRat, Int.cast_mul, Int.cast_pow, Int.cast_ofNat, mul_assoc, hpow]

/-- At a given number of places the mantissa is determined by the value. -/
theorem scaledRat_left_inj : scaledRat mantissa scale = scaledRat m scale ↔ mantissa = m := by
  rw [scaledRat, scaledRat, mul_left_inj' (ten_zpow_ne_zero _), Int.cast_inj]

/-- A whole number has itself as its value. -/
@[simp] theorem toRat_ofInt (n : Int) : (ofInt n).toRat = n :=
  scaledRat_zero_right n

/-! ### Lowest terms -/

/-- Lowest terms: zero has no places, and places do not end in a zero. -/
def IsCanonical (mantissa : Int) (scale : Nat) : Prop :=
  (mantissa = 0 → scale = 0) ∧ (0 < scale → ¬ 10 ∣ mantissa)

/-- A decimal carries the proof that it has no zero at its end. -/
theorem isCanonical (a : Decimal) : IsCanonical a.mantissa a.scale := by
  have h := a.canonical
  refine ⟨?_, ?_⟩
  · intro hzero
    rw [hzero] at h
    simpa using h
  · intro hpos hdvd
    omega

/-- A number with places cannot be written with fewer of them. -/
theorem scale_le_of_toRat_eq (h : a.toRat = scaledRat m s) : a.scale ≤ s := by
  by_contra hlt
  obtain ⟨k, hk⟩ : ∃ k, a.scale = s + (k + 1) := ⟨a.scale - s - 1, by omega⟩
  -- written at the scale of `a`, the mantissa ends in a zero
  have hm : a.mantissa = m * 10 ^ (k + 1) := by
    rw [toRat, hk, ← scaledRat_mul_pow m s (k + 1), scaledRat_left_inj] at h
    exact h
  have hdvd : (10 : ℤ) ∣ a.mantissa := by
    rw [hm, pow_succ]
    exact ⟨m * 10 ^ k, by ring⟩
  exact a.isCanonical.2 (by omega) hdvd

/-- **Lowest terms.** The scale is the least number of places in which the value can be written. -/
theorem isLeast_scale (a : Decimal) :
    IsLeast {s : ℕ | ∃ m : ℤ, a.toRat = scaledRat m s} a.scale := by
  refine ⟨⟨a.mantissa, rfl⟩, ?_⟩
  rintro s ⟨m, hm⟩
  exact scale_le_of_toRat_eq hm

/-- **Uniqueness.** Decimals of one value are the same decimal. -/
theorem toRat_injective : Function.Injective toRat := by
  intro a b h
  have hscale : a.scale = b.scale :=
    Nat.le_antisymm (scale_le_of_toRat_eq h) (scale_le_of_toRat_eq h.symm)
  have hmantissa : a.mantissa = b.mantissa := by
    rw [toRat, toRat, hscale, scaledRat_left_inj] at h
    exact h
  cases a
  cases b
  cases hscale
  cases hmantissa
  rfl

/-- Decimals are equal exactly if their values are. -/
theorem toRat_inj : a.toRat = b.toRat ↔ a = b :=
  toRat_injective.eq_iff

/-! ### Dropping zeros -/

/-- Zeros that are dropped from the end do not count. -/
theorem toRat_dropZeros (mantissa : Int) (scale : Nat) :
    (dropZeros mantissa scale).toRat = scaledRat mantissa scale := by
  induction scale generalizing mantissa with
  | zero => rw [dropZeros, toRat_ofInt, scaledRat_zero_right]
  | succ scale ih =>
    rw [dropZeros]
    split
    · next hzero =>
      have hdiv : mantissa / 10 * 10 ^ 1 = mantissa := by omega
      rw [ih, ← scaledRat_mul_pow _ _ 1, hdiv]
    · rfl

/-- The decimal that is made of a mantissa and a scale has their value. -/
@[simp] theorem toRat_ofScaled (mantissa : Int) (scale : Nat) :
    (ofScaled mantissa scale).toRat = scaledRat mantissa scale := by
  rw [ofScaled]
  split
  · next hzero => rw [hzero, toRat_ofInt, scaledRat_zero_left, Int.cast_zero]
  · exact toRat_dropZeros mantissa scale

/-- The number of a mantissa and a power of ten, which may be negative, is their product. -/
@[simp] theorem toRat_ofPower (mantissa power : Int) :
    (ofPower mantissa power).toRat = mantissa * 10 ^ power := by
  rw [ofPower]
  split
  · next hpos =>
    obtain ⟨k, rfl⟩ := Int.eq_ofNat_of_zero_le hpos
    have hpow : Int.pow 10 k = 10 ^ k := rfl
    rw [toRat_ofInt, Int.toNat_natCast, hpow, Int.cast_mul, Int.cast_pow, Int.cast_ofNat,
      zpow_natCast]
  · next hneg =>
    have hcast : -((-power).toNat : ℤ) = power := by omega
    rw [toRat_ofScaled, scaledRat, hcast]

/-! ### Exact arithmetic -/

/-- Written with more places a number has the same value. -/
theorem scaledRat_mantissaAt (h : a.scale ≤ scale) :
    scaledRat (a.mantissaAt scale) scale = a.toRat := by
  have hscale : scale = a.scale + (scale - a.scale) := by omega
  have hpow : a.mantissaAt scale = a.mantissa * 10 ^ (scale - a.scale) := rfl
  rw [hpow]
  conv_lhs => rw [hscale]
  rw [Nat.add_sub_cancel_left, scaledRat_mul_pow, toRat]

/-- At a common scale mantissas are added. -/
theorem scaledRat_add (m n : Int) (s : Nat) :
    scaledRat (m + n) s = scaledRat m s + scaledRat n s := by
  simp only [scaledRat]
  push_cast
  ring

/-- At any scale the mantissa is negated. -/
theorem scaledRat_neg (m : Int) (s : Nat) : scaledRat (-m) s = -scaledRat m s := by
  simp only [scaledRat]
  push_cast
  ring

/-- In a product mantissas are multiplied and scales added. -/
theorem scaledRat_mul (m n : Int) (s t : Nat) :
    scaledRat (m * n) (s + t) = scaledRat m s * scaledRat n t := by
  have hpow : (10 : ℚ) ^ (-((s + t : ℕ) : ℤ)) = 10 ^ (-(s : ℤ)) * 10 ^ (-(t : ℤ)) := by
    rw [← zpow_add₀ (by norm_num)]
    congr 1
    push_cast
    ring
  simp only [scaledRat]
  rw [hpow]
  push_cast
  ring

/-- Sums are exact. -/
@[simp] theorem toRat_add (a b : Decimal) : (a.add b).toRat = a.toRat + b.toRat := by
  rw [add, toRat_ofScaled, scaledRat_add, scaledRat_mantissaAt (le_max_left _ _),
    scaledRat_mantissaAt (le_max_right _ _)]

/-- Negations are exact. -/
@[simp] theorem toRat_neg (a : Decimal) : a.neg.toRat = -a.toRat :=
  scaledRat_neg a.mantissa a.scale

/-- Differences are exact. -/
@[simp] theorem toRat_sub (a b : Decimal) : (a.sub b).toRat = a.toRat - b.toRat := by
  rw [sub, toRat_ofScaled, sub_eq_add_neg, scaledRat_add, scaledRat_neg,
    scaledRat_mantissaAt (le_max_left _ _), scaledRat_mantissaAt (le_max_right _ _),
    sub_eq_add_neg]

/-- Products are exact. -/
@[simp] theorem toRat_mul (a b : Decimal) : (a.mul b).toRat = a.toRat * b.toRat := by
  rw [mul, toRat_ofScaled, scaledRat_mul, toRat, toRat]

/-- **Exact decimals.** Whatever operations decimals came from, each is in lowest terms, with as few
    places as its value can be written in; two are the same exactly if their values are; and sums,
    differences, products and negations have the values of exact arithmetic. -/
theorem canonical_and_exact (a b : Decimal) (mantissa : Int) (scale : Nat) :
    IsCanonical a.mantissa a.scale ∧
      IsLeast {s : ℕ | ∃ m : ℤ, a.toRat = m * 10 ^ (-(s : ℤ))} a.scale ∧
      (a = b ↔ a.toRat = b.toRat) ∧
      (a.add b).toRat = a.toRat + b.toRat ∧
      (a.sub b).toRat = a.toRat - b.toRat ∧
      (a.mul b).toRat = a.toRat * b.toRat ∧
      a.neg.toRat = -a.toRat ∧
      (ofScaled mantissa scale).toRat = mantissa * 10 ^ (-(scale : ℤ)) ∧
      (ofInt mantissa).toRat = mantissa :=
  ⟨a.isCanonical, a.isLeast_scale, toRat_inj.symm, toRat_add a b, toRat_sub a b, toRat_mul a b,
    toRat_neg a, toRat_ofScaled mantissa scale, toRat_ofInt mantissa⟩

end LispObjects.Decimal
