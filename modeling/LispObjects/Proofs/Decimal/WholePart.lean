import LispObjects.Proofs.Decimal.Value
import Mathlib.Data.Rat.Floor

namespace LispObjects.Decimal

/-!
# Whole parts of decimals

A decimal without its places is its value rounded toward zero.

* `truncate_of_nonneg`, `truncate_of_nonpos` — rounded down from zero on, and up below it;
* `truncate_nonneg_iff`, `truncate_lt_iff`, `toNat_truncate` — where the whole part lies;
* `toInt_toInt64` — as a number of 64 bits it is held as it is, or taken to the nearer bound;
* `byte?` — the byte that is left of a number, if the number lies between -1 and 256.
-/

variable {a : Decimal} {b : UInt8}

/-! ### Rounding toward zero -/

/-- The value as a quotient of integers. -/
theorem toRat_eq_div (a : Decimal) : a.toRat = a.mantissa / ((10 ^ a.scale : ℕ) : ℚ) := by
  rw [toRat, scaledRat, zpow_neg, zpow_natCast, div_eq_mul_inv, Nat.cast_pow, Nat.cast_ofNat]

/-- The sign of a decimal is that of its mantissa. -/
theorem mantissa_nonneg_iff : 0 ≤ a.mantissa ↔ 0 ≤ a.toRat := by
  have hpos : (0 : ℚ) < (10 ^ a.scale : ℕ) := by positivity
  rw [toRat_eq_div, le_div_iff₀ hpos, zero_mul, Int.cast_nonneg_iff]

/-- From zero on, the whole part is the greatest integer that is not greater. -/
theorem truncate_of_nonneg (h : 0 ≤ a.toRat) : a.truncate = ⌊a.toRat⌋ := by
  have hpow : Int.pow 10 a.scale = ((10 ^ a.scale : ℕ) : ℤ) := by
    rw [Nat.cast_pow]
    rfl
  rw [truncate, hpow, Int.tdiv_eq_ediv_of_nonneg (mantissa_nonneg_iff.mpr h), toRat_eq_div,
    Rat.floor_intCast_div_natCast]

/-- Places are cut off toward zero on both sides. -/
theorem truncate_neg (a : Decimal) : a.neg.truncate = -a.truncate :=
  Int.neg_tdiv a.mantissa _

/-- Up to zero, it is the least integer that is not less. -/
theorem truncate_of_nonpos (h : a.toRat ≤ 0) : a.truncate = ⌈a.toRat⌉ := by
  have hneg : 0 ≤ a.neg.toRat := by
    rw [toRat_neg]
    exact neg_nonneg.mpr h
  have htruncate := truncate_of_nonneg hneg
  rw [truncate_neg, toRat_neg, Int.floor_neg] at htruncate
  exact neg_inj.mp htruncate

/-- A whole part is not negative from above minus one on. -/
theorem truncate_nonneg_iff : 0 ≤ a.truncate ↔ -1 < a.toRat := by
  rcases le_total 0 a.toRat with h | h
  · rw [truncate_of_nonneg h]
    exact iff_of_true (Int.floor_nonneg.mpr h) (by linarith)
  · have hceil : -1 < ⌈a.toRat⌉ ↔ ((-1 : ℤ) : ℚ) < a.toRat := Int.lt_ceil
    rw [truncate_of_nonpos h]
    rw [Int.cast_neg, Int.cast_one] at hceil
    exact hceil

/-- A whole part is below a positive bound exactly if the number is. -/
theorem truncate_lt_iff {n : ℕ} (hn : 0 < n) : a.truncate < n ↔ a.toRat < n := by
  have hpos : (0 : ℚ) < n := Nat.cast_pos.mpr hn
  rcases le_total 0 a.toRat with h | h
  · rw [truncate_of_nonneg h, Int.floor_lt, Int.cast_natCast]
  · have hceil : ⌈a.toRat⌉ ≤ 0 := Int.ceil_le.mpr (by simpa using h)
    rw [truncate_of_nonpos h]
    exact iff_of_true (by omega) (by linarith)

/-- Where it is not negative it is the floor. -/
theorem toNat_truncate (a : Decimal) : a.truncate.toNat = ⌊a.toRat⌋₊ := by
  rcases le_total 0 a.toRat with h | h
  · rw [truncate_of_nonneg h, Int.floor_toNat]
  · have hceil : ⌈a.toRat⌉ ≤ 0 := Int.ceil_le.mpr (by simpa using h)
    rw [truncate_of_nonpos h, Nat.floor_of_nonpos h, Int.toNat_of_nonpos hceil]

/-! ### Fixed width -/

/-- What 64 bits cannot hold is taken to the nearer bound. -/
theorem toInt_toInt64 (a : Decimal) :
    a.toInt64.toInt = max (-2 ^ 63) (min a.truncate (2 ^ 63 - 1)) := by
  have hmin : Int64.minValue.toInt = -2 ^ 63 := rfl
  have hmax : Int64.maxValue.toInt = 2 ^ 63 - 1 := rfl
  rw [toInt64]
  by_cases hlow : Int64.minValue.toInt ≤ a.truncate
  · by_cases hhigh : a.truncate ≤ Int64.maxValue.toInt
    · rw [Int64.toInt_ofIntClamp hlow hhigh]
      omega
    · rw [Int64.ofIntClamp, dif_pos hlow, dif_neg hhigh]
      omega
  · rw [Int64.ofIntClamp, dif_neg hlow]
    omega

/-- The byte that is left of a number without its places, if one is. -/
def byte? (a : Decimal) : Option UInt8 :=
  if -1 < a.toRat ∧ a.toRat < 256 then some (UInt8.ofNat ⌊a.toRat⌋₊) else none

/-- A number is a byte if its whole part is one. -/
theorem byte?_eq_some_iff :
    a.byte? = some b ↔ -1 < a.toRat ∧ a.toRat < 256 ∧ b.toNat = ⌊a.toRat⌋₊ := by
  rw [byte?]
  split
  · next hrange =>
    have hfloor : ⌊a.toRat⌋₊ < 256 := (Nat.floor_lt' (by norm_num)).mpr (by exact_mod_cast hrange.2)
    rw [Option.some.injEq, ← UInt8.toNat_inj, UInt8.toNat_ofNat_of_lt' hfloor, eq_comm]
    exact ⟨fun h => ⟨hrange.1, hrange.2, h⟩, fun h => h.2.2⟩
  · next hrange => exact iff_of_false nofun fun h => hrange ⟨h.1, h.2.1⟩

/-- There is no byte for a number outside the range. -/
theorem byte?_eq_none_iff : a.byte? = none ↔ ¬ (-1 < a.toRat ∧ a.toRat < 256) := by
  rw [byte?, ite_eq_right_iff]
  constructor
  · intro h hrange
    cases h hrange
  · intro h hrange
    exact absurd hrange h

/-- Neither bound of 64 bits is a byte, so only the whole part counts. -/
theorem toInt64_isByte_iff :
    0 ≤ a.toInt64.toInt ∧ a.toInt64.toInt ≤ 255 ↔ -1 < a.toRat ∧ a.toRat < 256 := by
  have hlow := truncate_nonneg_iff (a := a)
  have hhigh := truncate_lt_iff (a := a) (n := 256) (by norm_num)
  rw [Nat.cast_ofNat, Nat.cast_ofNat] at hhigh
  rw [← hlow, ← hhigh, toInt_toInt64]
  omega

/-- A byte that is left is the whole part. -/
theorem toNat_toInt64 (hlow : -1 < a.toRat) (hhigh : a.toRat < 256) :
    a.toInt64.toInt.toNat = ⌊a.toRat⌋₊ := by
  have hrange := toInt64_isByte_iff.mpr ⟨hlow, hhigh⟩
  rw [toInt_toInt64] at hrange ⊢
  rw [← toNat_truncate]
  omega

/-- A number is left as it is exactly if it has no places to lose. -/
theorem ofInt_eq_iff {n : ℤ} : ofInt n = a ↔ a.toRat = n := by
  rw [← toRat_inj, toRat_ofInt, eq_comm]

end LispObjects.Decimal
