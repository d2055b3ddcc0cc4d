import LispObjects.Proofs.Decimal.Value

namespace LispObjects.Decimal

/-!
# The order of decimals

Decimals are compared by their mantissas at a common scale, which is the order of their values.

* `scaledRat_lt_scaledRat` — at a given number of places the mantissas decide;
* `compare_eq_compare_toRat` — the order of decimals is that of the rational numbers they denote, so it
  is total, and only equal decimals compare as equal (`Std.TransOrd`, `Std.LawfulEqOrd`).
-/

variable {a b : Decimal} {m n : Int}

/-- At a common scale values are ordered as the mantissas are. -/
theorem scaledRat_lt_scaledRat {s : Nat} : scaledRat m s < scaledRat n s ↔ m < n := by
  have hpos : (0 : ℚ) < 10 ^ (-(s : ℤ)) := zpow_pos (by norm_num) _
  rw [scaledRat, scaledRat, mul_lt_mul_iff_of_pos_right hpos, Int.cast_lt]

/-- At a common scale values compare as the mantissas do. -/
theorem compare_scaledRat (m n : Int) (s : Nat) :
    compare (scaledRat m s) (scaledRat n s) = compare m n := by
  rcases lt_trichotomy m n with h | rfl | h
  · rw [compare_lt_iff_lt.mpr h, compare_lt_iff_lt.mpr (scaledRat_lt_scaledRat.mpr h)]
  · rw [compare_eq_iff_eq.mpr rfl, compare_eq_iff_eq.mpr rfl]
  · rw [compare_gt_iff_gt.mpr h, compare_gt_iff_gt.mpr (scaledRat_lt_scaledRat.mpr h)]

/-- **Order.** Decimals are ordered as the numbers that they denote. -/
theorem compare_eq_compare_toRat (a b : Decimal) : compare a b = compare a.toRat b.toRat := by
  let scale := max a.scale b.scale
  have ha : scaledRat (a.mantissaAt scale) scale = a.toRat := scaledRat_mantissaAt (le_max_left _ _)
  have hb : scaledRat (b.mantissaAt scale) scale = b.toRat := scaledRat_mantissaAt (le_max_right _ _)
  show compare (a.mantissaAt scale) (b.mantissaAt scale) = _
  rw [← ha, ← hb, compare_scaledRat]

instance : Std.TransOrd Decimal where
  eq_swap {a b} := by
    rw [compare_eq_compare_toRat, compare_eq_compare_toRat b a]
    exact Std.OrientedCmp.eq_swap
  isLE_trans {a b c} hab hbc := by
    rw [compare_eq_compare_toRat] at hab hbc ⊢
    exact Std.TransCmp.isLE_trans hab hbc

/-- Only a decimal itself compares as equal to it. -/
instance : Std.LawfulEqOrd Decimal where
  compare_self {a} := by
    rw [compare_eq_compare_toRat, compare_eq_iff_eq]
  eq_of_compare {a b} h := by
    rw [compare_eq_compare_toRat, compare_eq_iff_eq] at h
    exact toRat_injective h

end LispObjects.Decimal
