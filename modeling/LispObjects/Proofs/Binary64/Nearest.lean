import LispObjects.Proofs.Binary64.Magnitude
import Mathlib.Algebra.Order.Ring.Abs

namespace LispObjects.Binary64

/-!
# Correct rounding

Quotients are rounded to the nearest magnitude, a tie to the one of even bits.

* `IsNearest` — the bits stand for the nearest magnitude, infinity among the magnitudes, and are even in a
  tie; `IsNearest.unique`: there is one such magnitude at most;
* `Between` — the quotient is on the side of the bits of the two midpoints around them, which is enough;
* `RoundsToUnits`, `IsPlace` — the quotient is rounded to the nearest number of units, and the unit is the
  last place of the significand;
* `isNearest_ratioBits` — all put together;
* `ofScaled_eq_iff` — a decimal is rounded to a number exactly if the number has its sign and the nearest
  magnitude.
-/

variable {v x y : ℚ} {b c m num den : Nat} {q : ℤ} {negative : Bool}

/-! ### The nearest magnitude -/

/-- The bits stand for a magnitude that none is nearer to `v` than.  If another one is as near, they are
even, and so is their significand.  Infinity is as far away as the power of two that its bits stand for. -/
structure IsNearest (v : ℚ) (b : Nat) : Prop where
  le : b ≤ infinityBits
  nearest : ∀ c, c ≤ infinityBits → |v - magnitude b| ≤ |v - magnitude c|
  even : ∀ c, c ≤ infinityBits → c ≠ b → |v - magnitude c| = |v - magnitude b| → b % 2 = 0

/-- The larger of two numbers is as near as the smaller one exactly from their midpoint on. -/
theorem abs_sub_le_iff_upper (hxy : x < y) : |v - y| ≤ |v - x| ↔ x + y ≤ 2 * v := by
  have hfactor : (v - x) ^ 2 - (v - y) ^ 2 = (y - x) * (2 * v - (x + y)) := by ring
  rw [← sq_le_sq, ← sub_nonneg, hfactor, mul_nonneg_iff_of_pos_left (sub_pos.mpr hxy), sub_nonneg]

/-- The smaller of two numbers is as near as the larger one exactly up to their midpoint. -/
theorem abs_sub_le_iff_lower (hxy : x < y) : |v - x| ≤ |v - y| ↔ 2 * v ≤ x + y := by
  have hfactor : (v - y) ^ 2 - (v - x) ^ 2 = (y - x) * (x + y - 2 * v) := by ring
  rw [← sq_le_sq, ← sub_nonneg, hfactor, mul_nonneg_iff_of_pos_left (sub_pos.mpr hxy), sub_nonneg]

/-- A value is as far from one number as from another exactly in the middle. -/
theorem abs_sub_eq_iff (hxy : x < y) : |v - x| = |v - y| ↔ 2 * v = x + y := by
  rw [le_antisymm_iff, le_antisymm_iff, abs_sub_le_iff_lower hxy, abs_sub_le_iff_upper hxy]

/-- Two nearest magnitudes would have `v` in the middle, and so nothing between them.  But then the bits of
one of them are odd. -/
theorem IsNearest.not_lt (hb : IsNearest v b) (hc : IsNearest v c) : ¬ b < c := by
  intro hlt
  have hmagnitude := magnitude_strictMono hlt
  have hsame : |v - magnitude b| = |v - magnitude c| :=
    le_antisymm (hb.nearest c hc.le) (hc.nearest b hb.le)
  have hmiddle := (abs_sub_eq_iff hmagnitude).mp hsame
  have hbeven := hb.even c hc.le (Nat.ne_of_gt hlt) hsame.symm
  have hceven := hc.even b hb.le (Nat.ne_of_lt hlt) hsame
  -- both are even, so there is a number between them, and it is nearer
  have hbetween : b + 1 < c := by omega
  have hnext := (abs_sub_le_iff_lower (magnitude_strictMono (Nat.lt_succ_self b))).mp
    (hb.nearest (b + 1) (by have := hc.le; omega))
  have hgap := magnitude_strictMono hbetween
  linarith

/-- **Uniqueness.** There is one nearest magnitude at most. -/
theorem IsNearest.unique (hb : IsNearest v b) (hc : IsNearest v c) : b = c :=
  Nat.le_antisymm (Nat.le_of_not_lt (hc.not_lt hb)) (Nat.le_of_not_lt (hb.not_lt hc))

/-- A magnitude is the nearest one to itself. -/
theorem isNearest_magnitude (hb : b ≤ infinityBits) : IsNearest (magnitude b) b := by
  refine ⟨hb, ?_, ?_⟩
  · intro c _
    rw [sub_self, abs_zero]
    exact abs_nonneg _
  · intro c _ hne hsame
    rw [sub_self, abs_zero, abs_eq_zero, sub_eq_zero] at hsame
    exact absurd (magnitude_strictMono.injective hsame).symm hne

/-! ### Midpoints -/

/-- `v` is not beyond the midpoints between the magnitude and the two next to it, and the bits are even if it
is one of them. -/
structure Between (v : ℚ) (b : Nat) : Prop where
  lower : ∀ c, c + 1 = b → magnitude c + magnitude b ≤ 2 * v
  upper : 2 * v ≤ magnitude b + magnitude (b + 1)
  even : (∃ c, c + 1 = b ∧ magnitude c + magnitude b = 2 * v) ∨
    magnitude b + magnitude (b + 1) = 2 * v → b % 2 = 0

/-- Smaller magnitudes are not nearer. -/
theorem Between.nearest_below (h : Between v b) (hc : c < b) : magnitude c + magnitude b ≤ 2 * v := by
  obtain ⟨a, rfl⟩ := Nat.exists_eq_add_one_of_ne_zero (Nat.ne_zero_of_lt hc)
  have hlower := h.lower a rfl
  have hmono := magnitude_strictMono.monotone (Nat.le_of_lt_succ hc)
  linarith

/-- Larger magnitudes are not nearer. -/
theorem Between.nearest_above (h : Between v b) (hc : b < c) : 2 * v ≤ magnitude b + magnitude c := by
  have hmono := magnitude_strictMono.monotone (Nat.succ_le_of_lt hc)
  exact h.upper.trans (by linarith)

/-- The number that a value is rounded to is nearest to it if it is finite or the least that is not. -/
theorem Between.isNearest_of_le (h : Between v b) (hb : b ≤ infinityBits) : IsNearest v b := by
  refine ⟨hb, ?_, ?_⟩
  · intro c _
    rcases Nat.lt_trichotomy c b with hlt | rfl | hgt
    · exact (abs_sub_le_iff_upper (magnitude_strictMono hlt)).mpr (h.nearest_below hlt)
    · exact le_refl _
    · exact (abs_sub_le_iff_lower (magnitude_strictMono hgt)).mpr (h.nearest_above hgt)
  · intro c _ hne hsame
    -- a tie is one with the next magnitude on that side
    rcases Nat.lt_or_gt_of_ne hne with hlt | hgt
    · have hmiddle := (abs_sub_eq_iff (magnitude_strictMono hlt)).mp hsame
      obtain ⟨a, rfl⟩ := Nat.exists_eq_add_one_of_ne_zero (Nat.ne_zero_of_lt hlt)
      have hmono := magnitude_strictMono.monotone (Nat.le_of_lt_succ hlt)
      have hlower := h.lower a rfl
      exact h.even (.inl ⟨a, rfl, by linarith⟩)
    · have hmiddle := (abs_sub_eq_iff (magnitude_strictMono hgt)).mp hsame.symm
      have hmono := magnitude_strictMono.monotone (Nat.succ_le_of_lt hgt)
      exact h.even (.inr (by have := h.upper; linarith))

/-- Beyond the finite numbers the nearest is infinity. -/
theorem Between.isNearest_infinity (h : Between v b) (hb : infinityBits < b) :
    IsNearest v infinityBits := by
  have hbelow := h.nearest_below hb
  have hinfinity := magnitude_strictMono hb
  -- everything up to infinity is below `v`
  have hcloser {c : Nat} (hc : c < infinityBits) : magnitude c + magnitude infinityBits < 2 * v := by
    have hmono := magnitude_strictMono hc
    linarith
  refine ⟨Nat.le_refl _, ?_, ?_⟩
  · intro c hc
    rcases Nat.lt_or_eq_of_le hc with hlt | rfl
    · exact (abs_sub_le_iff_upper (magnitude_strictMono hlt)).mpr (hcloser hlt).le
    · exact le_refl _
  · intro c hc hne hsame
    have hlt := Nat.lt_of_le_of_ne hc hne
    have hmiddle := (abs_sub_eq_iff (magnitude_strictMono hlt)).mp hsame
    exact absurd hmiddle (hcloser hlt).ne'

/-- **Midpoints.** Up to infinity this is the nearest magnitude, and beyond it is infinity. -/
theorem Between.isNearest (h : Between v b) : IsNearest v (min infinityBits b) := by
  rcases Nat.lt_or_ge infinityBits b with hbeyond | hle
  · rw [min_eq_left hbeyond.le]
    exact h.isNearest_infinity hbeyond
  · rw [min_eq_right hle]
    exact h.isNearest_of_le hle

/-! ### Units -/

/-- `m` is the count of units of `u` nearest to `v`, the even one in a tie. -/
structure RoundsToUnits (v u : ℚ) (m : Nat) : Prop where
  lower : (2 * m - 1) * u ≤ 2 * v
  upper : 2 * v ≤ (2 * m + 1) * u
  even : 2 * v = (2 * m - 1) * u ∨ 2 * v = (2 * m + 1) * u → m % 2 = 0

/-- Quotients are rounded to the nearest natural number. -/
theorem roundsToUnits_roundQuotient (num : Nat) (hden : 0 < den) :
    RoundsToUnits num den (roundQuotient num den) := by
  have hpos : (0 : ℚ) < den := by exact_mod_cast hden
  have hquotient : (num : ℚ) = den * (num / den : ℕ) + (num % den : ℕ) := by
    exact_mod_cast (Nat.div_add_mod num den).symm
  have hrest : ((num % den : ℕ) : ℚ) < den := by exact_mod_cast Nat.mod_lt num hden
  have hnonneg : (0 : ℚ) ≤ (num % den : ℕ) := Nat.cast_nonneg _
  rw [hquotient, roundQuotient]
  generalize num / den = k
  generalize num % den = r at hrest hnonneg ⊢
  split
  · next hbelow =>
    have hhalf : 2 * (r : ℚ) < den := by exact_mod_cast hbelow
    refine ⟨by linarith, by linarith, ?_⟩
    rintro (htie | htie) <;> linarith
  · split
    · next habove =>
      have hhalf : (den : ℚ) < 2 * r := by exact_mod_cast habove
      have hcast : ((k + 1 : ℕ) : ℚ) = k + 1 := Nat.cast_succ k
      refine ⟨?_, ?_, ?_⟩ <;> rw [hcast]
      · linarith
      · linarith
      · rintro (htie | htie) <;> linarith
    · next hbelow habove =>
      -- a tie goes to `k` or `k + 1`, whichever is even
      have hhalf : 2 * (r : ℚ) = den := by exact_mod_cast (by omega : 2 * r = den)
      have heven : (k + k % 2) % 2 = 0 := by omega
      have hodd : k % 2 = 0 ∨ k % 2 = 1 := by omega
      refine ⟨?_, ?_, fun _ => heven⟩ <;> rcases hodd with hk | hk <;> rw [hk] <;> push_cast <;> linarith

/-- The scale makes no difference. -/
theorem RoundsToUnits.scale {u k : ℚ} (h : RoundsToUnits v u m) (hk : 0 < k) :
    RoundsToUnits (v * k) (u * k) m := by
  have hcancel {x : ℚ} : 2 * (v * k) = x * (u * k) ↔ 2 * v = x * u := by
    rw [← mul_assoc, ← mul_assoc, mul_left_inj' hk.ne']
  refine ⟨?_, ?_, ?_⟩
  · rw [← mul_assoc, ← mul_assoc]
    exact mul_le_mul_of_nonneg_right h.lower hk.le
  · rw [← mul_assoc, ← mul_assoc]
    exact mul_le_mul_of_nonneg_right h.upper hk.le
  · rw [hcancel, hcancel]
    exact h.even

/-- A natural power as a rational one. -/
theorem cast_pow_toNat (base : Nat) (hq : 0 ≤ q) :
    ((Nat.pow base q.toNat : ℕ) : ℚ) = (base : ℚ) ^ q := by
  have hcast : (q.toNat : ℤ) = q := Int.toNat_of_nonneg hq
  conv_rhs => rw [← hcast, zpow_natCast]
  exact Nat.cast_pow base q.toNat

/-- A quotient in units of a power of two is rounded, whether the power is a whole number or a part of one. -/
theorem roundsToUnits_roundAt (q : ℤ) (num : Nat) (hden : 0 < den) :
    RoundsToUnits (num / den) (2 ^ q) (roundAt q num den) := by
  have hpos : (0 : ℚ) < den := by exact_mod_cast hden
  have hunit : (0 : ℚ) < 2 ^ q := by positivity
  rw [roundAt]
  -- a place above the units goes to the denominator, one below them to the numerator
  split
  · next hq =>
    have hden' : 0 < den * Nat.pow 2 q.toNat := Nat.mul_pos hden (Nat.pow_pos (by decide))
    have hround := (roundsToUnits_roundQuotient num hden').scale (inv_pos.mpr hpos)
    rw [Nat.cast_mul, cast_pow_toNat 2 hq, mul_right_comm, mul_inv_cancel₀ hpos.ne', one_mul] at hround
    exact hround
  · next hq =>
    have hround := (roundsToUnits_roundQuotient (num * Nat.pow 2 (-q).toNat) hden).scale
      (div_pos hunit hpos)
    have hcancel : (2 : ℚ) ^ (-q) * 2 ^ q = 1 := by
      rw [← zpow_add₀ (by norm_num), neg_add_cancel, zpow_zero]
    rw [Nat.cast_mul, cast_pow_toNat 2 (by omega), Nat.cast_ofNat, mul_div_cancel₀ _ hpos.ne',
      mul_assoc, mul_div_assoc', hcancel, mul_one_div] at hround
    exact hround

/-! ### The last place -/

/-- `2 ^ q` is the unit of the last place of a significand of 53 bits.  Small numbers have fewer
bits, as no unit is smaller than `2 ^ (-1074)`. -/
structure IsPlace (v : ℚ) (q : ℤ) : Prop where
  least : -1074 ≤ q
  upper : v < 2 ^ 53 * 2 ^ q
  lower : q = -1074 ∨ 2 ^ 52 * 2 ^ q ≤ v

/-- The leading bit of a number is not greater than the number. -/
theorem cast_two_pow_log2_le (hnum : 0 < num) : (2 : ℚ) ^ (num.log2 : ℤ) ≤ num := by
  rw [zpow_natCast]
  exact_mod_cast Nat.log2_self_le (Nat.ne_zero_of_lt hnum)

/-- Twice the leading bit of a number is greater than the number. -/
theorem cast_lt_two_pow_log2 (num : Nat) : (num : ℚ) < 2 ^ (num.log2 + 1 : ℤ) := by
  rw [← Nat.cast_succ, zpow_natCast]
  exact_mod_cast Nat.lt_log2_self (n := num)

/-- The quotient is at most twice the power of two. -/
theorem lt_two_zpow_roughLog2 (num : Nat) (hden : 0 < den) :
    (num : ℚ) / den < 2 ^ (roughLog2 num den + 1) := by
  have hpos : (0 : ℚ) < den := by exact_mod_cast hden
  have hsplit : (num.log2 + 1 : ℤ) = (roughLog2 num den + 1) + den.log2 := by
    rw [roughLog2]
    ring
  rw [div_lt_iff₀ hpos]
  calc (num : ℚ) < 2 ^ (num.log2 + 1 : ℤ) := cast_lt_two_pow_log2 num
    _ = 2 ^ (roughLog2 num den + 1) * 2 ^ (den.log2 : ℤ) := by
        rw [hsplit, zpow_add₀ (by norm_num)]
    _ ≤ 2 ^ (roughLog2 num den + 1) * den :=
        mul_le_mul_of_nonneg_left (cast_two_pow_log2_le hden) (by positivity)

/-- The quotient is at least half of the power of two. -/
theorem two_zpow_roughLog2_le (hnum : 0 < num) (hden : 0 < den) :
    2 ^ (roughLog2 num den - 1) ≤ (num : ℚ) / den := by
  have hpos : (0 : ℚ) < den := by exact_mod_cast hden
  have hsplit : (num.log2 : ℤ) = (roughLog2 num den - 1) + (den.log2 + 1) := by
    rw [roughLog2]
    ring
  rw [le_div_iff₀ hpos]
  calc (2 : ℚ) ^ (roughLog2 num den - 1) * den
      ≤ 2 ^ (roughLog2 num den - 1) * 2 ^ (den.log2 + 1 : ℤ) :=
        mul_le_mul_of_nonneg_left (cast_lt_two_pow_log2 den).le (by positivity)
    _ = 2 ^ (num.log2 : ℤ) := by
        rw [hsplit, zpow_add₀ (by norm_num) (roughLog2 num den - 1)]
    _ ≤ num := cast_two_pow_log2_le hnum

/-- The test whether a quotient is below a power of two makes both sides whole numbers. -/
theorem lt_two_zpow_iff (num : Nat) (hden : 0 < den) (e : ℤ) :
    (if 0 ≤ e then num < den * Nat.pow 2 e.toNat else num * Nat.pow 2 (-e).toNat < den) ↔
      (num : ℚ) / den < 2 ^ e := by
  have hpos : (0 : ℚ) < den := by exact_mod_cast hden
  split
  · next he =>
    rw [div_lt_iff₀' hpos, ← Nat.cast_ofNat (R := ℚ), ← cast_pow_toNat 2 he]
    exact_mod_cast Iff.rfl
  · next he =>
    have hneg : (2 : ℚ) ^ e = ((2 : ℚ) ^ (-e))⁻¹ := by rw [zpow_neg, inv_inv]
    rw [hneg, div_lt_iff₀ hpos, inv_mul_eq_div, lt_div_iff₀ (by positivity), ← Nat.cast_ofNat (R := ℚ),
      ← cast_pow_toNat 2 (by omega)]
    exact_mod_cast Iff.rfl

/-- **Last place.** The exponent that is chosen for a quotient. -/
theorem isPlace_placeExponent (hnum : 0 < num) (hden : 0 < den) :
    IsPlace (num / den) (placeExponent num den) := by
  -- the largest power of two up to the quotient is the rough one or half of it
  obtain ⟨e, hplace, hlower, hupper⟩ : ∃ e : ℤ, placeExponent num den = max (-1074) (e - 52) ∧
      2 ^ e ≤ (num : ℚ) / den ∧ (num : ℚ) / den < 2 ^ (e + 1) := by
    have hlow := two_zpow_roughLog2_le hnum hden
    have hhigh := lt_two_zpow_roughLog2 num hden
    simp only [placeExponent, lt_two_zpow_iff num hden]
    split
    · next hbelow =>
      refine ⟨_, rfl, hlow, ?_⟩
      rw [sub_add_cancel]
      exact hbelow
    · next hbelow =>
      exact ⟨_, rfl, not_lt.mp hbelow, hhigh⟩
  have hbits : (2 : ℚ) ^ 53 * 2 ^ (placeExponent num den) = 2 ^ (53 + placeExponent num den) := by
    rw [zpow_add₀ (by norm_num)]
    rfl
  refine ⟨by omega, ?_, ?_⟩
  · rw [hbits]
    exact hupper.trans_le (zpow_le_zpow_right₀ (by norm_num) (by omega))
  · rcases le_total (e - 52) (-1074) with hsmall | hlarge
    · exact .inl (by omega)
    · have hleading : (2 : ℚ) ^ 52 * 2 ^ (e - 52) = 2 ^ e := by
        rw [← zpow_natCast, ← zpow_add₀ (by norm_num)]
        congr 1
        push_cast
        ring
      rw [hplace, max_eq_right hlarge, hleading]
      exact .inr hlower

/-! ### The bits of a quotient -/

/-- The significand of a rounded quotient has 53 bits, or just one more after a carry. -/
theorem IsPlace.significand_le (hplace : IsPlace v q) (hround : RoundsToUnits v (2 ^ q) m) :
    m ≤ 2 ^ 53 := by
  have hunit : (0 : ℚ) < 2 ^ q := by positivity
  by_contra hlarge
  have hcast : (2 ^ 53 + 1 : ℚ) ≤ m := by exact_mod_cast Nat.lt_of_not_le hlarge
  have hunits := mul_le_mul_of_nonneg_right hcast hunit.le
  have hlower := hround.lower
  have hupper := hplace.upper
  linarith

/-- It has a leading bit unless the unit is the smallest one. -/
theorem IsPlace.le_significand (hplace : IsPlace v q) (hround : RoundsToUnits v (2 ^ q) m) :
    q = -1074 ∨ 2 ^ 52 ≤ m := by
  refine hplace.lower.imp_right fun hlower => ?_
  have hunit : (0 : ℚ) < 2 ^ q := by positivity
  by_contra hsmall
  have hcast : (m + 1 : ℚ) ≤ 2 ^ 52 := by exact_mod_cast Nat.lt_of_not_le hsmall
  have hunits := mul_le_mul_of_nonneg_right hcast hunit.le
  have hupper := hround.upper
  linarith

/-- The magnitude before is a unit away, or the midpoint to it is below `v`. -/
theorem IsPlace.magnitude_before {e : Nat} (hplace : IsPlace v (e - 1074))
    (hround : RoundsToUnits v (2 ^ (e - 1074 : ℤ)) m) (hc : c + 1 = e * 2 ^ 52 + m) :
    magnitude c = (m - 1) * 2 ^ (e - 1074 : ℤ) ∨
      magnitude c + magnitude (e * 2 ^ 52 + m) < 2 * v := by
  have hm := hplace.significand_le hround
  have he : e = 0 ∨ 2 ^ 52 ≤ m := (hplace.le_significand hround).imp_left (by omega)
  refine (magnitude_of_succ_eq hm he hc).imp_right ?_
  rintro ⟨hexponent, rfl⟩
  -- the bits before have a smaller unit, but `v` is not below its leading bit
  have hleading := hplace.lower.resolve_left (by omega)
  have hbits := magnitude_of_parts hm he
  have hmono := magnitude_strictMono (Nat.lt_of_succ_le hc.le)
  rw [Nat.cast_pow, Nat.cast_ofNat] at hbits
  linarith

/-- **Rounding.** The rounded significand and the exponent of its last place are put together to the bits
that `v` is between the midpoints around. -/
theorem IsPlace.between (hplace : IsPlace v q) (hround : RoundsToUnits v (2 ^ q) m) :
    Between v ((q + 1074).toNat * 2 ^ 52 + m) := by
  obtain ⟨e, rfl⟩ : ∃ e : ℕ, q = e - 1074 := ⟨(q + 1074).toNat, by have := hplace.least; omega⟩
  have hexponent : ((e : ℤ) - 1074 + 1074).toNat = e := by omega
  have hm := hplace.significand_le hround
  have he : e = 0 ∨ 2 ^ 52 ≤ m := (hplace.le_significand hround).imp_left (by omega)
  have hbits := magnitude_of_parts hm he
  have hnext := add_unit_le_magnitude hm he
  have hlower := hround.lower
  have hupper := hround.upper
  rw [hexponent]
  refine ⟨?_, by linarith, ?_⟩
  · intro c hc
    rcases hplace.magnitude_before hround hc with hunits | hstrict
    · linarith
    · exact hstrict.le
  · intro htie
    -- a tie of the quotient is a tie of its significand
    have hm : m % 2 = 0 := by
      rcases htie with ⟨c, hc, htie⟩ | htie
      · have hunits := (hplace.magnitude_before hround hc).resolve_right htie.not_lt
        exact hround.even (.inl (by linarith))
      · exact hround.even (.inr (by linarith))
    omega

/-- **Correct rounding.** The bits of a quotient are those of the nearest magnitude. -/
theorem isNearest_ratioBits (num : Nat) (hden : 0 < den) : IsNearest (num / den) (ratioBits num den) := by
  rw [ratioBits]
  split
  · next hzero =>
    rw [hzero, Nat.cast_zero, zero_div]
    have hnearest := isNearest_magnitude (Nat.zero_le infinityBits)
    rwa [magnitude_zero] at hnearest
  · next hnonzero =>
    have hplace := isPlace_placeExponent (Nat.pos_of_ne_zero hnonzero) hden
    exact (hplace.between (roundsToUnits_roundAt _ num hden)).isNearest

/-! ### Signs -/

/-- A number has a sign and the magnitude nearest to `v`. -/
def RoundsTo (negative : Bool) (v : ℚ) (x : Binary64) : Prop :=
  x.isNegative = negative ∧ IsNearest v x.magnitudeBits

/-- A sign and a nearest magnitude make one number. -/
theorem RoundsTo.unique {x y : Binary64} (hx : RoundsTo negative v x) (hy : RoundsTo negative v y) :
    x = y :=
  eq_iff.mpr ⟨hx.1.trans hy.1.symm, hx.2.unique hy.2⟩

/-- **Ratios** are rounded to the nearest number, whatever their size. -/
theorem roundsTo_ofRatio (negative : Bool) (num : Nat) (hden : 0 < den) :
    RoundsTo negative (num / den) (ofRatio negative num den) := by
  have hnearest := isNearest_ratioBits num hden
  have hbits := Nat.lt_of_le_of_lt hnearest.le infinityBits_lt
  refine ⟨isNegative_ofMagnitudeBits hbits, ?_⟩
  rw [ofRatio, magnitudeBits_ofMagnitudeBits hbits]
  exact hnearest

/-- **Scaled integers** are, with a power of ten in the numerator or in the denominator. -/
theorem roundsTo_ofScaled (negative : Bool) (digits : Nat) (power : Int) :
    RoundsTo negative (digits * 10 ^ power) (ofScaled negative digits power) := by
  rw [ofScaled]
  split
  · next hpower =>
    have hround := roundsTo_ofRatio negative (digits * Nat.pow 10 power.toNat) Nat.one_pos
    rw [Nat.cast_mul, cast_pow_toNat 10 hpower, Nat.cast_one, div_one] at hround
    exact hround
  · next hpower =>
    have hpos : 0 < Nat.pow 10 (-power).toNat := Nat.pow_pos (by decide)
    have hround := roundsTo_ofRatio negative digits hpos
    rw [cast_pow_toNat 10 (by omega), zpow_neg, div_inv_eq_mul] at hround
    exact hround

/-- **Decimals.** What a decimal is rounded to is the number of its sign and the nearest magnitude. -/
theorem ofScaled_eq_iff {x : Binary64} {digits : Nat} {power : Int} :
    ofScaled negative digits power = x ↔ RoundsTo negative (digits * 10 ^ power) x := by
  constructor
  · rintro rfl
    exact roundsTo_ofScaled negative digits power
  · intro hx
    exact (roundsTo_ofScaled negative digits power).unique hx

end LispObjects.Binary64
