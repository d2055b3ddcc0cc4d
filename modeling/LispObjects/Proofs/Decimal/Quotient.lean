import LispObjects.Proofs.Decimal.Value
import Mathlib.Algebra.Order.Ring.Abs
import Mathlib.Tactic.Positivity

namespace LispObjects.Decimal

/-!
# Rounded quotients

A quotient is taken to a given number of places, to the nearest number that has them, and a half goes
away from zero.

* `IsHalfAway` — a whole number is a quotient of whole numbers, so rounded;
* `roundHalfAway_eq` — a division with a look at the remainder is the same as one division of magnitudes;
* `roundHalfAway_eq_iff` — `roundHalfAway` gives the one number that is so rounded;
* `div?_eq_some_iff` — a quotient of decimals is the one number of so many places that is nearest, a
  half away from zero, if the places of the dividend can be counted;
* `quotientLaws` — with what it is otherwise, and with what follows for signs and for exact quotients;
* `not_isQuotient_of_overflow` — a number that is not one when it is divided by itself.
-/

variable {a b q : Decimal} {num den m n : ℤ} {x y : ℚ} {places shift : Nat}

/-! ### Whole numbers -/

/-- The whole number `m` is the quotient `num / den` rounded to the nearest, a half away from zero. -/
structure IsHalfAway (num den m : ℤ) : Prop where
  nearest : 2 * |m * den - num| ≤ |den|
  away : 2 * |m * den - num| = |den| → |num| < |m * den|

/-- The nearest number to a quotient of magnitudes, the greater one of two. -/
theorem halfAway_natDiv (n : Nat) {d : Nat} (hd : 0 < d) :
    2 * ((2 * n + d) / (2 * d) * d) ≤ 2 * n + d ∧ 2 * n < 2 * ((2 * n + d) / (2 * d) * d) + d := by
  have hdiv := Nat.div_add_mod (2 * n + d) (2 * d)
  have hmod := Nat.mod_lt (2 * n + d) (show 0 < 2 * d by omega)
  have hassoc : 2 * d * ((2 * n + d) / (2 * d)) = 2 * ((2 * n + d) / (2 * d) * d) := by ring
  rw [hassoc] at hdiv
  omega

/-- A quotient of magnitudes that is one more if the remainder is at least half of the divisor. -/
theorem halfAway_natDiv_eq (n : Nat) {d : Nat} (hd : 0 < d) :
    (2 * n + d) / (2 * d) = if d ≤ n % d * 2 then n / d + 1 else n / d := by
  -- both quotients are compared at twice the divisor
  have hsplit := Nat.div_add_mod n d
  have hmod := Nat.mod_lt n hd
  split
  · next hle =>
    refine Nat.div_eq_of_lt_le ?_ ?_
    · calc (n / d + 1) * (2 * d) = 2 * (d * (n / d)) + 2 * d := by ring
        _ ≤ 2 * n + d := by omega
    · calc 2 * n + d < 2 * (d * (n / d)) + 4 * d := by omega
        _ = (n / d + 1 + 1) * (2 * d) := by ring
  · next hlt =>
    refine Nat.div_eq_of_lt_le ?_ ?_
    · calc n / d * (2 * d) = 2 * (d * (n / d)) := by ring
        _ ≤ 2 * n + d := by omega
    · calc 2 * n + d < 2 * (d * (n / d)) + 2 * d := by omega
        _ = (n / d + 1) * (2 * d) := by ring

/-- The quotient toward zero is that of the magnitudes, with the signs put together. -/
theorem tdiv_eq_sign_mul (num den : ℤ) :
    num.tdiv den = num.sign * den.sign * (num.natAbs / den.natAbs : Nat) := by
  have hnatAbs : (num.tdiv den).natAbs = num.natAbs / den.natAbs := Int.natAbs_tdiv num den
  rw [← Int.sign_mul_natAbs (num.tdiv den), hnatAbs, Int.sign_tdiv]
  split
  · next hlt => rw [Nat.div_eq_of_lt hlt, Nat.cast_zero, mul_zero, mul_zero]
  · rfl

/-- **In one division.** The quotient with its remainder looked at is a quotient of magnitudes to which a
half is added first, with the signs put together. -/
theorem roundHalfAway_eq (hden : den ≠ 0) (num : ℤ) :
    roundHalfAway num den =
      num.sign * den.sign * ((2 * num.natAbs + den.natAbs) / (2 * den.natAbs) : Nat) := by
  have hpos := Int.natAbs_pos.mpr hden
  simp only [roundHalfAway, Int.natAbs_tmod, tdiv_eq_sign_mul, halfAway_natDiv_eq num.natAbs hpos]
  split
  · next hle =>
    -- the remainder is not zero, so the dividend has a sign, and the step is in the quotient's direction
    have hnum : num ≠ 0 := by
      rintro rfl
      rw [Int.natAbs_zero, Nat.zero_mod] at hle
      omega
    rcases lt_or_gt_of_ne hnum with hn | hn <;> rcases lt_or_gt_of_ne hden with hd | hd <;>
      simp [Int.sign_eq_neg_one_of_neg, Int.sign_eq_one_of_pos, hn, hd, hn.le, hd.le] <;> omega
  · rfl

/-- The rounded quotient times the divisor has the sign of the dividend. -/
theorem roundHalfAway_mul (hden : den ≠ 0) (num : ℤ) :
    roundHalfAway num den * den =
      num.sign * (((2 * num.natAbs + den.natAbs) / (2 * den.natAbs) * den.natAbs : Nat) : ℤ) := by
  have hsign : den.sign * den = den.natAbs := Int.sign_mul_self_eq_natAbs den
  rw [roundHalfAway_eq hden, Nat.cast_mul, ← hsign]
  ring

/-- The sign can be taken from the dividend to the quotient. -/
theorem roundHalfAway_neg_left (hden : den ≠ 0) (num : ℤ) :
    roundHalfAway (-num) den = -roundHalfAway num den := by
  rw [roundHalfAway_eq hden, roundHalfAway_eq hden, Int.sign_neg, Int.natAbs_neg, neg_mul, neg_mul]

/-- The sign of the divisor can be taken to the quotient. -/
theorem roundHalfAway_neg_right (hden : den ≠ 0) (num : ℤ) :
    roundHalfAway num (-den) = -roundHalfAway num den := by
  rw [roundHalfAway_eq hden, roundHalfAway_eq (neg_ne_zero.mpr hden), Int.sign_neg, Int.natAbs_neg,
    mul_neg, neg_mul]

/-- **Rounding** gives a nearest whole number, of two the one that is further from zero. -/
theorem isHalfAway_roundHalfAway (hden : den ≠ 0) (num : ℤ) :
    IsHalfAway num den (roundHalfAway num den) := by
  obtain ⟨hle, hlt⟩ := halfAway_natDiv num.natAbs (Int.natAbs_pos.mpr hden)
  have hmul := roundHalfAway_mul hden num
  generalize (2 * num.natAbs + den.natAbs) / (2 * den.natAbs) * den.natAbs = p at hle hlt hmul
  -- so the magnitudes are compared, on both sides of zero
  have hsign : num < 0 ∧ roundHalfAway num den * den = -p ∨
      num = 0 ∧ roundHalfAway num den * den = 0 ∨ 0 < num ∧ roundHalfAway num den * den = p := by
    rcases lt_trichotomy num 0 with hneg | hzero | hpos
    · rw [Int.sign_eq_neg_one_of_neg hneg] at hmul
      exact .inl ⟨hneg, by omega⟩
    · rw [hzero, Int.sign_zero, zero_mul] at hmul
      exact .inr (.inl ⟨hzero, by rw [hzero, hmul]⟩)
    · rw [Int.sign_eq_one_of_pos hpos, one_mul] at hmul
      exact .inr (.inr ⟨hpos, hmul⟩)
  constructor
  · rw [Int.abs_eq_natAbs, Int.abs_eq_natAbs]
    omega
  · rw [Int.abs_eq_natAbs, Int.abs_eq_natAbs, Int.abs_eq_natAbs, Int.abs_eq_natAbs]
    omega

/-- Of two neighbours that are equally near only one is further from zero than the quotient. -/
theorem IsHalfAway.not_succ (hden : 0 < den) (h : IsHalfAway num den m) :
    ¬ IsHalfAway num den (m + 1) := by
  intro h'
  have hnear := h.nearest
  have hnear' := h'.nearest
  have haway := h.away
  have haway' := h'.away
  have hmul : (m + 1) * den = m * den + den := by ring
  rw [hmul] at hnear' haway'
  rw [abs_of_pos hden] at *
  -- the quotient is half way between them
  have hhalf : 2 * num = 2 * (m * den) + den := by
    rw [Int.abs_eq_natAbs] at hnear hnear'
    omega
  have hfirst : |num| < |m * den| := haway (by rw [Int.abs_eq_natAbs]; omega)
  have hsecond : |num| < |m * den + den| := haway' (by rw [Int.abs_eq_natAbs]; omega)
  rw [Int.abs_eq_natAbs, Int.abs_eq_natAbs] at hfirst hsecond
  -- and a whole multiple of the divisor is not a fraction of it
  rcases le_or_gt 0 m with hm | hm
  · have hpos : 0 ≤ m * den := by positivity
    omega
  · have hneg : (m + 1) * den ≤ 0 := Int.mul_nonpos_of_nonpos_of_nonneg (by omega) hden.le
    omega

/-- The sign can be taken from the divisor to the quotient. -/
theorem IsHalfAway.neg_den (h : IsHalfAway num den m) : IsHalfAway num (-den) (-m) := by
  have hmul : -m * -den = m * den := by ring
  constructor
  · rw [hmul, abs_neg]
    exact h.nearest
  · rw [hmul, abs_neg]
    exact h.away

/-- Nearest numbers are at most one apart. -/
theorem IsHalfAway.le_succ (hden : 0 < den) (h : IsHalfAway num den m)
    (h' : IsHalfAway num den n) : n ≤ m + 1 := by
  have hnear := h.nearest
  have hnear' := h'.nearest
  rw [abs_of_pos hden, Int.abs_eq_natAbs] at hnear hnear'
  by_contra hlt
  have hmul : (m + 2) * den ≤ n * den := Int.mul_le_mul_of_nonneg_right (by omega) hden.le
  have hsum : (m + 2) * den = m * den + 2 * den := by ring
  omega

/-- **Uniqueness.** There is only one such number. -/
theorem IsHalfAway.unique (hden : den ≠ 0) (h : IsHalfAway num den m)
    (h' : IsHalfAway num den n) : m = n := by
  -- for a positive divisor, from which the other case follows
  have hpositive : ∀ {den m n : ℤ}, 0 < den → IsHalfAway num den m → IsHalfAway num den n →
      m = n := by
    intro den m n hden h h'
    have hle := h.le_succ hden h'
    have hle' := h'.le_succ hden h
    have hne : n ≠ m + 1 := fun hn => h.not_succ hden (hn ▸ h')
    have hne' : m ≠ n + 1 := fun hm => h'.not_succ hden (hm ▸ h)
    omega
  rcases lt_or_gt_of_ne hden with hneg | hpos
  · exact neg_inj.mp (hpositive (by omega) h.neg_den h'.neg_den)
  · exact hpositive hpos h h'

/-- `roundHalfAway` gives the one number that is rounded so. -/
theorem roundHalfAway_eq_iff (hden : den ≠ 0) : roundHalfAway num den = m ↔ IsHalfAway num den m :=
  ⟨fun h => h ▸ isHalfAway_roundHalfAway hden num,
    fun h => (isHalfAway_roundHalfAway hden num).unique hden h⟩

/-- **Units.** Numbers are in the same proportion as they are when each is taken in another unit. -/
theorem isHalfAway_iff_of_units {x y z u t : ℚ} (hu : 0 < u) (ht : 0 < t)
    (hnum : (num : ℚ) = x * u * t) (hden : (den : ℚ) = y * t) (hm : (m : ℚ) = z * u) :
    IsHalfAway num den m ↔
      2 * |z * y - x| * u ≤ |y| ∧ (2 * |z * y - x| * u = |y| → |x| < |z * y|) := by
  have hproduct : ((m * den : ℤ) : ℚ) = z * y * (u * t) := by
    rw [Int.cast_mul, hm, hden]
    ring
  have hdistance : ((2 * |m * den - num| : ℤ) : ℚ) = 2 * |z * y - x| * u * t := by
    rw [Int.cast_mul, Int.cast_abs, Int.cast_sub, hproduct, hnum, mul_assoc x, ← sub_mul, abs_mul,
      abs_of_pos (mul_pos hu ht)]
    push_cast
    ring
  have hmagnitude : ((|den| : ℤ) : ℚ) = |y| * t := by
    rw [Int.cast_abs, hden, abs_mul, abs_of_pos ht]
  have hnearest : 2 * |m * den - num| ≤ |den| ↔ 2 * |z * y - x| * u ≤ |y| := by
    rw [← Int.cast_le (R := ℚ), hdistance, hmagnitude, mul_le_mul_iff_left₀ ht]
  have htie : 2 * |m * den - num| = |den| ↔ 2 * |z * y - x| * u = |y| := by
    rw [← @Int.cast_inj ℚ, hdistance, hmagnitude, mul_left_inj' ht.ne']
  have haway : |num| < |m * den| ↔ |x| < |z * y| := by
    rw [← Int.cast_lt (R := ℚ), Int.cast_abs, Int.cast_abs, hnum, hproduct, mul_assoc x, abs_mul,
      abs_mul (z * y), abs_of_pos (mul_pos hu ht), mul_lt_mul_iff_left₀ (mul_pos hu ht)]
  -- all three comparisons are of integers in the same units, and the units cancel
  constructor
  · intro h
    exact ⟨hnearest.mp h.nearest, fun heq => haway.mp (h.away (htie.mpr heq))⟩
  · rintro ⟨hle, hlt⟩
    exact ⟨hnearest.mpr hle, fun heq => haway.mpr (hlt (htie.mp heq))⟩

/-! ### Decimals -/

/-- `q` is the quotient of `x` and `y` to the nearest number of `places` places, a half away from
    zero. -/
structure IsQuotient (x y : ℚ) (q : Decimal) (places : Nat) : Prop where
  scale_le : q.scale ≤ places
  nearest : 2 * |q.toRat * y - x| * 10 ^ places ≤ |y|
  away : 2 * |q.toRat * y - x| * 10 ^ places = |y| → |x| < |q.toRat * y|

/-- As many places as a number has make its mantissa of it. -/
theorem scaledRat_mul_ten_pow (m : ℤ) (s : Nat) : scaledRat m s * 10 ^ s = m := by
  have hpow : (10 : ℚ) ^ s ≠ 0 := by positivity
  rw [scaledRat, zpow_neg, zpow_natCast, inv_mul_cancel_right₀ hpow]

/-- A decimal is zero if its mantissa is. -/
theorem toRat_eq_zero_iff : a.toRat = 0 ↔ a.mantissa = 0 := by
  rw [toRat, ← scaledRat_zero_left a.scale, scaledRat_left_inj]

/-- The quotient is the rounded one of two whole numbers, which are the dividend, with as many more
    places as are asked for, and the divisor in one unit. -/
theorem isQuotient_iff_isHalfAway (hx : a.toRat * 10 ^ shift = x * 10 ^ (b.scale + places))
    (hq : q.toRat = scaledRat m places) :
    IsQuotient x b.toRat q places ↔
      IsHalfAway (a.mantissa * 10 ^ shift) (b.mantissa * 10 ^ a.scale) m := by
  have hnum : ((a.mantissa * 10 ^ shift : ℤ) : ℚ) = x * 10 ^ places * 10 ^ (a.scale + b.scale) := by
    push_cast
    calc (a.mantissa : ℚ) * 10 ^ shift = a.toRat * 10 ^ shift * 10 ^ a.scale := by
          rw [toRat, mul_right_comm, scaledRat_mul_ten_pow]
      _ = x * 10 ^ places * 10 ^ (a.scale + b.scale) := by
          rw [hx]
          ring
  have hden : ((b.mantissa * 10 ^ a.scale : ℤ) : ℚ) = b.toRat * 10 ^ (a.scale + b.scale) := by
    push_cast
    rw [← scaledRat_mul_ten_pow b.mantissa b.scale, ← toRat]
    ring
  have hm : (m : ℚ) = q.toRat * 10 ^ places := by
    rw [hq, scaledRat_mul_ten_pow]
  -- the units are those of the quotient, and of both scales in numerator and denominator
  rw [isHalfAway_iff_of_units (by positivity) (by positivity) hnum hden hm]
  constructor
  · intro h
    exact ⟨h.nearest, h.away⟩
  · rintro ⟨hnearest, haway⟩
    exact ⟨scale_le_of_toRat_eq hq, hnearest, haway⟩

/-- There is a quotient exactly if the divisor is not zero. -/
theorem div?_eq_none_iff : a.div? b places = none ↔ b.toRat = 0 := by
  rw [toRat_eq_zero_iff, div?, isZero]
  by_cases hb : b.mantissa = 0 <;> simp [hb]

/-- A quotient by a number other than zero is the rounded quotient of the mantissas. -/
theorem div?_of_ne_zero (hb : b.mantissa ≠ 0) (a : Decimal) (places : Nat) :
    a.div? b places = some (ofScaled (roundHalfAway (a.mantissa * 10 ^ ((b.scale + places) % scaleBound))
      (b.mantissa * 10 ^ a.scale)) places) := by
  have hzero : b.isZero = false := beq_eq_false_iff_ne.mpr hb
  rw [div?, hzero]
  rfl

/-- The places of the dividend can be counted, or there is no quotient. -/
theorem quotientOverflows_eq_false_iff :
    quotientOverflows b places = false ↔ b.toRat = 0 ∨ b.scale + places < scaleBound := by
  rw [quotientOverflows, toRat_eq_zero_iff, isZero, Bool.and_eq_false_iff, Bool.not_eq_false', beq_iff_eq,
    decide_eq_false_iff_not, Nat.not_le]

/-- The quotient is that of another dividend, if this one is given fewer places than are asked for. -/
theorem div?_eq_some_iff_of_shift
    (hx : a.toRat * 10 ^ ((b.scale + places) % scaleBound) = x * 10 ^ (b.scale + places)) :
    a.div? b places = some q ↔ b.toRat ≠ 0 ∧ IsQuotient x b.toRat q places := by
  by_cases hb : b.mantissa = 0
  · have hzero := toRat_eq_zero_iff.mpr hb
    rw [div?_eq_none_iff.mpr hzero]
    exact iff_of_false nofun fun h => h.1 hzero
  have hden : b.mantissa * 10 ^ a.scale ≠ 0 := mul_ne_zero hb (by positivity)
  rw [and_iff_right (toRat_eq_zero_iff.not.mpr hb), div?_of_ne_zero hb, Option.some.injEq]
  constructor
  · rintro rfl
    exact (isQuotient_iff_isHalfAway hx (toRat_ofScaled _ _)).mpr (isHalfAway_roundHalfAway hden _)
  · intro h
    -- what has no more places than that is a whole number of the last of them
    have hq : q.toRat = scaledRat (q.mantissaAt places) places :=
      (scaledRat_mantissaAt h.scale_le).symm
    rw [(roundHalfAway_eq_iff hden).mpr ((isQuotient_iff_isHalfAway hx hq).mp h)]
    apply toRat_injective
    rw [toRat_ofScaled, hq]

/-- **Quotients.** The quotient to so many places is the one number of as many places that is
    nearest, a half away from zero; there is one exactly if the divisor is not zero. -/
theorem div?_eq_some_iff (hfits : quotientOverflows b places = false) :
    a.div? b places = some q ↔ b.toRat ≠ 0 ∧ IsQuotient a.toRat b.toRat q places := by
  rcases quotientOverflows_eq_false_iff.mp hfits with hzero | hlt
  · rw [div?_eq_none_iff.mpr hzero]
    exact iff_of_false nofun fun h => h.1 hzero
  · apply div?_eq_some_iff_of_shift
    rw [Nat.mod_eq_of_lt hlt]

/-- **Too many places.** Where the count wraps around, the dividend is taken for as many places smaller. -/
theorem div?_eq_some_iff_of_overflow (hle : scaleBound ≤ b.scale + places)
    (hlt : b.scale + places < 2 * scaleBound) :
    a.div? b places = some q ↔
      b.toRat ≠ 0 ∧ IsQuotient (a.toRat / 10 ^ scaleBound) b.toRat q places := by
  apply div?_eq_some_iff_of_shift
  obtain ⟨rest, hrest⟩ := Nat.exists_eq_add_of_le hle
  have hpow : (10 : ℚ) ^ scaleBound ≠ 0 := pow_ne_zero _ (by norm_num)
  rw [hrest, Nat.add_mod_left, Nat.mod_eq_of_lt (by omega), pow_add, ← mul_assoc, div_mul_cancel₀ _ hpow]

/-! ### Signs and exact quotients -/

/-- A number is scaled with its sign. -/
theorem ofScaled_neg (m : ℤ) (s : Nat) : ofScaled (-m) s = (ofScaled m s).neg := by
  apply toRat_injective
  rw [toRat_neg, toRat_ofScaled, toRat_ofScaled, scaledRat_neg]

/-- The sign can be taken from the dividend to the quotient, whether the places can be counted or not. -/
theorem div?_neg_left (a b : Decimal) (places : Nat) :
    a.neg.div? b places = (a.div? b places).map neg := by
  by_cases hb : b.mantissa = 0
  · have hzero := toRat_eq_zero_iff.mpr hb
    rw [div?_eq_none_iff.mpr hzero, div?_eq_none_iff.mpr hzero]
    rfl
  · have hden : b.mantissa * 10 ^ a.scale ≠ 0 := mul_ne_zero hb (by positivity)
    have hneg : a.neg.mantissa = -a.mantissa := rfl
    have hscale : a.neg.scale = a.scale := rfl
    rw [div?_of_ne_zero hb, div?_of_ne_zero hb, hneg, hscale, neg_mul, roundHalfAway_neg_left hden,
      ofScaled_neg]
    rfl

/-- The sign of the divisor can be taken to the quotient. -/
theorem div?_neg_right (a b : Decimal) (places : Nat) :
    a.div? b.neg places = (a.div? b places).map neg := by
  have hneg : b.neg.mantissa = -b.mantissa := rfl
  by_cases hb : b.mantissa = 0
  · have hzero := toRat_eq_zero_iff.mpr hb
    have hzero' : b.neg.toRat = 0 := by rw [toRat_neg, hzero, neg_zero]
    rw [div?_eq_none_iff.mpr hzero, div?_eq_none_iff.mpr hzero']
    rfl
  -- the sign of the divisor is that of the denominator, and rounding keeps it
  · have hden : b.mantissa * 10 ^ a.scale ≠ 0 := mul_ne_zero hb (by positivity)
    have hb' : b.neg.mantissa ≠ 0 := neg_ne_zero.mpr hb
    have hscale : b.neg.scale = b.scale := rfl
    rw [div?_of_ne_zero hb, div?_of_ne_zero hb', hneg, hscale, neg_mul, roundHalfAway_neg_right hden,
      ofScaled_neg]
    rfl

/-- A number is the quotient of its product and the factor, if it has no more places. -/
theorem isQuotient_mul (hb : b.toRat ≠ 0) (h : a.scale ≤ places) :
    IsQuotient (a.mul b).toRat b.toRat a places := by
  have hdistance : 2 * |a.toRat * b.toRat - (a.mul b).toRat| * 10 ^ places = 0 := by
    rw [toRat_mul, sub_self, abs_zero, mul_zero, zero_mul]
  refine ⟨h, ?_, fun htie => ?_⟩
  · rw [hdistance]
    exact abs_nonneg _
  · rw [hdistance] at htie
    exact absurd (abs_eq_zero.mp htie.symm) hb

/-- What holds of the quotient of two decimals to so many places. -/
structure QuotientLaws (a b : Decimal) (places : Nat) : Prop where
  none_iff : a.div? b places = none ↔ b.toRat = 0
  /-- The places of the dividend are counted in 32 bits. -/
  overflows_iff : quotientOverflows b places = true ↔ b.toRat ≠ 0 ∧ 2 ^ 32 ≤ b.scale + places
  /-- The quotient is the rounded one if they fit, -/
  some_iff : quotientOverflows b places = false → ∀ q,
    (a.div? b places = some q ↔ b.toRat ≠ 0 ∧ IsQuotient a.toRat b.toRat q places)
  /-- and that of a much smaller number else, if the computation goes on at all. -/
  overflow_iff : quotientOverflows b places = true → b.scale < 2 ^ 32 → places < 2 ^ 32 → ∀ q,
    (a.div? b places = some q ↔ IsQuotient (a.toRat / 10 ^ scaleBound) b.toRat q places)
  neg_left : a.neg.div? b places = (a.div? b places).map neg
  neg_right : a.div? b.neg places = (a.div? b places).map neg
  /-- A quotient that has no more places is exact. -/
  mul_div : quotientOverflows b places = false → b.toRat ≠ 0 → a.scale ≤ places →
    (a.mul b).div? b places = some a

/-- **Rounded quotients**, of all decimals and to any number of places. -/
theorem quotientLaws (a b : Decimal) (places : Nat) : QuotientLaws a b places := by
  have hoverflows : quotientOverflows b places = true ↔ b.toRat ≠ 0 ∧ 2 ^ 32 ≤ b.scale + places := by
    rw [← Bool.not_eq_false, quotientOverflows_eq_false_iff, not_or, Nat.not_lt, scaleBound_eq]
  refine ⟨div?_eq_none_iff, hoverflows, fun hfits _ => div?_eq_some_iff hfits, ?_, div?_neg_left a b places,
    div?_neg_right a b places, ?_⟩
  · intro h hscale hplaces q
    obtain ⟨hb, hle⟩ := hoverflows.mp h
    -- two scales of 32 bits wrap around at most once
    have hlt : b.scale + places < 2 * scaleBound := by
      rw [scaleBound_eq]
      omega
    rw [div?_eq_some_iff_of_overflow (scaleBound_eq ▸ hle) hlt, and_iff_right hb]
  · intro hfits hb h
    exact (div?_eq_some_iff hfits).mpr ⟨hb, isQuotient_mul hb h⟩

/-- A half goes away from zero on both sides of it. -/
example : (ofInt (-5)).div? (ofInt 2) 0 = some (ofInt (-3)) := by decide

/-- The number 0.1. -/
def oneTenth : Decimal :=
  ⟨1, 1, .inr (by decide)⟩

/-- **A number divided by itself.** One more place than can be counted makes a zero of the quotient. -/
theorem not_isQuotient_of_overflow :
    quotientOverflows oneTenth 4294967295 = true ∧
      oneTenth.div? oneTenth 4294967295 = some (ofInt 0) ∧ oneTenth.toRat ≠ 0 ∧
      ¬ IsQuotient oneTenth.toRat oneTenth.toRat (ofInt 0) 4294967295 := by
  have hvalue : oneTenth.toRat = 1 / 10 := by
    rw [toRat, scaledRat, oneTenth]
    norm_num
  refine ⟨by decide, by decide, ?_, ?_⟩
  · rw [hvalue]
    norm_num
  · -- the number itself is the error, and it is taken at least once
    rintro ⟨-, hnearest, -⟩
    have hzero : (ofInt 0).toRat = 0 := by rw [toRat_ofInt, Int.cast_zero]
    generalize 4294967295 = places at hnearest
    have hpow : (1 : ℚ) ≤ 10 ^ places := one_le_pow₀ (by norm_num)
    rw [hzero, hvalue, zero_mul, zero_sub, abs_neg, abs_of_pos (by norm_num)] at hnearest
    linarith

end LispObjects.Decimal
