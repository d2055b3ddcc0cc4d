import LispObjects.Proofs.Binary64.Nearest

namespace LispObjects.Binary64

/-!
# The shortest decimal reads back

* `expansion_eq` — the exact expansion of a finite number is its magnitude;
* `readsBack_of_onGrid`, `readsBack_search` — what a grid offers reads back, and so does what the search
  ends with, on a grid or with the expansion;
* `roundsTo_shortest` — every finite number is what its shortest decimal is rounded to;
* `le_shortest_snd` — no grid that is looked at is finer than the smallest number needs.
-/

variable {x : Binary64} {tie : Tie} {digits num den count k : Nat} {power bound : Int}

/-- The number is what a decimal is rounded to exactly if the decimal has its sign and its magnitude is the
nearest one. -/
theorem readsBack_iff :
    readsBack x digits power = true ↔ RoundsTo x.isNegative (digits * 10 ^ power) x := by
  rw [readsBack, beq_iff_eq, ofScaled_eq_iff]

/-- A finite number is rounded to itself. -/
theorem roundsTo_self (hfinite : x.isFinite = true) :
    RoundsTo x.isNegative (magnitude x.magnitudeBits) x :=
  ⟨rfl, isNearest_magnitude (Nat.le_of_lt (isFinite_iff.mp hfinite))⟩

/-- **Expansion.** A power of two is a whole number, or a power of five in units of a power of ten. -/
theorem expansion_eq (x : Binary64) :
    x.expansion.1 * 10 ^ x.expansion.2 = magnitude x.magnitudeBits := by
  rw [magnitude_magnitudeBits, expansion]
  split
  · next hq =>
    rw [Nat.cast_mul, cast_pow_toNat 2 hq, zpow_zero, mul_one, Nat.cast_ofNat]
  · next hq =>
    -- a negative power of two is a power of five, so many places to the right
    have hten : (10 : ℚ) ^ x.exponent = 5 ^ x.exponent * 2 ^ x.exponent := by
      rw [← mul_zpow]
      norm_num
    have hfive : (5 : ℚ) ^ (-x.exponent) * 5 ^ x.exponent = 1 := by
      rw [← zpow_add₀ (by norm_num), neg_add_cancel, zpow_zero]
    rw [Nat.cast_mul, cast_pow_toNat 5 (by omega), Nat.cast_ofNat, hten, mul_assoc, ← mul_assoc (5 ^ _),
      hfive, one_mul]

/-- The whole expansion is read back, so the search has something to find. -/
theorem readsBack_expansion (hfinite : x.isFinite = true) :
    readsBack x x.expansion.1 x.expansion.2 = true := by
  rw [readsBack_iff, expansion_eq]
  exact roundsTo_self hfinite

/-- A neighbour is taken only if it reads back. -/
theorem readsBack_of_onGrid (h : onGrid tie x power = some digits) : readsBack x digits power = true := by
  simp only [onGrid] at h
  split at h
  · next hhigh =>
    obtain rfl := Option.some.inj h
    exact (Bool.and_eq_true_iff.mp hhigh).1
  · split at h
    · next hlow =>
      obtain rfl := Option.some.inj h
      exact hlow
    · cases h

/-- **Search.** It ends on a grid or with the expansion, however many grids it tries. -/
theorem readsBack_search (hfinite : x.isFinite = true) (tie : Tie) (power : Int) (count : Nat) :
    readsBack x (search tie x power count).1 (search tie x power count).2 = true := by
  induction count generalizing power with
  | zero => exact readsBack_expansion hfinite
  | succ count ih =>
    rw [search]
    split
    · next hgrid => exact readsBack_of_onGrid hgrid
    · exact ih (power - 1)

/-- **Shortest decimals** of finite numbers read back. -/
theorem roundsTo_shortest (hfinite : x.isFinite = true) (tie : Tie) :
    RoundsTo x.isNegative ((shortest tie x).1 * 10 ^ (shortest tie x).2) x := by
  rw [shortest]
  split
  · next hzero =>
    have hself := roundsTo_self hfinite
    rw [isZero_iff.mp hzero, magnitude_zero] at hself
    rwa [Nat.cast_zero, zero_mul]
  · exact readsBack_iff.mp (readsBack_search hfinite tie _ _)

/-- The decimal of a zero is zero. -/
theorem shortest_of_isZero (hzero : x.isZero = true) (tie : Tie) : shortest tie x = (0, 0) := by
  rw [shortest, if_pos hzero]

/-! ### The finest grid -/

/-- No number has a smaller unit than the least one. -/
theorem neg_le_exponent (x : Binary64) : -1074 ≤ x.exponent := by
  rw [exponent]
  split <;> omega

/-- The search for a quotient begins no lower than its denominator says. -/
theorem neg_le_floorLog10 (hk : 0 < k) (hpos : 0 < den) (h : den ≤ 10 ^ k) :
    -(k : ℤ) ≤ floorLog10 num den := by
  rw [floorLog10]
  split
  · have hdigits : 0 < (Nat.toDigits 10 (num / den)).length := Nat.length_toDigits_pos
    omega
  · have hlt : (den - 1) / num < 10 ^ k :=
      (Nat.div_le_self _ _).trans_lt (by omega)
    have hlength := (Nat.length_toDigits_le_iff (by decide) hk).mpr hlt
    omega

/-- The search goes down one power at a time, and falls back on the whole expansion. -/
theorem le_search_snd (hexpansion : bound ≤ x.expansion.2) (h : bound ≤ power - count) :
    bound ≤ (search tie x power count).2 := by
  induction count generalizing power with
  | zero => exact hexpansion
  | succ count ih =>
    rw [search]
    split
    · omega
    · exact ih (by omega)

/-- A number is a ratio with a denominator that is not zero. -/
theorem ratio_snd_pos (x : Binary64) : 0 < x.ratio.2 := by
  rw [ratio]
  split
  · exact Nat.one_pos
  · exact Nat.two_pow_pos _

/-- The denominator of a magnitude is a power of two, and of ten a larger one. -/
theorem ratio_snd_le (x : Binary64) : x.ratio.2 ≤ 10 ^ (-x.exponent).toNat := by
  rw [ratio]
  split
  · exact Nat.one_le_pow _ _ (by decide)
  · exact Nat.pow_le_pow_left (by decide) _

/-- **The finest grid.** No finer one is looked at, though far coarser ones would do. -/
theorem le_shortest_snd (tie : Tie) (x : Binary64) : -1092 ≤ (shortest tie x).2 := by
  have hexponent := x.neg_le_exponent
  have hexpansion : -1092 ≤ x.expansion.2 := by
    rw [expansion]
    split <;> (simp only; omega)
  have hlog : -((((-x.exponent).toNat + 1 : Nat)) : ℤ) ≤ floorLog10 x.ratio.1 x.ratio.2 :=
    neg_le_floorLog10 (Nat.succ_pos _) x.ratio_snd_pos
      (x.ratio_snd_le.trans (Nat.pow_le_pow_right (by decide) (Nat.le_succ _)))
  rw [shortest]
  split
  · decide
  · exact le_search_snd hexpansion (by omega)

end LispObjects.Binary64
