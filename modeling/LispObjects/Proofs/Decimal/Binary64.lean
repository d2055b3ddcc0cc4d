import LispObjects.Decimal.Float
import LispObjects.Proofs.Binary64.Shortest
import LispObjects.Proofs.Decimal.Literal
import LispObjects.Proofs.Decimal.Order

namespace LispObjects.Decimal

open Text Binary64

/-!
# Double-precision numbers as decimals

A finite number becomes a decimal that is rounded to the number again.  The decimal is read from what a
printer of double-precision numbers prints, and goes back through a reader of them; both are parameters here,
and so is what is known of them.

* `Prints`, `Reads` — the printer's texts denote decimals that are rounded to the numbers, and the reader
  rounds to the nearest number, a tie to the even one;
* `ofBinary64With`, `toBinary64With` — the conversions by way of the texts; `toBinary64With_eq`: the way back
  is rounding;
* `StandsFor` — a decimal that is rounded to the number; `StandsFor.eq_of_roundsTo`: what it is rounded to;
* `binary64_roundTrip` — the numbers that become decimals are the finite ones, and they come back;
* `prints_toPlain`, `reads_nearestOfText` — such a printer and such a reader;
* `comesBack_shortest` — the same of the digits that are found without a printer.
-/

variable {x y : Binary64} {d : Decimal} {d? : Option Decimal} {back : Decimal → Binary64}
  {print : Binary64 → String} {read : String → Option Binary64} {whole fraction : List Char}
  {negative : Bool} {v : ℚ}

/-! ### Texts of numbers -/

/-- The literal is rounded to the number, and is zero for a zero.  No number needs an exponent of more than
three digits, or more places than there are scales. -/
structure PrintedAs (l : Literal) (x : Binary64) : Prop where
  exponent : l.exponent.natAbs < 1000
  scale : l.places - l.exponent < scaleBound
  rounds : RoundsTo l.sign.isMinus |l.value| x
  zero : x.isZero = true → l.value = 0

/-- The printer prints the finite numbers as literals that are rounded to them. -/
def Prints (print : Binary64 → String) : Prop :=
  ∀ x, x.isFinite = true → ∃ l, (print x).toList = l.text ∧ PrintedAs l x

/-- The reader reads literals without an exponent, and rounds them. -/
def Reads (read : String → Option Binary64) : Prop :=
  ∀ l : Literal, l.exponent? = none →
    ∃ x, read (String.ofList l.text) = some x ∧ RoundsTo l.sign.isMinus |l.value| x

/-- A finite number by way of its text. -/
def ofBinary64With (print : Binary64 → String) (x : Binary64) : Option Decimal :=
  if x.isFinite then (ofString (print x)).toOption else none

/-- The number that the decimal's text is read as, and no number if it is not read. -/
def toBinary64With (read : String → Option Binary64) (d : Decimal) : Binary64 :=
  (read (toString d)).getD ⟨0x7ff8000000000000⟩

/-! ### Rounding decimals -/

/-- A decimal is negative if its value is. -/
theorem isNegative_iff : d.isNegative = true ↔ d.toRat < 0 := by
  rw [isNegative, decide_eq_true_eq, toRat, ← scaledRat_zero_left d.scale, scaledRat_lt_scaledRat]

/-- The size of a decimal is that of its mantissa at its scale. -/
theorem abs_toRat (d : Decimal) : |d.toRat| = d.mantissa.natAbs * 10 ^ (-(d.scale : ℤ)) := by
  have hunit : (0 : ℚ) < 10 ^ (-(d.scale : ℤ)) := by positivity
  rw [toRat, scaledRat, abs_mul, abs_of_pos hunit, ← Int.cast_abs, Int.abs_eq_natAbs, Int.cast_natCast]

/-- The host number for a decimal is the nearest to it, with its sign. -/
theorem roundsTo_toBinary64 (d : Decimal) : RoundsTo d.isNegative |d.toRat| d.toBinary64 := by
  rw [abs_toRat]
  exact roundsTo_ofScaled d.isNegative d.mantissa.natAbs (-d.scale)

/-- The magnitude of a literal is that of its digits. -/
theorem Literal.abs_value (l : Literal) :
    |l.value| = digitsValue (l.body.whole ++ l.body.fraction) * 10 ^ (l.exponent - l.places) := by
  have hunit : (0 : ℚ) < 10 ^ (l.exponent - l.places) := by positivity
  rw [← l.toRat_ofPower, Decimal.toRat_ofPower, abs_mul, abs_of_pos hunit, ← Int.cast_abs,
    Int.abs_eq_natAbs, mantissa, natAbs_signed, Int.cast_natCast]

/-- A signed number as a rational one. -/
theorem cast_signed (negative : Bool) (n : Nat) :
    ((signed negative n : ℤ) : ℚ) = if negative then -(n : ℚ) else n := by
  cases negative
  · exact Int.cast_natCast n
  · exact (Int.cast_neg (n : ℤ)).trans (congrArg _ (Int.cast_natCast n))

/-- A literal is its magnitude with its sign. -/
theorem Literal.value_eq (l : Literal) :
    l.value = if l.sign.isMinus then -|l.value| else |l.value| := by
  rw [l.abs_value, ← l.toRat_ofPower, Decimal.toRat_ofPower, mantissa, cast_signed, ite_mul, neg_mul]

/-- A sign, a whole part and places are a literal without an exponent. -/
theorem exists_literal_numeral (negative : Bool) (hwhole : IsWhole whole) (hfraction : AllDigits fraction) :
    ∃ l : Literal, l.exponent? = none ∧ l.text = numeral negative whole fraction ∧
      l.sign.isMinus = negative ∧ l.places = fraction.length ∧
      |l.value| = digitsValue (whole ++ fraction) * 10 ^ (-(fraction.length : ℤ)) := by
  obtain ⟨s, hminus, hsign⟩ : ∃ s : Sign, s.isMinus = negative ∧
      s.text = if negative then ['-'] else [] := by
    cases negative
    · exact ⟨.absent, rfl, rfl⟩
    · exact ⟨.minus, rfl, rfl⟩
  obtain ⟨b, hbtext, rfl, rfl⟩ : ∃ b : PointedDigits,
      b.text = pointed whole fraction ∧ b.whole = whole ∧ b.fraction = fraction := by
    by_cases hnil : fraction = []
    · -- no point is printed
      subst hnil
      refine ⟨⟨whole, none, ?_, ?_⟩, ?_, rfl, rfl⟩
      · rw [Option.getD_none, List.append_nil]
        exact hwhole.allDigits
      · rw [Option.getD_none, List.append_nil]
        exact hwhole.ne_nil
      · rw [pointed_nil]
        exact List.append_nil whole
    · refine ⟨⟨whole, some fraction, ?_, ?_⟩, ?_, rfl, rfl⟩
      · exact allDigits_append.mpr ⟨hwhole.allDigits, hfraction⟩
      · exact List.append_ne_nil_of_left_ne_nil hwhole.ne_nil _
      · rw [pointed_of_ne_nil hnil]
        rfl
  refine ⟨⟨s, b, none⟩, rfl, ?_, hminus, rfl, ?_⟩
  · rw [Literal.text, hsign, hbtext, Option.elim_none, List.append_nil, numeral]
  · rw [Literal.abs_value, Literal.exponent, Option.elim_none, zero_sub]
    rfl

/-- The text of a decimal is such a literal, of its sign and its magnitude. -/
theorem exists_literal_toChars (d : Decimal) :
    ∃ l : Literal, l.exponent? = none ∧ l.text = d.toChars ∧ l.sign.isMinus = d.isNegative ∧
      |l.value| = |d.toRat| := by
  obtain ⟨whole, fraction, hwhole, hfraction, hmantissa, hscale, htext⟩ := d.exists_toChars_eq
  obtain ⟨l, hexponent, hltext, hminus, -, hvalue⟩ :=
    exists_literal_numeral d.isNegative hwhole hfraction.allDigits
  refine ⟨l, hexponent, hltext.trans htext.symm, hminus, ?_⟩
  rw [hvalue, abs_toRat, hmantissa, hscale]

/-- **The way back** is rounding, whichever reader it is. -/
theorem toBinary64With_eq (hread : Reads read) (d : Decimal) : toBinary64With read d = d.toBinary64 := by
  obtain ⟨l, hexponent, htext, hminus, hvalue⟩ := d.exists_literal_toChars
  obtain ⟨x, hx, hround⟩ := hread l hexponent
  rw [hminus, hvalue] at hround
  have hstring : toString d = String.ofList l.text := congrArg String.ofList htext.symm
  rw [toBinary64With, hstring, hx, Option.getD_some]
  exact hround.unique d.roundsTo_toBinary64

/-! ### There and back -/

/-- The decimal is rounded to the number, but for the sign of a zero. -/
structure StandsFor (d : Decimal) (x : Binary64) : Prop where
  nearest : IsNearest |d.toRat| x.magnitudeBits
  sign : d.toRat ≠ 0 → d.isNegative = x.isNegative
  zero : x.isZero = true → d.toRat = 0

/-- A sign and a magnitude that are rounded to the number make a decimal that stands for it. -/
theorem standsFor_of_roundsTo (hround : RoundsTo negative v x) (hv : 0 ≤ v)
    (hd : d.toRat = if negative then -v else v) (hzero : x.isZero = true → v = 0) : StandsFor d x := by
  -- the sign is kept apart, and the size is what is rounded
  have habs : |d.toRat| = v := by
    rw [hd]
    cases negative
    · exact abs_of_nonneg hv
    · exact (abs_neg v).trans (abs_of_nonneg hv)
  refine ⟨by rw [habs]; exact hround.2, ?_, ?_⟩
  · intro hne
    rw [hround.1, Bool.eq_iff_iff, isNegative_iff, hd]
    have hpos : 0 < v := hv.lt_of_ne (by rw [← habs]; exact (abs_ne_zero.mpr hne).symm)
    cases negative
    · exact iff_of_false hv.not_gt Bool.false_ne_true
    · exact iff_of_true (neg_neg_of_pos hpos) rfl
  · intro hx
    rw [← abs_eq_zero, habs, hzero hx]

/-- **Back again.** What such a decimal is rounded to is the number, or the zero without a sign. -/
theorem StandsFor.eq_of_roundsTo (h : StandsFor d x) (hy : RoundsTo d.isNegative |d.toRat| y) :
    y = if x.isZero then ofMagnitudeBits false 0 else x := by
  have hbits := hy.2.unique h.nearest
  split
  · next hzero =>
    have hpositive : d.isNegative = false := by
      rw [← Bool.not_eq_true, isNegative_iff, h.zero hzero]
      exact lt_irrefl 0
    rw [isZero_iff.mp hzero] at hbits
    exact (eq_ofMagnitudeBits_iff (by decide)).mpr ⟨hy.1.trans hpositive, hbits⟩
  · next hzero =>
    -- zero is nearest to itself
    have hne : d.toRat ≠ 0 := by
      intro hd
      have hnearest := isNearest_magnitude (Nat.zero_le infinityBits)
      rw [magnitude_zero, ← abs_zero, ← hd] at hnearest
      exact hzero (isZero_iff.mpr (h.nearest.unique hnearest))
    exact eq_iff.mpr ⟨hy.1.trans (h.sign hne), hbits⟩

/-- What becomes of a number on its way to a decimal and back. -/
structure ComesBack (d? : Option Decimal) (back : Decimal → Binary64) (x : Binary64) : Prop where
  /-- There is no decimal for what is no number and for the infinities, and for these only. -/
  none_iff : d? = none ↔ x.isNaN = true ∨ x.magnitudeBits = infinityBits
  /-- The number that comes back from a decimal equals the one that became it, -/
  numericEq : ∀ d, d? = some d → (back d).numericEq x = true
  /-- in all bits -/
  same : ∀ d, d? = some d → x ≠ ofMagnitudeBits true 0 → back d = x
  /-- but for the negative zero, which comes back as the other one. -/
  minusZero : ∀ d, d? = some d → x = ofMagnitudeBits true 0 → back d = ofMagnitudeBits false 0

/-- There are two zeros. -/
theorem eq_zero_of_isZero (hzero : x.isZero = true) (hne : x ≠ ofMagnitudeBits true 0) :
    x = ofMagnitudeBits false 0 := by
  have hbits := isZero_iff.mp hzero
  have hsign : x.isNegative = false := by
    rw [← Bool.not_eq_true]
    exact fun hnegative => hne ((eq_ofMagnitudeBits_iff (by decide)).mpr ⟨hnegative, hbits⟩)
  exact (eq_ofMagnitudeBits_iff (by decide)).mpr ⟨hsign, hbits⟩

/-- Finite numbers that have decimals standing for them come back by rounding these. -/
theorem comesBack_of_standsFor (hnone : x.isFinite = false → d? = none)
    (hsome : x.isFinite = true → ∃ d, d? = some d ∧ StandsFor d x)
    (hback : ∀ d, RoundsTo d.isNegative |d.toRat| (back d)) : ComesBack d? back x := by
  cases hfinite : x.isFinite with
  | false =>
    obtain rfl := hnone hfinite
    exact ⟨iff_of_true rfl (isFinite_eq_false_iff.mp hfinite), by simp, by simp, by simp⟩
  | true =>
    obtain ⟨d, rfl, hd⟩ := hsome hfinite
    have heq := hd.eq_of_roundsTo (hback d)
    -- a finite number is no NaN and no infinity
    have hnumber : ¬ (x.isNaN = true ∨ x.magnitudeBits = infinityBits) := by
      rw [← isFinite_eq_false_iff, hfinite]
      exact Bool.noConfusion
    refine ⟨iff_of_false (Option.some_ne_none d) hnumber, ?_, ?_, ?_⟩ <;> rintro _ ⟨⟩
    · have hnan : x.isNaN = false := Bool.eq_false_iff.mpr (not_or.mp hnumber).1
      rw [heq, numericEq_iff]
      split
      · next hzero => exact ⟨rfl, hnan, .inr ⟨rfl, hzero⟩⟩
      · exact ⟨hnan, hnan, .inl rfl⟩
    -- zero comes back without its sign, any other number as it was
    · intro hne
      rw [heq]
      split
      · next hzero => exact (eq_zero_of_isZero hzero hne).symm
      · rfl
    · rintro rfl
      exact heq

/-! ### The decimals of numbers -/

/-- The decimal of a finite number has the digits of the shortest one. -/
theorem ofBinary64?_of_isFinite (hfinite : x.isFinite = true) :
    ofBinary64? x = some (ofPower (signed x.isNegative (x.shortest .toEven).1) (x.shortest .toEven).2) :=
  if_pos hfinite

/-- It stands for the number. -/
theorem exists_ofBinary64?_eq (hfinite : x.isFinite = true) :
    ∃ d, ofBinary64? x = some d ∧ StandsFor d x := by
  refine ⟨_, ofBinary64?_of_isFinite hfinite,
    standsFor_of_roundsTo (roundsTo_shortest hfinite .toEven) (by positivity) ?_ ?_⟩
  · rw [toRat_ofPower, cast_signed, ite_mul, neg_mul]
  · intro hzero
    rw [shortest_of_isZero hzero, Nat.cast_zero, zero_mul]

/-- A literal of an exponent within the limit and of a scale of 32 bits is read from its text. -/
theorem Literal.exists_ofString_eq {s : String} (l : Literal) (htext : s.toList = l.text)
    (hlimit : l.exponent.natAbs ≤ exponentLimit) (hscale : l.places - l.exponent < scaleBound) :
    ∃ d, ofString s = .ok d ∧ d.toRat = l.value := by
  have hliteral : IsLiteral s l := by
    rw [isLiteral_iff, htext]
    exact trim_eq_self fun c hc => l.isBlank_eq_false hc
  obtain ⟨e, he, hread⟩ := exists_ofString_of_isLiteral hliteral (.inl hlimit)
  exact ⟨_, hread, (l.toRat_kept_eq_iff he hlimit).mpr (.inr hscale)⟩

/-- The decimal of a finite number is read from its text, and stands for it. -/
theorem exists_ofBinary64With_eq (hprint : Prints print) (hfinite : x.isFinite = true) :
    ∃ d, ofBinary64With print x = some d ∧ StandsFor d x := by
  obtain ⟨l, htext, hl⟩ := hprint x hfinite
  have hlimit : l.exponent.natAbs ≤ exponentLimit := by
    have hdigits := hl.exponent
    rw [exponentLimit]
    omega
  obtain ⟨d, hread, hvalue⟩ := l.exists_ofString_eq htext hlimit hl.scale
  refine ⟨d, ?_, ?_⟩
  · rw [ofBinary64With, if_pos hfinite, hread]
    rfl
  · refine standsFor_of_roundsTo hl.rounds (abs_nonneg _) (hvalue.trans l.value_eq) fun hzero => ?_
    rw [hl.zero hzero, abs_zero]

/-! ### A printer and a reader -/

/-- The number nearest to the literal that is the string, if that has no exponent. -/
def nearestOfText (s : String) : Option Binary64 :=
  let (negative, body) := splitSign s.toList
  (parseDigits body).toOption.map fun d => .ofScaled negative d.1 (-d.2)

/-- Taking the nearest host number is a way to read. -/
theorem reads_nearestOfText : Reads nearestOfText := by
  intro l hexponent
  have htext : (String.ofList l.text).toList = l.text := String.toList_ofList
  have hsign : splitSign l.text = (l.sign.isMinus, l.body.text) := by
    rw [l.splitSign_text, hexponent, Option.elim_none, List.append_nil]
  have hdigits : parseDigits l.body.text =
      .ok (digitsValue (l.body.whole ++ l.body.fraction), l.places) :=
    parseDigits_eq_ok_iff.mpr ⟨l.body, rfl, rfl, rfl⟩
  refine ⟨.ofScaled l.sign.isMinus (digitsValue (l.body.whole ++ l.body.fraction)) (-l.places), ?_, ?_⟩
  · simp only [nearestOfText, htext, hsign, hdigits]
    rfl
  · rw [l.abs_value, Literal.exponent, hexponent, Option.elim_none, zero_sub]
    exact roundsTo_ofScaled _ _ _

/-- The plain text of a finite number is its sign and the text of its shortest decimal. -/
theorem toList_toPlain (hfinite : x.isFinite = true) :
    x.toPlain.toList = (if x.isNegative then ['-'] else []) ++
      (ofPower (x.shortest .up).1 (x.shortest .up).2).toChars := by
  have hnan : ¬ x.isNaN = true := by
    rw [isFinite_iff] at hfinite
    rw [isNaN_iff]
    omega
  have htoList : ∀ d : Decimal, (toString d).toList = d.toChars := fun d => String.toList_ofList
  simp only [toPlain, if_neg hnan, if_pos hfinite, String.toList_append, htoList]
  congr 1
  split <;> rfl

/-- Plain texts are printed without an exponent. -/
theorem prints_toPlain : Prints toPlain := by
  intro x hfinite
  have hround := roundsTo_shortest hfinite .up
  have hvalue : (ofPower (x.shortest .up).1 (x.shortest .up).2).toRat =
      (x.shortest .up).1 * 10 ^ (x.shortest .up).2 := by
    rw [toRat_ofPower, Int.cast_natCast]
  have htext := toList_toPlain hfinite
  have hlow : -(scaleBound : ℤ) < (x.shortest .up).2 := by
    have hgrid := le_shortest_snd .up x
    rw [scaleBound_eq]
    omega
  have hplaces := scale_ofPower_lt (x.shortest .up).1 hlow
  generalize ofPower (x.shortest .up).1 (x.shortest .up).2 = d at hvalue htext hplaces
  have hnonneg : 0 ≤ d.toRat := by
    rw [hvalue]
    positivity
  have hpositive : d.isNegative = false := by
    rw [← Bool.not_eq_true, isNegative_iff]
    exact hnonneg.not_gt
  obtain ⟨whole, fraction, hwhole, hfraction, hmantissa, hscale, hchars⟩ := d.exists_toChars_eq
  obtain ⟨l, hexponent, hltext, hminus, hlplaces, habs⟩ :=
    exists_literal_numeral x.isNegative hwhole hfraction.allDigits
  -- the sign goes before the digits of the magnitude
  rw [← hmantissa, ← hscale, ← abs_toRat, abs_of_nonneg hnonneg] at habs
  rw [hchars, hpositive, numeral, if_neg Bool.false_ne_true, List.nil_append] at htext
  refine ⟨l, htext.trans hltext.symm, ?_, ?_, ?_, ?_⟩
  · rw [Literal.exponent, hexponent]
    decide
  · rw [Literal.exponent, hexponent, hlplaces, ← hscale, Option.elim_none]
    omega
  · rw [hminus, habs, hvalue]
    exact hround
  · intro hzero
    rw [← abs_eq_zero, habs, hvalue, shortest_of_isZero hzero, Nat.cast_zero, zero_mul]

/-! ### Round trips -/

/-- **Round trips.** Exactly the finite numbers become decimals, and reading the text of a number's decimal
gives the number. -/
theorem binary64_roundTrip (hprint : Prints print) (hread : Reads read) (x : Binary64) :
    ComesBack (ofBinary64With print x) (toBinary64With read) x := by
  refine comesBack_of_standsFor (fun hinfinite => ?_) (exists_ofBinary64With_eq hprint) fun d => ?_
  · rw [ofBinary64With, hinfinite]
    rfl
  · rw [toBinary64With_eq hread]
    exact d.roundsTo_toBinary64

/-- The printer of plain texts and the reader of literals are such a pair. -/
theorem binary64_roundTrip_plain :
    Prints toPlain ∧ Reads nearestOfText ∧ toPlain ⟨0x3ff1f7ced916872b⟩ = "1.123" ∧
      ComesBack (ofBinary64With toPlain ⟨0x3ff1f7ced916872b⟩) (toBinary64With nearestOfText)
        ⟨0x3ff1f7ced916872b⟩ :=
  ⟨prints_toPlain, reads_nearestOfText, by decide +kernel,
    binary64_roundTrip prints_toPlain reads_nearestOfText ⟨0x3ff1f7ced916872b⟩⟩

/-- **Shortest digits.** The same holds if a number's digits are found, and a decimal rounded, without a
text. -/
theorem comesBack_shortest (x : Binary64) : ComesBack (ofBinary64? x) toBinary64 x := by
  refine comesBack_of_standsFor (fun hinfinite => ?_) exists_ofBinary64?_eq roundsTo_toBinary64
  rw [ofBinary64?, hinfinite]
  rfl

/-- The negative zero is printed with its sign, which is lost on reading. -/
example :
    toPlain (ofMagnitudeBits true 0) = "-0" ∧
      (ofBinary64With toPlain (ofMagnitudeBits true 0)).map (toBinary64With nearestOfText) =
        some (ofMagnitudeBits false 0) := by
  decide +kernel

end LispObjects.Decimal
