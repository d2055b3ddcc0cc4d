import LispObjects.Decimal.Printer
import LispObjects.Proofs.Decimal.Reading
import LispObjects.Proofs.Decimal.Value
import Mathlib.Computability.Language

namespace LispObjects

open scoped Computability

/-!
# The plain text of decimals

Printing and reading are inverse to each other, for as many places as there are scales: a decimal has
exactly one plain text, and the plain texts are a regular language. A text of more places is read as
another number than it is the text of.

* `Decimal.plainText` — `-?(0|[1-9][0-9]*)([.][0-9]*[1-9])?`, as a language;
* `Decimal.mem_plainText_iff` — such a text is made of a sign, a whole part and places;
* `Decimal.toChars_of_digits`, `Decimal.parse_numeral` — what is printed for given digits, and what
  is read from them;
* `Decimal.plainText_roundTrip` — reading a printed decimal gives it back, and printing what was read
  from a plain text gives the text back, if there are not too many places;
* `Decimal.not_printed_of_longFraction` — a plain text of too many places, read as one.
-/

/-! ### Patterns -/

namespace Text

variable {p : Char → Bool} {cs : List Char} {l : Language Char}

/-- The texts of one character, which satisfies `p`. -/
def oneOf (p : Char → Bool) : Language Char :=
  {cs | ∃ c, p c = true ∧ cs = [c]}

/-- The language's texts, and the empty one. -/
def optional (l : Language Char) : Language Char :=
  1 + l

/-- An optional text is empty or the text. -/
theorem mem_optional : cs ∈ optional l ↔ cs = [] ∨ cs ∈ l := Iff.rfl

/-- A language of one text has no other. -/
theorem mem_singleton {ds : List Char} : cs ∈ ({ds} : Language Char) ↔ cs = ds := Iff.rfl

/-- Repeated characters of a kind are a text of that kind. -/
theorem mem_kstar_oneOf : cs ∈ (oneOf p)∗ ↔ ∀ c ∈ cs, p c = true := by
  rw [Language.mem_kstar]
  constructor
  · rintro ⟨parts, rfl, hparts⟩ c hc
    obtain ⟨part, hpart, hc⟩ := List.mem_flatten.mp hc
    obtain ⟨d, hd, rfl⟩ := hparts part hpart
    rw [List.mem_singleton.mp hc]
    exact hd
  · intro h
    refine ⟨cs.map fun c => [c], by rw [← List.flatMap_def, List.flatMap_singleton'], ?_⟩
    intro part hpart
    obtain ⟨c, hc, rfl⟩ := List.mem_map.mp hpart
    exact ⟨c, h c hc, rfl⟩

end Text

namespace Decimal

open Text

variable {cs whole fraction : List Char} {c : Char} {negative : Bool} {d : Decimal}

/-- A digit other than zero. -/
def isNonzeroDigit (c : Char) : Bool :=
  c.isDigit && c != '0'

/-- The plain texts of decimals, and `-0`: `-?(0|[1-9][0-9]*)([.][0-9]*[1-9])?`. -/
def plainText : Language Char :=
  optional {['-']} * ({['0']} + oneOf isNonzeroDigit * (oneOf Char.isDigit)∗) *
    optional ({['.']} * (oneOf Char.isDigit)∗ * oneOf isNonzeroDigit)

/-! ### Numerals -/

/-- The text of a sign, a whole part and places. -/
def numeral (negative : Bool) (whole fraction : List Char) : List Char :=
  (if negative then ['-'] else []) ++ pointed whole fraction

/-- The places do not end in a zero. -/
structure IsFraction (cs : List Char) : Prop where
  allDigits : AllDigits cs
  last : cs.getLast? ≠ some '0'

/-- A number may have no places. -/
theorem isFraction_nil : IsFraction [] :=
  ⟨allDigits_nil, by simp⟩

/-- The digits without zero. -/
theorem isNonzeroDigit_iff : isNonzeroDigit c = true ↔ c.isDigit = true ∧ c ≠ '0' := by
  simp [isNonzeroDigit]

/-- The sign of the grammar is a minus or nothing. -/
theorem mem_sign_iff :
    cs ∈ optional ({['-']} : Language Char) ↔ ∃ b : Bool, cs = if b then ['-'] else [] := by
  simp [mem_optional, mem_singleton]

/-- The part before the point is zero, or does not begin with it. -/
theorem mem_whole_iff :
    cs ∈ ({['0']} + oneOf isNonzeroDigit * (oneOf Char.isDigit)∗ : Language Char) ↔
      IsWhole cs := by
  rw [Language.mem_add, mem_singleton, Language.mem_mul]
  constructor
  · rintro (rfl | ⟨_, ⟨c, hc, rfl⟩, ds, hds, rfl⟩)
    · exact isWhole_zero
    · obtain ⟨hdigit, hzero⟩ := isNonzeroDigit_iff.mp hc
      exact isWhole_cons hdigit hzero (mem_kstar_oneOf.mp hds)
  · intro h
    rcases h.eq_zero_or with rfl | ⟨c, ds, rfl, hc, hzero, hds⟩
    · exact .inl rfl
    · exact .inr ⟨[c], ⟨c, isNonzeroDigit_iff.mpr ⟨hc, hzero⟩, rfl⟩, ds,
        mem_kstar_oneOf.mpr hds, rfl⟩

/-- The part behind the point does not end in zero, and the point goes with it. -/
theorem mem_places_iff :
    cs ∈ optional ({['.']} * (oneOf Char.isDigit)∗ * oneOf isNonzeroDigit : Language Char) ↔
      ∃ fraction, IsFraction fraction ∧ cs = pointed [] fraction := by
  rw [mem_optional, Language.mem_mul]
  constructor
  · rintro (rfl | ⟨_, hleft, _, ⟨c, hc, rfl⟩, rfl⟩)
    · exact ⟨[], isFraction_nil, rfl⟩
    · obtain ⟨_, rfl, ds, hds, rfl⟩ := Language.mem_mul.mp hleft
      obtain ⟨hdigit, hzero⟩ := isNonzeroDigit_iff.mp hc
      have hdigits : AllDigits (ds ++ [c]) :=
        allDigits_append.mpr ⟨mem_kstar_oneOf.mp hds, allDigits_cons.mpr ⟨hdigit, allDigits_nil⟩⟩
      refine ⟨ds ++ [c], ⟨hdigits, by simpa using hzero⟩, ?_⟩
      rw [pointed_of_ne_nil (by simp)]
      simp
  -- from the last digit, since it is the one that must not be zero
  · rintro ⟨fraction, ⟨hdigits, hlast⟩, rfl⟩
    induction fraction using List.reverseRecOn with
    | nil => exact .inl rfl
    | append_singleton ds c _ =>
      obtain ⟨hds, hc⟩ := allDigits_append.mp hdigits
      have hzero : c ≠ '0' := by simpa using hlast
      have hnonzero := isNonzeroDigit_iff.mpr ⟨(allDigits_cons.mp hc).1, hzero⟩
      refine .inr ⟨'.' :: ds, Language.mem_mul.mpr ⟨['.'], rfl, ds, mem_kstar_oneOf.mpr hds, rfl⟩,
        [c], ⟨c, hnonzero, rfl⟩, ?_⟩
      rw [pointed_of_ne_nil (by simp)]
      simp

/-- A numeral as its three parts, one after the other. -/
theorem numeral_eq (negative : Bool) (whole fraction : List Char) :
    numeral negative whole fraction =
      (if negative then ['-'] else []) ++ whole ++ pointed [] fraction := by
  simp [numeral, pointed]

/-- A plain text is the numeral of a whole part without leading zeros and of places that do not end
    in a zero. -/
theorem mem_plainText_iff :
    cs ∈ plainText ↔
      ∃ negative whole fraction, IsWhole whole ∧ IsFraction fraction ∧
        cs = numeral negative whole fraction := by
  rw [plainText, Language.mem_mul]
  constructor
  · rintro ⟨_, hleft, _, hplaces, rfl⟩
    obtain ⟨_, hsign, whole, hwhole, rfl⟩ := Language.mem_mul.mp hleft
    obtain ⟨negative, rfl⟩ := mem_sign_iff.mp hsign
    obtain ⟨fraction, hfraction, rfl⟩ := mem_places_iff.mp hplaces
    exact ⟨negative, whole, fraction, mem_whole_iff.mp hwhole, hfraction,
      (numeral_eq negative whole fraction).symm⟩
  · rintro ⟨negative, whole, fraction, hwhole, hfraction, rfl⟩
    rw [numeral_eq]
    refine ⟨_, Language.mem_mul.mpr ⟨_, mem_sign_iff.mpr ⟨negative, rfl⟩, whole,
      mem_whole_iff.mpr hwhole, rfl⟩, _, mem_places_iff.mpr ⟨fraction, hfraction, rfl⟩, rfl⟩

/-- Places end in a zero exactly if the number that they are the last digits of does. -/
theorem isFraction_iff (whole : List Char) (h : AllDigits fraction) :
    IsFraction fraction ↔ fraction.length = 0 ∨ digitsValue (whole ++ fraction) % 10 ≠ 0 := by
  induction fraction using List.reverseRecOn with
  | nil => exact ⟨fun _ => .inl rfl, fun _ => isFraction_nil⟩
  | append_singleton ds c _ =>
    have hc : c.isDigit = true := (allDigits_cons.mp (allDigits_append.mp h).2).1
    have hlt := digitValue_lt hc
    have hzero := digitValue_eq_zero_iff hc
    -- the last digit is the remainder of the whole number on division by ten
    have hmod : digitsValue (whole ++ (ds ++ [c])) % 10 = digitValue c := by
      rw [← List.append_assoc, digitsValue_concat]
      omega
    have hlength : (ds ++ [c]).length ≠ 0 := by simp
    rw [hmod]
    constructor
    · rintro ⟨-, hlast⟩
      rw [List.getLast?_concat] at hlast
      exact .inr fun hvalue => hlast (congrArg some (hzero.mp hvalue))
    · rintro (hnil | hvalue)
      · exact absurd hnil hlength
      · refine ⟨h, ?_⟩
        rw [List.getLast?_concat]
        exact fun hlast => hvalue (hzero.mpr (Option.some.inj hlast))

/-! ### Printing -/

/-- **Printing.** The digits of a number with a point before the last of them are its whole part and
    its places, whether the number is longer than its places or has to be padded. -/
theorem placePoint_digitsValue (hwhole : IsWhole whole) (hfraction : AllDigits fraction) :
    placePoint (Nat.toDigits 10 (digitsValue (whole ++ fraction))) fraction.length =
      pointed whole fraction := by
  by_cases hne : fraction = []
  · subst hne
    rw [List.append_nil, toDigits_digitsValue hwhole, placePoint, pointed_nil,
      List.length_nil, if_pos rfl]
  have hpos : fraction.length ≠ 0 := by simpa using hne
  rw [pointed_of_ne_nil hne, placePoint, if_neg hpos]
  rcases hwhole.eq_zero_or with rfl | ⟨c, ds, rfl, hc, hzero, hds⟩
  · -- the digits are those of the places, without the zeros in front
    have hvalue : digitsValue (['0'] ++ fraction) = digitsValue fraction := by
      rw [digitsValue_append]
      simp [digitsValue_singleton, digitValue]
    obtain ⟨hlength, hpadded⟩ := replicate_append_toDigits hfraction hne
    rw [hvalue, if_neg (by omega), hpadded]
    rfl
  · -- the digits are all there
    have hall : IsWhole (c :: ds ++ fraction) :=
      isWhole_cons hc hzero (allDigits_append.mpr ⟨hds, hfraction⟩)
    have hlong : fraction.length < (c :: ds ++ fraction).length := by
      rw [List.length_append, List.length_cons]
      omega
    have hlength : (c :: ds ++ fraction).length - fraction.length = (c :: ds).length := by
      rw [List.length_append]
      omega
    rw [toDigits_digitsValue hall, if_pos hlong, hlength]
    show List.take (c :: ds).length (c :: ds ++ fraction) ++
        '.' :: List.drop (c :: ds).length (c :: ds ++ fraction) = _
    rw [List.take_left, List.drop_left]

/-- What is printed for a number of given digits. -/
theorem toChars_of_digits (hwhole : IsWhole whole) (hfraction : AllDigits fraction)
    (hmantissa : d.mantissa.natAbs = digitsValue (whole ++ fraction))
    (hscale : d.scale = fraction.length) : d.toChars = numeral d.isNegative whole fraction := by
  simp only [toChars, hmantissa, hscale, placePoint_digitsValue hwhole hfraction]
  rw [numeral]
  cases d.isNegative <;> rfl

/-- Every number of so many places has a whole part and places. -/
theorem exists_whole_fraction (n scale : Nat) :
    ∃ whole fraction, IsWhole whole ∧ AllDigits fraction ∧ fraction.length = scale ∧
      digitsValue (whole ++ fraction) = n := by
  have hlt : n % 10 ^ scale < 10 ^ scale := Nat.mod_lt _ (by positivity)
  obtain ⟨fraction, hdigits, hlength, hvalue⟩ := exists_digits hlt
  refine ⟨Nat.toDigits 10 (n / 10 ^ scale), fraction, isWhole_toDigits _, hdigits, hlength, ?_⟩
  rw [digitsValue_append, digitsValue_toDigits, hlength, hvalue]
  exact Nat.div_add_mod n (10 ^ scale)

/-- The printed text of a decimal. -/
theorem exists_toChars_eq (d : Decimal) :
    ∃ whole fraction, IsWhole whole ∧ IsFraction fraction ∧
      d.mantissa.natAbs = digitsValue (whole ++ fraction) ∧ d.scale = fraction.length ∧
      d.toChars = numeral d.isNegative whole fraction := by
  obtain ⟨whole, fraction, hwhole, hdigits, hlength, hvalue⟩ :=
    exists_whole_fraction d.mantissa.natAbs d.scale
  have hfraction : IsFraction fraction := by
    rw [isFraction_iff whole hdigits, hlength, hvalue]
    have hcanonical := d.canonical
    omega
  exact ⟨whole, fraction, hwhole, hfraction, hvalue.symm, hlength.symm,
    toChars_of_digits hwhole hdigits hvalue.symm hlength.symm⟩

/-! ### Reading -/

/-- **Reading.** A numeral is read as its digits, with its sign and its places. -/
theorem parse_numeral (negative : Bool) (hwhole : IsWhole whole) (hfraction : AllDigits fraction) :
    parse (numeral negative whole fraction) =
      .ok (ofPower (signed negative (digitsValue (whole ++ fraction)))
        (keptPower 0 fraction.length)) := by
  have hbody : ∀ c ∈ pointed whole fraction, c.isDigit = true ∨ c = '.' :=
    fun c hc => mem_pointed hwhole.allDigits hfraction hc
  -- digits and the point are neither blank nor the mark of an exponent
  have hbodyBlank : ∀ c ∈ pointed whole fraction, isBlank c = false := by
    intro c hc
    rcases hbody c hc with hdigit | rfl
    · exact isBlank_of_isDigit hdigit
    · rfl
  have hmark : ∀ c ∈ pointed whole fraction, isExponentMark c = false := by
    intro c hc
    rcases hbody c hc with hdigit | rfl
    · exact isExponentMark_of_isDigit hdigit
    · rfl
  -- the first character is a digit, so a sign is found only where one was written
  obtain ⟨c, ds, hcons⟩ := List.exists_cons_of_ne_nil hwhole.ne_nil
  have hhead : (pointed whole fraction).head? = some c := by
    rw [pointed, hcons, List.cons_append, List.head?_cons]
  have hc : c.isDigit = true := hwhole.allDigits c (by rw [hcons]; exact List.mem_cons_self)
  have hsign : splitSign (numeral negative whole fraction) =
      (negative, pointed whole fraction) := by
    cases negative with
    | true => rfl
    | false =>
      apply splitSign_of_ne <;>
      · intro h
        rw [numeral, if_neg (by decide), List.nil_append, hhead] at h
        rw [Option.some.inj h] at hc
        revert hc
        decide
  have hblank : ∀ c ∈ numeral negative whole fraction, isBlank c = false := by
    intro c hc
    rw [numeral, List.mem_append] at hc
    rcases hc with hc | hc
    · cases negative with
      | true => rw [List.mem_singleton.mp hc]; rfl
      | false => cases hc
    · exact hbodyBlank c hc
  have hne : numeral negative whole fraction ≠ [] := by
    rw [numeral, pointed, hcons]
    simp
  rw [parse_of_noExponent hblank hne hsign hmark,
    parseDigits_pointed hwhole.allDigits hfraction hwhole.ne_nil]
  rfl

/-- A sign does not change the size. -/
@[simp] theorem natAbs_signed (negative : Bool) (n : Nat) : (signed negative n).natAbs = n := by
  unfold signed
  split <;> omega

/-- Only a number other than zero is negative. -/
theorem signed_lt_zero_iff (negative : Bool) (n : Nat) :
    signed negative n < 0 ↔ negative = true ∧ 0 < n := by
  cases negative with
  | false => simp [signed]
  | true =>
    rw [signed, if_pos rfl]
    simp

/-- A mantissa is its magnitude with its sign. -/
theorem signed_isNegative (d : Decimal) : signed d.isNegative d.mantissa.natAbs = d.mantissa := by
  unfold signed isNegative
  by_cases h : d.mantissa < 0
  · rw [if_pos (decide_eq_true h)]
    omega
  · rw [if_neg (by simpa using h)]
    omega

/-- The power of ten for places and no exponent. -/
theorem keptPower_zero {places : Nat} (h : places < scaleBound) : keptPower 0 places = -places := by
  have hkept : keptPower 0 places = (0 : Int64).toInt - places :=
    keptPower_eq (Nat.zero_le _) (by show (places : ℤ) - 0 < scaleBound; omega)
  rw [hkept]
  exact Int.zero_sub _

/-- Reading what was printed gives the decimal back. -/
theorem parse_toChars (h : d.scale < scaleBound) : parse d.toChars = .ok d := by
  obtain ⟨whole, fraction, hwhole, hfraction, hmantissa, hscale, htext⟩ := d.exists_toChars_eq
  rw [htext, parse_numeral _ hwhole hfraction.allDigits, ← hmantissa, signed_isNegative, ← hscale,
    keptPower_zero h]
  -- both have the same value
  congr 1
  apply toRat_injective
  rw [toRat_ofPower]
  rfl

/-- What is read has a scale of 32 bits. -/
theorem scale_ofPower_lt (m : ℤ) {power : ℤ} (h : -(scaleBound : ℤ) < power) :
    (ofPower m power).scale < scaleBound := by
  rw [ofPower]
  split
  · exact Nat.two_pow_pos 32
  · have hscale := scale_le_of_toRat_eq (toRat_ofScaled m (-power).toNat)
    omega

/-! ### Places -/

/-- How many characters stand after the first point. -/
def placesAfterPoint (cs : List Char) : Nat :=
  ((splitFirst (· == '.') cs).2.getD []).length

/-- The places of a numeral are the digits of its fraction. -/
theorem placesAfterPoint_numeral (negative : Bool) (hwhole : IsWhole whole) (fraction : List Char) :
    placesAfterPoint (numeral negative whole fraction) = fraction.length := by
  have hpoint := (splitFirst_pointed hwhole.allDigits fraction).2
  cases negative with
  | true => exact congrArg List.length hpoint
  | false => exact congrArg List.length hpoint

/-- A decimal is printed with as many places as its scale says. -/
theorem placesAfterPoint_toChars (d : Decimal) : placesAfterPoint d.toChars = d.scale := by
  obtain ⟨whole, fraction, hwhole, -, -, hscale, htext⟩ := d.exists_toChars_eq
  rw [htext, placesAfterPoint_numeral _ hwhole, hscale]

/-- The negative zero is read as zero, which is printed without a sign. -/
theorem toChars_ne_minusZero (d : Decimal) : d.toChars ≠ ['-', '0'] := by
  intro h
  have hscale : d.scale = 0 := by
    rw [← placesAfterPoint_toChars, h]
    rfl
  have hread : parse d.toChars = .ok d := parse_toChars (hscale ▸ Nat.two_pow_pos 32)
  have hzero : parse ['-', '0'] = .ok (ofInt 0) := by decide
  rw [h, hzero, Except.ok.injEq] at hread
  rw [← hread] at h
  revert h
  decide

/-- A whole part of value zero is a single zero. -/
theorem IsWhole.eq_zero_of_digitsValue (h : IsWhole whole) (hvalue : digitsValue whole = 0) :
    whole = ['0'] := by
  rw [← toDigits_digitsValue h, hvalue]
  rfl

/-- Every numeral in lowest terms but `-0` is the text of a decimal. -/
theorem exists_toChars_eq_numeral (hwhole : IsWhole whole) (hfraction : IsFraction fraction)
    (hne : numeral negative whole fraction ≠ ['-', '0']) :
    ∃ d : Decimal, d.toChars = numeral negative whole fraction := by
  have hlast := (isFraction_iff whole hfraction.allDigits).mp hfraction
  have hcanonical : fraction.length = 0 ∨
      signed negative (digitsValue (whole ++ fraction)) % 10 ≠ 0 := by
    unfold signed
    split <;> omega
  -- a negative numeral that says zero would be `-0`, which has no places either
  have hpos : negative = true → 0 < digitsValue (whole ++ fraction) := by
    intro hnegative
    by_contra hzero
    have hnil : fraction = [] := List.length_eq_zero_iff.mp (by omega)
    subst hnil hnegative
    rw [List.append_nil] at hzero
    have hwhole := hwhole.eq_zero_of_digitsValue (by omega)
    exact hne (by rw [hwhole]; rfl)
  have hnegative : decide (signed negative (digitsValue (whole ++ fraction)) < 0) = negative := by
    rw [Bool.eq_iff_iff, decide_eq_true_eq, signed_lt_zero_iff]
    exact ⟨fun h => h.1, fun h => ⟨h, hpos h⟩⟩
  refine ⟨⟨signed negative (digitsValue (whole ++ fraction)), fraction.length, hcanonical⟩, ?_⟩
  rw [toChars_of_digits hwhole hfraction.allDigits (natAbs_signed _ _) rfl, isNegative, hnegative]

/-! ### Strings -/

section Strings

variable {s : String}

/-- A decimal's text is made of its characters. -/
theorem toList_toString (d : Decimal) : (toString d).toList = d.toChars :=
  String.toList_ofList

/-- What is printed is in the grammar. -/
theorem toString_mem_plainText (d : Decimal) : (toString d).toList ∈ plainText := by
  obtain ⟨whole, fraction, hwhole, hfraction, -, -, htext⟩ := d.exists_toChars_eq
  rw [toList_toString, htext]
  exact mem_plainText_iff.mpr ⟨_, whole, fraction, hwhole, hfraction, rfl⟩

/-- Zero is printed without a sign. -/
theorem toString_ne_minusZero (d : Decimal) : toString d ≠ "-0" := by
  intro h
  refine d.toChars_ne_minusZero ?_
  rw [← toList_toString, h]
  rfl

/-- What is printed is read as the decimal again, if its scale is one of 32 bits. -/
theorem ofString_toString (h : d.scale < scaleBound) : ofString (toString d) = .ok d := by
  rw [ofString, toList_toString]
  exact parse_toChars h

/-- Plain texts are read, of however many places they are. -/
theorem exists_ofString_of_plainText (h : s.toList ∈ plainText) :
    ∃ d, ofString s = .ok d ∧ d.scale < scaleBound := by
  obtain ⟨negative, whole, fraction, hwhole, hfraction, htext⟩ := mem_plainText_iff.mp h
  refine ⟨ofPower (signed negative (digitsValue (whole ++ fraction))) (keptPower 0 fraction.length),
    ?_, scale_ofPower_lt _ (neg_scaleBound_lt_keptPower 0 fraction.length)⟩
  rw [ofString, htext, parse_numeral _ hwhole hfraction.allDigits]

/-- Plain texts are the texts of decimals, but for that of the negative zero. -/
theorem exists_toString_eq (h : s.toList ∈ plainText) (hne : s ≠ "-0") :
    ∃ d : Decimal, toString d = s := by
  obtain ⟨negative, whole, fraction, hwhole, hfraction, htext⟩ := mem_plainText_iff.mp h
  have hneChars : numeral negative whole fraction ≠ ['-', '0'] :=
    fun h => hne (String.toList_inj.mp (htext.trans h))
  obtain ⟨d, hd⟩ := exists_toChars_eq_numeral hwhole hfraction hneChars
  exact ⟨d, String.toList_inj.mp (by rw [toList_toString, hd, htext])⟩

/-- How the text that a decimal is printed as and the decimal that a string is read as go together. -/
structure RoundTrips (d : Decimal) (s : String) : Prop where
  /-- What is printed is a plain text -/
  plain : (toString d).toList ∈ plainText
  /-- other than that of the negative zero, -/
  ne_minusZero : toString d ≠ "-0"
  /-- and is read as the decimal that was printed. -/
  read_print : d.scale < 2 ^ 32 → ofString (toString d) = .ok d
  /-- Every plain text is read as a decimal, with a scale of 32 bits, -/
  read : s.toList ∈ plainText → ∃ d, ofString s = .ok d ∧ d.scale < 2 ^ 32
  /-- and that decimal is printed like it exactly if the places are not too many. -/
  print_read : s.toList ∈ plainText ∧ s ≠ "-0" ∧ placesAfterPoint s.toList < 2 ^ 32 ↔
    ∃ d, ofString s = .ok d ∧ toString d = s

/-- **Round trips**, for all decimals and all strings. -/
theorem plainText_roundTrip (d : Decimal) (s : String) : RoundTrips d s where
  plain := toString_mem_plainText d
  ne_minusZero := toString_ne_minusZero d
  read_print := ofString_toString
  read := exists_ofString_of_plainText
  print_read := by
    -- what has fewer places than can be counted is printed from a decimal, and what is printed has no
    -- more
    constructor
    · rintro ⟨hmem, hne, hplaces⟩
      obtain ⟨d, rfl⟩ := exists_toString_eq hmem hne
      rw [toList_toString, placesAfterPoint_toChars] at hplaces
      exact ⟨d, ofString_toString hplaces, rfl⟩
    · rintro ⟨d, hd, rfl⟩
      obtain ⟨d', hd', hscale⟩ := exists_ofString_of_plainText (toString_mem_plainText d)
      obtain rfl : d = d' := Except.ok.inj (hd.symm.trans hd')
      refine ⟨toString_mem_plainText d, toString_ne_minusZero d, ?_⟩
      rw [toList_toString, placesAfterPoint_toChars]
      exact hscale

end Strings

/-! ### Too many places -/

/-- A one, with so many zeros between the point and it. -/
def oneAfterZeros (zeros : Nat) : String :=
  String.ofList (numeral false ['0'] (List.replicate zeros '0' ++ ['1']))

section OneAfterZeros

variable (zeros : Nat)

/-- The text as a numeral, with nothing but zeros in front of the last digit. -/
theorem toList_oneAfterZeros :
    (oneAfterZeros zeros).toList = numeral false ['0'] (List.replicate zeros '0' ++ ['1']) :=
  String.toList_ofList

/-- Its fraction ends in a digit that is not zero. -/
theorem isFraction_zerosAndOne : IsFraction (List.replicate zeros '0' ++ ['1']) where
  allDigits := allDigits_append.mpr
    ⟨allDigits_replicate_zero zeros, allDigits_cons.mpr ⟨rfl, allDigits_nil⟩⟩
  last := by simp

/-- All digits of the text together say one. -/
theorem digitsValue_zerosAndOne : digitsValue (['0'] ++ (List.replicate zeros '0' ++ ['1'])) = 1 := by
  have hzeros : ['0'] ++ List.replicate zeros '0' = List.replicate (zeros + 1) '0' := rfl
  rw [← List.append_assoc, hzeros, digitsValue_concat, digitsValue_replicate_zero]
  rfl

/-- Only the scale that is kept of it tells such a text from that of one. -/
theorem ofString_oneAfterZeros :
    ofString (oneAfterZeros zeros) = .ok (ofPower 1 (keptPower 0 (zeros + 1))) := by
  rw [ofString, toList_oneAfterZeros,
    parse_numeral false isWhole_zero (isFraction_zerosAndOne zeros).allDigits, digitsValue_zerosAndOne,
    List.length_append, List.length_replicate]
  rfl

end OneAfterZeros

/-- A plain text of as many places as there are scales is read as one, which is not printed like it. -/
theorem not_printed_of_longFraction :
    (oneAfterZeros 4294967295).toList ∈ plainText ∧ oneAfterZeros 4294967295 ≠ "-0" ∧
      ofString (oneAfterZeros 4294967295) = .ok (ofInt 1) ∧
      toString (ofInt 1) ≠ oneAfterZeros 4294967295 := by
  -- 2 ^ 32 places are counted as none
  have hkept : keptPower 0 (4294967295 + 1) = 0 := by decide
  have hplain : (oneAfterZeros 4294967295).toList ∈ plainText := by
    rw [toList_oneAfterZeros]
    exact mem_plainText_iff.mpr ⟨_, _, _, isWhole_zero, isFraction_zerosAndOne _, rfl⟩
  have hplaces : placesAfterPoint (oneAfterZeros 4294967295).toList = 4294967295 + 1 := by
    rw [toList_oneAfterZeros, placesAfterPoint_numeral _ isWhole_zero, List.length_append,
      List.length_replicate]
    rfl
  have hread : ofString (oneAfterZeros 4294967295) = .ok (ofInt 1) := by
    rw [ofString_oneAfterZeros, hkept]
    rfl
  refine ⟨hplain, fun h => ?_, hread, fun h => ?_⟩
  · rw [h] at hplaces
    revert hplaces
    decide
  · rw [← h, toList_toString, placesAfterPoint_toChars] at hplaces
    revert hplaces
    decide

end Decimal

end LispObjects
