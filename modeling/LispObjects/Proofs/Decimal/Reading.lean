import LispObjects.Proofs.Decimal.Digits
import LispObjects.Proofs.Decimal.Value
import Mathlib.Data.List.TakeWhile

namespace LispObjects

/-!
# Reading number literals

What the reader makes of a literal's parts.

* `Text.trim_append`, `Text.exists_eq_append_trim` — trimming takes off the blanks at both ends;
* `Decimal.splitFirst_append_cons`, `Decimal.splitFirst_of_forall` — where a text is split;
* `Decimal.parseDigits_pointed` — a whole part and places are read as one string of digits;
* `Decimal.keptPower_eq_iff` — which powers of ten are kept as they are;
* `Decimal.parse_of_noExponent` — a literal without exponent is its sign and its digits.
-/

namespace Text

variable {cs lead body trail : List Char}

/-- A text without blanks loses nothing. -/
theorem dropWhile_isBlank_eq_self (h : ∀ c ∈ cs, isBlank c = false) : cs.dropWhile isBlank = cs := by
  cases cs with
  | nil => rfl
  | cons c cs => rw [List.dropWhile_cons_of_neg (by simp [h c List.mem_cons_self])]

/-- The blanks around a text without blanks are trimmed off, and nothing else. -/
theorem trim_append (hlead : ∀ c ∈ lead, isBlank c = true) (hbody : ∀ c ∈ body, isBlank c = false)
    (htrail : ∀ c ∈ trail, isBlank c = true) : trim (lead ++ body ++ trail) = body := by
  have htrail' : ∀ c ∈ trail.reverse, isBlank c = true := fun c hc => htrail c (by simpa using hc)
  have hbody' : ∀ c ∈ body.reverse, isBlank c = false := fun c hc => hbody c (by simpa using hc)
  rw [trim, List.append_assoc, List.dropWhile_append_of_pos hlead]
  -- if the body is empty the blanks on its two sides are one run of blanks
  cases body with
  | nil =>
    have hnil : trail.dropWhile isBlank = [] := by simpa using htrail
    rw [List.nil_append, hnil]
    rfl
  | cons c body =>
    rw [List.cons_append, List.dropWhile_cons_of_neg (by simp [hbody c List.mem_cons_self]),
      ← List.cons_append, List.reverse_append, List.dropWhile_append_of_pos htrail',
      dropWhile_isBlank_eq_self hbody', List.reverse_reverse]

/-- What has no blank in it has none to be trimmed off. -/
theorem trim_eq_self (h : ∀ c ∈ cs, isBlank c = false) : trim cs = cs := by
  have htrim : trim ([] ++ cs ++ []) = cs := trim_append (by simp) h (by simp)
  rwa [List.nil_append, List.append_nil] at htrim

/-- What is trimmed off are blanks at both ends. -/
theorem exists_eq_append_trim (cs : List Char) :
    ∃ lead trail, cs = lead ++ trim cs ++ trail ∧ (∀ c ∈ lead, isBlank c = true) ∧
      ∀ c ∈ trail, isBlank c = true := by
  have hfront := List.takeWhile_append_dropWhile (p := isBlank) (l := cs)
  have hback := List.takeWhile_append_dropWhile (p := isBlank)
    (l := (cs.dropWhile isBlank).reverse)
  refine ⟨cs.takeWhile isBlank, ((cs.dropWhile isBlank).reverse.takeWhile isBlank).reverse,
    ?_, ?_, ?_⟩
  · have hrest : trim cs ++ ((cs.dropWhile isBlank).reverse.takeWhile isBlank).reverse =
        cs.dropWhile isBlank := by
      rw [trim, ← List.reverse_append, hback, List.reverse_reverse]
    rw [List.append_assoc, hrest, hfront]
  · exact fun c hc => List.mem_takeWhile_imp hc
  · exact fun c hc => List.mem_takeWhile_imp (List.mem_reverse.mp hc)

end Text

namespace Decimal

variable {p : Char → Bool} {cs ds text rest whole fraction : List Char} {c : Char} {negative : Bool}

/-! ### Splitting -/

/-- A text is split at the first character of a kind. -/
theorem splitFirst_append_cons (h : ∀ c ∈ cs, p c = false) (hc : p c = true) :
    splitFirst p (cs ++ c :: ds) = (cs, some ds) := by
  induction cs with
  | nil => simp [splitFirst, hc]
  | cons b cs ih =>
    have hb : p b = false := h b List.mem_cons_self
    have ih := ih fun c hc => h c (List.mem_cons_of_mem b hc)
    simp [splitFirst, hb, ih]

/-- A text without such a character is not split. -/
theorem splitFirst_of_forall (h : ∀ c ∈ cs, p c = false) : splitFirst p cs = (cs, none) := by
  induction cs with
  | nil => rfl
  | cons b cs ih =>
    have hb : p b = false := h b List.mem_cons_self
    have ih := ih fun c hc => h c (List.mem_cons_of_mem b hc)
    simp [splitFirst, hb, ih]

/-! ### Digits and the point -/

/-- A whole part and the places after it, with a point between if there are places. -/
def pointed (whole fraction : List Char) : List Char :=
  whole ++ if fraction = [] then [] else '.' :: fraction

/-- Without places there is no point. -/
@[simp] theorem pointed_nil (whole : List Char) : pointed whole [] = whole := by
  simp [pointed]

/-- With places there is one. -/
theorem pointed_of_ne_nil (h : fraction ≠ []) : pointed whole fraction = whole ++ '.' :: fraction := by
  rw [pointed, if_neg h]

/-- Digits, and a point. -/
theorem mem_pointed (hwhole : AllDigits whole) (hfraction : AllDigits fraction)
    (hc : c ∈ pointed whole fraction) : c.isDigit = true ∨ c = '.' := by
  by_cases hne : fraction = []
  · rw [hne, pointed_nil] at hc
    exact .inl (hwhole c hc)
  · rw [pointed_of_ne_nil hne, List.mem_append, List.mem_cons] at hc
    rcases hc with hc | hc | hc
    · exact .inl (hwhole c hc)
    · exact .inr hc
    · exact .inl (hfraction c hc)

/-- No digit is blank. -/
theorem isBlank_of_isDigit (h : c.isDigit = true) : Text.isBlank c = false := by
  have hc := toNat_of_isDigit h
  simp only [Text.isBlank, Bool.or_eq_false_iff, Bool.and_eq_false_iff, decide_eq_false_iff_not,
    beq_eq_false_iff_ne]
  omega

/-- No digit begins an exponent. -/
theorem isExponentMark_of_isDigit (h : c.isDigit = true) : isExponentMark c = false := by
  rw [isExponentMark, Bool.or_eq_false_iff, beq_eq_false_iff_ne, beq_eq_false_iff_ne]
  constructor <;> (rintro rfl; revert h; decide)

/-- No digit is the point. -/
theorem ne_point_of_isDigit (h : c.isDigit = true) : (c == '.') = false := by
  rw [beq_eq_false_iff_ne]
  rintro rfl
  revert h
  decide

/-- The reader splits a text of digits at its point. -/
theorem splitFirst_pointed (hwhole : AllDigits whole) (fraction : List Char) :
    (splitFirst (· == '.') (pointed whole fraction)).1 = whole ∧
      (splitFirst (· == '.') (pointed whole fraction)).2.getD [] = fraction := by
  have hw : ∀ c ∈ whole, (c == '.') = false := fun c hc => ne_point_of_isDigit (hwhole c hc)
  by_cases hne : fraction = []
  · rw [hne, pointed_nil, splitFirst_of_forall hw]
    exact ⟨rfl, rfl⟩
  · rw [pointed_of_ne_nil hne, splitFirst_append_cons hw (by decide)]
    exact ⟨rfl, rfl⟩

/-- A whole part and places are read as one string of digits, with as many places as there are. -/
theorem parseDigits_pointed (hwhole : AllDigits whole) (hfraction : AllDigits fraction)
    (hne : whole ≠ []) :
    parseDigits (pointed whole fraction) =
      .ok (digitsValue (whole ++ fraction), fraction.length) := by
  obtain ⟨hfirst, hsecond⟩ := splitFirst_pointed hwhole fraction
  have hempty : (whole ++ fraction).isEmpty = false := by
    cases whole with
    | nil => exact absurd rfl hne
    | cons c whole => rfl
  have hdigits : (whole ++ fraction).find? (fun c => !c.isDigit) = none := by
    rw [List.find?_eq_none]
    intro c hc
    have hc : c.isDigit = true := allDigits_append.mpr ⟨hwhole, hfraction⟩ c hc
    simp [hc]
  simp only [parseDigits, hfirst, hsecond, hempty, hdigits]
  rfl

/-! ### Signs -/

/-- A text that does not begin with a sign has none taken off. -/
theorem splitSign_of_ne (hminus : cs.head? ≠ some '-') (hplus : cs.head? ≠ some '+') :
    splitSign cs = (false, cs) := by
  unfold splitSign
  split
  · exact absurd rfl hminus
  · exact absurd rfl hplus
  · rfl

/-! ### Fixed width -/

section FixedWidth

variable {e : Int64} {places : Nat}

/-- A 64-bit integer has a magnitude, but for the least of them. -/
theorem toInt_abs (e : Int64) :
    e.abs.toInt = if e = Int64.minValue then -2 ^ 63 else (e.toInt.natAbs : ℤ) := by
  have hmin : e.toBitVec = BitVec.intMin 64 ↔ e = Int64.minValue := by
    rw [← Int64.toBitVec_inj]
    rfl
  have habs : e.abs.toInt = e.toBitVec.abs.toInt := rfl
  rw [habs, BitVec.toInt_abs_eq_natAbs]
  simp only [hmin]
  rfl

/-- Keeping the lower half of a 64-bit integer is division by the number of scales. -/
theorem toNat_lowerHalf (x : Int64) : (x.toUInt64.toUInt32.toNat : ℤ) = x.toInt % scaleBound := by
  have hvalue := BitVec.toInt_eq_toNat_cond x.toBitVec
  rw [UInt64.toNat_toUInt32, scaleBound_eq]
  show ((x.toBitVec.toNat % 2 ^ 32 : ℕ) : ℤ) = x.toBitVec.toInt % (2 ^ 32 : ℕ)
  omega

/-- A power of ten whose scale is one of 32 bits is kept as it is. -/
theorem keptPower_eq (he : e.toInt.natAbs ≤ exponentLimit) (h : places - e.toInt < scaleBound) :
    keptPower e places = e.toInt - places := by
  have hbound := scaleBound_eq
  have hlimit : exponentLimit = 100000 := rfl
  have hsize : Int64.size = 2 ^ 64 := rfl
  -- the difference and its negation are 64-bit integers, so nothing wraps around
  have hplaces : (Int64.ofNat places).toInt = places := by
    rw [Int64.toInt_ofNat', hsize]
    exact Int.bmod_eq_of_le (by omega) (by omega)
  have hscale : (Int64.ofNat places - e).toInt = places - e.toInt := by
    rw [Int64.toInt_sub, hplaces]
    exact Int.bmod_eq_of_le (by omega) (by omega)
  have hneg : (-(Int64.ofNat places - e)).toInt = e.toInt - places := by
    rw [Int64.toInt_neg, hscale, Int.bmod_eq_of_le (by omega) (by omega)]
    omega
  have hzero : (0 : Int64).toInt = 0 := rfl
  simp only [keptPower, toNat_lowerHalf, Int64.lt_iff_toInt_lt, hscale, hneg, hzero]
  split
  · rw [Int.emod_eq_of_lt (by omega) (by omega)]
  · rw [Int.emod_eq_of_lt (by omega) (by omega)]
    omega

/-- The scale that is kept is one of 32 bits. -/
theorem neg_scaleBound_lt_keptPower (e : Int64) (places : Nat) :
    -(scaleBound : ℤ) < keptPower e places := by
  have hkept (x : Int64) : x.toUInt64.toUInt32.toNat < scaleBound := x.toUInt64.toUInt32.toNat_lt
  have hneg := hkept (-(Int64.ofNat places - e))
  have hpos := hkept (Int64.ofNat places - e)
  rw [keptPower]
  split
  · omega
  · omega

/-- **The scale** of a literal is what it should be exactly if that is one of 32 bits. -/
theorem keptPower_eq_iff (he : e.toInt.natAbs ≤ exponentLimit) :
    keptPower e places = e.toInt - places ↔ places - e.toInt < scaleBound := by
  refine ⟨fun h => ?_, keptPower_eq he⟩
  have hlt := neg_scaleBound_lt_keptPower e places
  rw [h] at hlt
  omega

end FixedWidth

/-! ### Literals -/

/-- A literal without blanks and exponent is its sign and its digits. -/
theorem parse_of_noExponent (hblank : ∀ c ∈ text, Text.isBlank c = false) (hne : text ≠ [])
    (hsign : splitSign text = (negative, rest)) (hmark : ∀ c ∈ rest, isExponentMark c = false) :
    parse text =
      (parseDigits rest).map fun d => ofPower (signed negative d.1) (keptPower 0 d.2) := by
  have hempty : text.isEmpty = false := by
    cases text with
    | nil => exact absurd rfl hne
    | cons c text => rfl
  simp only [parse, Text.trim_eq_self hblank, hempty, hsign, splitFirst_of_forall hmark]
  cases parseDigits rest with
  | error e => rfl
  | ok d => rfl

end Decimal

end LispObjects
