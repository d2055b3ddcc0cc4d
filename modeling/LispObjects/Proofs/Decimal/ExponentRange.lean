import LispObjects.Proofs.Decimal.Literal

namespace LispObjects.Decimal

open Text

/-!
# Literals with large exponents

A literal is refused for its exponent if that is beyond the limit.  The exponent is first read as a 64-bit
integer, so what is reported depends on whether it is one.  The least of these integers has no magnitude:
where arithmetic is checked the reader stops there, and otherwise it goes on as if the exponent were within
the limit.

* `parseExponent_eq_error_iff` — why an exponent is refused, if it is a sign and digits;
* `parse_eq_error_iff` — why a literal is refused, whatever its digits are;
* `literalOverflows_iff` — the one exponent at which the reader may stop;
* `exponentLaws` — for all strings that are literals, and for exponents of any length;
* `not_outOfRange_of_wide` — an exponent that is too large to be reported as too large.
-/

variable {cs ds body rest : List Char} {negative : Bool} {f : LiteralError} {s : String} {l : Literal}

/-- What is reported of an exponent beyond the limit: a value that is no 64-bit integer is malformed. -/
def exponentFault (e : ℤ) : LiteralError :=
  if Int64.minValue.toInt ≤ e ∧ e ≤ Int64.maxValue.toInt then .exponentOutOfRange else .invalidExponent

/-- An exponent of 64 bits is out of range. -/
theorem exponentFault_of_natAbs_lt {e : ℤ} (h : e.natAbs < 2 ^ 63) :
    exponentFault e = .exponentOutOfRange := by
  have hmin : Int64.minValue.toInt = -2 ^ 63 := rfl
  have hmax : Int64.maxValue.toInt = 2 ^ 63 - 1 := rfl
  rw [exponentFault, if_pos]
  omega

/-- An exponent of more than 64 bits is no exponent at all. -/
theorem exponentFault_of_wide {e : ℤ} (h : e < -2 ^ 63 ∨ 2 ^ 63 ≤ e) :
    exponentFault e = .invalidExponent := by
  have hmin : Int64.minValue.toInt = -2 ^ 63 := rfl
  have hmax : Int64.maxValue.toInt = 2 ^ 63 - 1 := rfl
  rw [exponentFault, if_neg]
  omega

/-- That holds of the least integer of 64 bits too. -/
theorem exponentFault_toInt (e : Int64) : exponentFault e.toInt = .exponentOutOfRange :=
  if_pos ⟨e.minValue_le_toInt, e.toInt_le⟩

/-! ### Refusals -/

/-- **Exponents** of a sign and digits are refused if they are not among those that are read, and for no
other reason. -/
theorem parseExponent_eq_error_iff (h : splitSign cs = (negative, ds)) (hdigits : AllDigits ds)
    (hne : ds ≠ []) :
    parseExponent cs = .error f ↔
      ¬ IsReadExponent (signed negative (digitsValue ds)) ∧
        f = exponentFault (signed negative (digitsValue ds)) := by
  have hvalue (e : Int64) :
      parseInt64? cs = some e ↔ e.toInt = signed negative (digitsValue ds) := by
    rw [parseInt64?_of_splitSign h, and_iff_right hdigits, and_iff_right hne]
  unfold parseExponent
  split
  · next hnone =>
    -- no 64-bit integer, so neither one within the limit nor the least
    have hnot (e : Int64) : e.toInt ≠ signed negative (digitsValue ds) := by
      rw [Ne, ← hvalue, hnone]
      nofun
    have hread : ¬ IsReadExponent (signed negative (digitsValue ds)) := by
      intro hread
      obtain ⟨e, he⟩ := exists_toInt_eq hread
      exact hnot e he
    have hfault : exponentFault (signed negative (digitsValue ds)) = .invalidExponent := by
      rw [exponentFault, if_neg]
      rintro ⟨hlow, hhigh⟩
      exact hnot _ (Int64.toInt_ofInt_of_le hlow (Int.lt_of_le_of_lt hhigh (by decide)))
    rw [Except.error.injEq, hfault, and_iff_right hread, eq_comm]
  · next e he =>
    rw [← (hvalue e).mp he, isReadExponent_toInt_iff, not_not, exponentFault_toInt]
    split
    · next hbeyond => rw [Except.error.injEq, eq_comm, and_iff_right hbeyond]
    · next hwithin => exact iff_of_false nofun fun hf => hwithin hf.1

/-- A text whose exponent is refused is refused for that, whatever is before the exponent. -/
theorem parse_of_parseExponent_error (hne : trim cs ≠ [])
    (hsign : splitSign (trim cs) = (negative, rest))
    (hsplit : splitFirst isExponentMark rest = (body, some ds))
    (hexponent : parseExponent ds = .error f) : parse cs = .error f := by
  have hempty : (trim cs).isEmpty = false := by simpa using hne
  simp only [parse, hempty, hsign, hsplit, Option.elim_some, hexponent]
  rfl

/-- **Literals** are refused if their exponent is, and for no other reason. -/
theorem parse_eq_error_iff (l : Literal) (h : trim cs = l.text) :
    parse cs = .error f ↔ ¬ IsReadExponent l.exponent ∧ f = exponentFault l.exponent := by
  -- an exponent that is read leaves nothing to fail, and one that is not fails before the digits are
  -- read
  by_cases hread : IsReadExponent l.exponent
  · obtain ⟨e, he⟩ := exists_toInt_eq hread
    rw [(parse_eq_ok_iff l h).mpr ⟨e, hread, he, rfl⟩]
    exact iff_of_false nofun fun hf => hf.1 hread
  · obtain ⟨sign, b, x?⟩ := l
    cases x? with
    | none => exact absurd (.inl (Nat.zero_le _)) hread
    | some x =>
      have hne : trim cs ≠ [] := by rw [h]; exact Literal.text_ne_nil _
      have hsign := Literal.splitSign_text ⟨sign, b, some x⟩
      rw [← h] at hsign
      have hsplit := Literal.splitFirst_exponent ⟨sign, b, some x⟩
      have hexponent : parseExponent x.numberText = .error (exponentFault x.value) :=
        (parseExponent_eq_error_iff x.splitSign_numberText x.allDigits x.ne_nil).mpr ⟨hread, rfl⟩
      rw [parse_of_parseExponent_error hne hsign hsplit hexponent, Except.error.injEq, eq_comm]
      exact (and_iff_right hread).symm

/-- The reader may stop at literals of one exponent, and at no others. -/
theorem literalOverflows_iff (l : Literal) (h : trim cs = l.text) :
    literalOverflows cs = true ↔ l.exponent = -2 ^ 63 := by
  simp only [literalOverflows, h, l.splitSign_text, l.splitFirst_exponent, Literal.exponent]
  cases l.exponent? with
  | none => exact iff_of_false (by decide) (by decide)
  | some x =>
    rw [beq_iff_eq, Option.map_some, Option.bind_some, x.parseInt64?_numberText, eq_comm]
    rfl

/-! ### Strings -/

/-- What is reported of a string that is the literal `l`, with blanks around it, if its exponent is beyond
the limit. -/
structure ExponentLaws (s : String) (l : Literal) : Prop where
  /-- An exponent whose magnitude is a 64-bit integer is reported as what it is, -/
  outOfRange : 100000 < l.exponent.natAbs → l.exponent.natAbs < 2 ^ 63 →
    ofString s = .error .exponentOutOfRange
  /-- and one that is no 64-bit integer as malformed. -/
  invalid : l.exponent < -2 ^ 63 ∨ 2 ^ 63 ≤ l.exponent → ofString s = .error .invalidExponent
  /-- There is no other refusal. -/
  refused : ∀ f, ofString s = .error f → f = .exponentOutOfRange ∨ f = .invalidExponent
  /-- There is one exponent at which arithmetic overflows, the integer whose magnitude is none, -/
  overflows : literalOverflows s.toList = true ↔ l.exponent = -2 ^ 63
  /-- and if that passes unchecked the literal is read, with what is kept of its scale. -/
  unchecked : l.exponent = -2 ^ 63 →
    ofString s = .ok (ofPower l.mantissa (keptPower Int64.minValue l.places))

/-- **Large exponents.** In every literal, of however many digits the exponent is and whatever stands before
it. -/
theorem exponentLaws (h : IsLiteral s l) : ExponentLaws s l := by
  have htrim : trim s.toList = l.text := isLiteral_iff.mp h
  have herror (f : LiteralError) : ofString s = .error f ↔
      ¬ IsReadExponent l.exponent ∧ f = exponentFault l.exponent :=
    parse_eq_error_iff l htrim
  have hlimit : exponentLimit = 100000 := rfl
  have hread : IsReadExponent l.exponent ↔
      l.exponent.natAbs ≤ exponentLimit ∨ l.exponent = -2 ^ 63 := Iff.rfl
  constructor
  · intro hbeyond hfits
    exact (herror _).mpr ⟨mt hread.mp (by omega), (exponentFault_of_natAbs_lt hfits).symm⟩
  · intro hwide
    exact (herror _).mpr ⟨mt hread.mp (by omega), (exponentFault_of_wide hwide).symm⟩
  · intro f hf
    rw [((herror f).mp hf).2, exponentFault]
    split
    · exact .inl rfl
    · exact .inr rfl
  · exact literalOverflows_iff l htrim
  -- the least integer of 64 bits is no power of ten that is out of range but one that is kept
  · intro hleast
    exact (parse_eq_ok_iff l htrim).mpr ⟨Int64.minValue, .inr hleast, hleast.symm, rfl⟩

/-- The scale of such a literal without places is kept as zero. -/
example : ofString "1e-9223372036854775808" = .ok (ofInt 1) := by decide +kernel

/-- The literal of a one with an exponent of the given digits. -/
def oneWithExponent (ds : List Char) (hdigits : ds.all Char.isDigit = true) (hne : ds ≠ []) :
    Literal where
  sign := .absent
  body := ⟨['1'], none, by simp, by simp⟩
  exponent? := some ⟨'e', .absent, ds, rfl, List.all_eq_true.mp hdigits, hne⟩

/-- One beyond the limit. -/
theorem exponentLaws_oneBeyondLimit :
    ∃ l, IsLiteral "1e100001" l ∧ ofString "1e100001" = .error .exponentOutOfRange := by
  have hliteral : IsLiteral "1e100001"
      (oneWithExponent ['1', '0', '0', '0', '0', '1'] (by decide) (by decide)) :=
    isLiteral_iff.mpr (by decide +kernel)
  exact ⟨_, hliteral, (exponentLaws hliteral).outOfRange (by decide +kernel) (by decide +kernel)⟩

/-- The least magnitude that is no 64-bit integer: the exponent is beyond the limit, and is reported as
malformed. -/
theorem not_outOfRange_of_wide :
    ¬ ∀ s l, IsLiteral s l → 100000 < l.exponent.natAbs → ofString s = .error .exponentOutOfRange := by
  intro hall
  have hliteral : IsLiteral "1e9223372036854775808"
      (oneWithExponent "9223372036854775808".toList (by decide +kernel) (by decide +kernel)) :=
    isLiteral_iff.mpr (by decide +kernel)
  have hrefused := hall _ _ hliteral (by decide +kernel)
  have hinvalid : ofString "1e9223372036854775808" = .error .invalidExponent := by decide +kernel
  rw [hinvalid] at hrefused
  cases hrefused

end LispObjects.Decimal
